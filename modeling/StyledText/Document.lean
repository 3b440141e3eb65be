/-
  A buffer with its lexer, its styling progress and its watchers.

  A document knows up to where the styles of its buffer are those of its text.
  Styling goes on from there: it starts again at the beginning of the line where
  the known styles end, in the style of the character before.

  * `lex` styles a stretch of text, and `ensureStyledTo` as much as is needed up
    to a position;
  * `tell` tells all watchers of an event, in the order in which they were
    added.
-/
import StyledText.Bracket
import StyledText.Document.Event
import StyledText.Lexer
import StyledText.Quoted

namespace StyledText

/-- A buffer and what an editor keeps around it. -/
structure Document where
  /-- The text with its styles. -/
  buffer : Buffer
  /-- The lexer in use. -/
  lexer : Option Lexer
  /-- The position up to which the styles are those of the text. -/
  endStyled : Nat
  /-- The number of columns from one tab stop to the next. -/
  tabWidth : Nat
  /-- The include paths that the lexer has met last. -/
  includes : List Span
  /-- The number of watchers. -/
  watchers : Nat
  /-- All that the watchers have been told, in order. -/
  notices : List Notice

namespace Document

/-- The document with the given buffer, without a lexer and without
    watchers. -/
def ofBuffer (buffer : Buffer) : Document := ⟨buffer, none, 0, 8, [], 0, []⟩

/-- The document without text. -/
def empty : Document := ofBuffer .empty

/-- The document that holds `text`. -/
def ofText (text : Text) : Document := ofBuffer (.ofText text)

/-! ## Watchers -/

/-- Adds a watcher, which is told what happens from now on. -/
def addWatcher (d : Document) : Document := { d with watchers := d.watchers + 1 }

/-- Tells all watchers. -/
def tell (d : Document) (event : Event) : Document :=
  { d with notices := d.notices ++ (List.range d.watchers).map (⟨·, event⟩) }

/-- What one watcher has been told. -/
def heardBy (d : Document) (watcher : Nat) : List Event :=
  (d.notices.filter (·.watcher = watcher)).map (·.event)

/-! ## Styling -/

/-- Uses `lexer` from now on; the styles have to be found anew. -/
def setLexer (d : Document) (lexer : Lexer) : Document :=
  { d with lexer := some lexer, endStyled := 0 }

/-- Styles `n` characters from `start` on, read with the style byte `initial`,
    and gives their styles.  Without a lexer all of them are `0`.  A lexer may
    style a few characters before `start` too. -/
def lex (d : Document) (start n : Nat) (initial : UInt8) : Document × Array UInt8 :=
  let asked := Window.ofBuffer d.buffer start n
  let result := (d.lexer.getD .plain).lex asked initial
  let w := result.window
  ({ d with
      buffer := d.buffer.setStyles w.start w.pending
      endStyled := if w.start ≤ d.endStyled then max d.endStyled w.boundary else d.endStyled
      includes := result.includes },
    Lexer.stylesFrom w asked.start)

/-- Sees to it that the styles before `p` are those of the text. -/
def ensureStyledTo (d : Document) (p : Nat) : Document :=
  let p := min p d.buffer.length
  if p ≤ d.endStyled then d
  else
    let start := d.buffer.lineStart (d.buffer.lineOf d.endStyled)
    let initial := if start = 0 then 0 else d.buffer.styleAt (start - 1)
    (d.lex start (p - start) initial).1

/-- The partner of the bracket at `p`, by the styles known. -/
def matchBracket? (d : Document) (p : Nat) : Option Nat := d.buffer.matchBracket? p d.endStyled

/-! ## Summary -/

/-- The state of the document in one line, to be looked at by hand. -/
def summary (d : Document) : String :=
  let lexer := match d.lexer with
    | some lexer => "Some(" ++ quoted lexer.name ++ ")"
    | none => "None"
  "Document \x7b len: " ++ toString d.buffer.length ++ ", lexer: " ++ lexer ++
    ", end_styled: " ++ toString d.endStyled ++ ", tab_width: " ++ toString d.tabWidth ++
    ", watchers: " ++ toString d.watchers ++ " \x7d"

end Document

end StyledText
