/-
  Lexers.

  A lexer styles a window of a buffer.  It starts in the state that a style byte
  stands for, and gives the window with the styles committed, the style byte to
  go on with, and the places of the include paths that it has met.  It may move
  the start of the window back, to style a word as a whole.

  * `Lexer.lexText` is the lexer put to work on a text without a buffer;
  * `Lexer.plain` is the lexer that styles nothing.
-/
import StyledText.Buffer.Editing
import StyledText.Window

namespace StyledText

/-- A stretch of text. -/
structure Span where
  /-- Its first position. -/
  start : Nat
  /-- The position after its last one. -/
  stop : Nat
deriving DecidableEq, Repr

/-- What a lexer gives for a window. -/
structure Lexed where
  /-- The window, with the styles committed. -/
  window : Window
  /-- The style byte with which the text after the window is to be read. -/
  endStyle : UInt8
  /-- Where include paths stand, the marks around them included. -/
  includes : List Span

/-- A lexer. -/
structure Lexer where
  /-- The name of the lexer. -/
  name : String
  /-- The extensions of the files that it is meant for. -/
  extensions : List String
  /-- Styles a window, starting with a style byte. -/
  lex : Window → UInt8 → Lexed

namespace Lexer

/-- The lexer for text without structure, all of which has style `0`. -/
def plain : Lexer where
  name := "null"
  extensions := ["txt"]
  lex w _ := ⟨w.commitBefore w.stop 0, 0, []⟩

/-- The styles that a window which has been moved back has from `start` on. -/
def stylesFrom (w : Window) (start : Nat) : Array UInt8 :=
  w.pending.extract (start - w.start) w.pending.size

/-- The styles of `n` characters of `text` from `start` on, read with the style
    byte `initial`.  A word that began before `start` is read whole, but only
    the styles asked for are given. -/
def lexText (lexer : Lexer) (text : Text) (start n : Nat) (initial : UInt8) : Array UInt8 :=
  let w := Window.ofBuffer (.ofText text) start n
  stylesFrom (lexer.lex w initial).window w.start

end Lexer

end StyledText
