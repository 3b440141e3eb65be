/-
  The scan of a window by the lexer for C-like languages.

  One step of the scan reads one character, or a few that belong together: it
  asks how the style at hand ends, acts on the answer, asks in plain text what
  begins, acts on that, and moves on.  A backslash at the end of a line is
  passed over together with the line end before anything is asked.

  * `Scan` is the cursor with what is remembered, and `Scan.step` one step;
  * `Scan.run` takes steps to the end of the window;
  * `Reaches` is how the cursor of a scan can move;
  * `pos_lt_step` says that each step moves the cursor on, so that the run
    ends.
-/
import StyledText.CFamily.Transition
import StyledText.CFamily.Vocabulary
import StyledText.Lexer

namespace StyledText.CFamily

/-- A C-like language: how its text is read, and which words it has. -/
structure Dialect where
  /-- The name of the lexer. -/
  name : String
  /-- The extensions of the files that hold it. -/
  extensions : List String
  /-- How its text is read. -/
  settings : Settings
  /-- The words that it has. -/
  vocabulary : Vocabulary
deriving DecidableEq

/-- A scan that is under way. -/
structure Scan where
  /-- The place that the scan has come to. -/
  cursor : Cursor
  /-- What it remembers. -/
  memory : Memory
  /-- Where the open literal of an including line began. -/
  literalStart : Option Nat
  /-- The include paths met. -/
  includes : List Span

namespace Scan

/-! ## Moves -/

/-- The style of the open run. -/
def style (s : Scan) : Style := .ofCode s.cursor.state

/-- Moves on by one character. -/
def advance (s : Scan) : Scan := { s with cursor := s.cursor.advance }

/-- Ends the run before the cursor. -/
def switchTo (s : Scan) (next : Style) : Scan := { s with cursor := s.cursor.switchTo next.code }

/-- Changes the style of the open run. -/
def recolour (s : Scan) (next : Style) : Scan := { s with cursor := s.cursor.recolour next.code }

/-- Moves over the characters for which `p` holds. -/
def skipWhile (s : Scan) (p : Char → Bool) : Scan := { s with cursor := s.cursor.skipWhile p }

/-- Changes what is remembered. -/
def remember (s : Scan) (f : Memory → Memory) : Scan := { s with memory := f s.memory }

/-! ## Lines -/

/-- What changes at the start of a line.  A literal that goes on from the line
    before is closed and opened again there, so that only its last line can turn
    out to be unclosed. -/
def beginLine (s : Scan) : Scan :=
  if s.cursor.atLineStart then
    let s := if s.style = .string ∨ s.style = .character then s.switchTo s.style else s
    s.remember fun m => { m with visible := 0, afterUuid := false, inInclude := false }
  else s

/-- Whether the line ends with a backslash at the cursor. -/
def atContinuation (s : Scan) : Bool := s.cursor.ch == '\\' && isLineBreak s.cursor.next

/-- Passes over a backslash and the line end behind it. -/
def passContinuation (s : Scan) : Scan :=
  let s := s.advance
  let s := if s.cursor.ch == '\r' && s.cursor.next == '\n' then s.advance else s
  (s.remember fun m => { m with continued := true }).advance

/-- Passes over the character at the cursor and counts it, unless it is white
    space or in a comment. -/
def passChar (s : Scan) : Scan :=
  let s :=
    if isSpace s.cursor.ch || s.style.isComment then s
    else s.remember fun m => { m with visible := m.visible + 1, lastVisible := s.cursor.ch }
  (s.remember fun m => { m with continued := false }).advance

/-! ## Acting on the transitions -/

/-- Ends a word, in the style of the list that it is in. -/
def endWord (d : Dialect) (s : Scan) : Scan :=
  let word := s.cursor.openRun
  let s :=
    if d.vocabulary.primary.contains word then
      s.remember fun m => { m with afterUuid := word == ['u', 'u', 'i', 'd'] }
    else s
  match d.vocabulary.classify? word with
  | some found => (s.recolour found).switchTo .plain
  | none => s.switchTo .plain

/-- Ends a documentation keyword, which has to be known and to be followed by
    white space. -/
def closeDocKeyword (d : Dialect) (s : Scan) : Scan :=
  let known := isSpace s.cursor.ch && d.vocabulary.doc.contains (s.cursor.openRun.drop 1)
  (if known then s else s.recolour .docKeywordError).switchTo s.memory.docStyle

/-- Begins a literal, in a directive or not.  Its place is kept if the line
    includes a file. -/
def openLiteral (s : Scan) (literal : Literal) (inDirective keepPlace : Bool) : Scan :=
  let stringClose := match literal with
    | .string close => close
    | .character => s.memory.stringClose
  { s.switchTo literal.style with
    memory := { s.memory with inDirective, stringClose }
    literalStart := if s.memory.inInclude && keepPlace then some s.cursor.pos else none }

/-- Ends a literal behind its closing character.  If its place has been kept,
    the path of the including line is complete. -/
def closeLiteral (d : Dialect) (s : Scan) : Scan :=
  let closed := s.advance.switchTo (if s.memory.inDirective then .directive else .plain)
  match s.literalStart with
  | none => closed
  | some start =>
    { closed with
      memory := { closed.memory with inInclude := false }
      literalStart := none
      includes :=
        if d.settings.trackIncludes then closed.includes ++ [⟨start, closed.cursor.pos⟩]
        else closed.includes }

/-- Acts on the end of `style`. -/
def applyLeave (d : Dialect) (s : Scan) (style : Style) : Leave → Scan
  | .stay => s
  | .switch next => s.switchTo next
  | .switchAfter next => s.advance.switchTo next
  | .switchAfterPair next => s.advance.advance.switchTo next
  | .recolour next => s.recolour next
  | .skipNext => s.advance
  | .endWord => s.endWord d
  | .openDocKeyword => (s.remember fun m => { m with docStyle := style }).switchTo .docKeyword
  | .closeDocKeyword => s.closeDocKeyword d
  | .breakDocKeyword => (s.recolour .docKeywordError).advance.advance.switchTo .plain
  | .openLiteral literal => s.openLiteral literal true true
  | .closeLiteral => s.closeLiteral d
  | .closeRegex => (s.advance.skipWhile isSmallLetter).switchTo .plain

/-- Begins a directive and passes over `#` and the blanks behind it.  A line
    that ends there has no directive. -/
def openDirective (s : Scan) : Scan :=
  let s := (s.switchTo .directive).advance.skipWhile isBlank
  if s.cursor.atLineEnd then s.switchTo .plain
  else if s.cursor.lookingAt ['i', 'n', 'c', 'l', 'u', 'd', 'e'] then
    s.remember fun m => { m with inInclude := true }
  else s

/-- Acts on what begins. -/
def applyEnter (s : Scan) : Enter → Scan
  | .verbatim => (s.switchTo .verbatim).advance
  | .number => s.switchTo .number
  | .identifier => s.switchTo .identifier
  | .uuid => (s.remember fun m => { m with afterUuid := false }).switchTo .uuid
  | .blockComment doc => (s.switchTo (if doc then .docComment else .blockComment)).advance
  | .lineComment doc => s.switchTo (if doc then .docLineComment else .lineComment)
  | .regex => s.switchTo .regex
  | .literal (.string close) => s.openLiteral (.string close) false true
  | .literal .character => s.openLiteral .character false false
  | .directive => s.openDirective
  | .operator => s.switchTo .operator

/-! ## Steps -/

/-- How the style at the cursor ends. -/
def leaving (d : Dialect) (s : Scan) : Leave :=
  leave s.style s.cursor.surroundings s.memory d.settings

/-- Ends the style at the cursor, or goes on with it. -/
def leaveStyle (d : Dialect) (s : Scan) : Scan := s.applyLeave d s.style (s.leaving d)

/-- What begins at the cursor, if the text there is plain. -/
def entering? (d : Dialect) (s : Scan) : Option Enter :=
  if s.cursor.more && s.style == .plain then enter? s.cursor.surroundings s.memory d.settings
  else none

/-- Begins what begins at the cursor, and moves on.  After the opening of a
    directive the cursor is on the first character of its word, which has not
    been looked at yet. -/
def enterAndPass (d : Dialect) (s : Scan) : Scan :=
  match s.entering? d with
  | some .directive => s.applyEnter .directive
  | some what => (s.applyEnter what).passChar
  | none => s.passChar

/-- One step of the scan. -/
def step (d : Dialect) (s : Scan) : Scan :=
  let s := s.beginLine
  if s.atContinuation then s.passContinuation
  else (s.leaveStyle d).enterAndPass d

/-! ## Each step moves on -/

section Progress

/-- The cursor has come from `c` by moving on, and by closing and recolouring
    open runs in styles of the language. -/
inductive Reaches (c : Cursor) : Cursor → Prop where
  | refl : Reaches c c
  | advance {c' : Cursor} (h : Reaches c c') : Reaches c c'.advance
  | switchTo {c' : Cursor} (h : Reaches c c') (next : Style) : Reaches c (c'.switchTo next.code)
  | recolour {c' : Cursor} (h : Reaches c c') (next : Style) : Reaches c (c'.recolour next.code)

namespace Reaches

variable {c c' c'' : Cursor}

theorem trans (h : Reaches c c') (h' : Reaches c' c'') : Reaches c c'' := by
  induction h' with
  | refl => exact h
  | advance _ ih => exact ih.advance
  | switchTo _ next ih => exact ih.switchTo next
  | recolour _ next ih => exact ih.recolour next

theorem skipWhile (h : Reaches c c') (p : Char → Bool) : Reaches c (c'.skipWhile p) := by
  fun_induction Cursor.skipWhile p c' with
  | case1 c' _ _ ih => exact ih h.advance
  | case2 => exact h
  | case3 => exact h

theorem stop_eq (h : Reaches c c') : c'.window.stop = c.window.stop := by
  induction h with
  | refl => rfl
  | advance _ ih => rw [Cursor.stop_advance, ih]
  | switchTo _ _ ih => rw [Cursor.stop_switchTo, ih]
  | recolour _ _ ih => rw [Cursor.stop_recolour, ih]

theorem pos_le (h : Reaches c c') : c.pos ≤ c'.pos := by
  induction h with
  | refl => exact Nat.le_refl _
  | advance _ ih => exact Nat.le_trans ih (Cursor.pos_le_advance _)
  | switchTo _ _ ih => rw [Cursor.pos_switchTo]; exact ih
  | recolour _ _ ih => rw [Cursor.pos_recolour]; exact ih

/-- Within the window, a cursor that on its way moves on by one character comes
    further. -/
theorem pos_lt (h : Reaches c c') (h' : Reaches c'.advance c'')
    (inside : c.pos < c.window.stop) : c.pos < c''.pos := by
  have before := h.pos_le
  have behind := h'.pos_le
  rw [Cursor.pos_advance, h.stop_eq] at behind
  split at behind <;> omega

end Reaches

theorem reaches_beginLine (s : Scan) : Reaches s.cursor s.beginLine.cursor := by
  unfold beginLine
  split
  · dsimp only
    split
    · exact Reaches.refl.switchTo s.style
    · exact .refl
  · exact .refl

theorem reaches_endWord (d : Dialect) (s : Scan) : Reaches s.cursor (s.endWord d).cursor := by
  unfold endWord
  dsimp only
  split
  · split <;> exact (Reaches.refl.recolour _).switchTo _
  · split <;> exact Reaches.refl.switchTo _

theorem reaches_closeDocKeyword (d : Dialect) (s : Scan) :
    Reaches s.cursor (s.closeDocKeyword d).cursor := by
  unfold closeDocKeyword
  dsimp only
  split
  · exact Reaches.refl.switchTo _
  · exact (Reaches.refl.recolour _).switchTo _

theorem reaches_openLiteral (s : Scan) (literal : Literal) (inDirective keepPlace : Bool) :
    Reaches s.cursor (s.openLiteral literal inDirective keepPlace).cursor :=
  Reaches.refl.switchTo literal.style

theorem reaches_closeLiteral (d : Dialect) (s : Scan) :
    Reaches s.cursor (s.closeLiteral d).cursor := by
  unfold closeLiteral
  dsimp only
  split
  · exact Reaches.refl.advance.switchTo _
  · exact Reaches.refl.advance.switchTo _

theorem reaches_applyLeave (d : Dialect) (s : Scan) (style : Style) (how : Leave) :
    Reaches s.cursor (s.applyLeave d style how).cursor := by
  cases how with
  | stay => exact .refl
  | switch next => exact Reaches.refl.switchTo next
  | switchAfter next => exact Reaches.refl.advance.switchTo next
  | switchAfterPair next => exact Reaches.refl.advance.advance.switchTo next
  | recolour next => exact Reaches.refl.recolour next
  | skipNext => exact Reaches.refl.advance
  | endWord => exact reaches_endWord d s
  | openDocKeyword => exact Reaches.refl.switchTo _
  | closeDocKeyword => exact reaches_closeDocKeyword d s
  | breakDocKeyword => exact (Reaches.refl.recolour _).advance.advance.switchTo _
  | openLiteral literal => exact reaches_openLiteral s literal true true
  | closeLiteral => exact reaches_closeLiteral d s
  | closeRegex => exact (Reaches.refl.advance.skipWhile _).switchTo _

/-- Beginning a directive passes over its `#` at least. -/
theorem reaches_openDirective (s : Scan) :
    Reaches (s.switchTo .directive).cursor.advance s.openDirective.cursor := by
  have passed : Reaches (s.switchTo .directive).cursor.advance
      ((s.switchTo .directive).advance.skipWhile isBlank).cursor := Reaches.refl.skipWhile _
  unfold openDirective
  dsimp only
  split
  · exact passed.switchTo _
  · split
    · exact passed
    · exact passed

theorem reaches_applyEnter (s : Scan) (what : Enter) :
    Reaches s.cursor (s.applyEnter what).cursor := by
  cases what with
  | verbatim => exact (Reaches.refl.switchTo _).advance
  | number => exact Reaches.refl.switchTo _
  | identifier => exact Reaches.refl.switchTo _
  | uuid => exact Reaches.refl.switchTo _
  | blockComment doc => exact (Reaches.refl.switchTo _).advance
  | lineComment doc => exact Reaches.refl.switchTo _
  | regex => exact Reaches.refl.switchTo _
  | literal literal =>
    cases literal with
    | string close => exact reaches_openLiteral s _ _ _
    | character => exact reaches_openLiteral s _ _ _
  | directive => exact (Reaches.refl.switchTo _).advance.trans (reaches_openDirective s)
  | operator => exact Reaches.refl.switchTo _

theorem cursor_passChar (s : Scan) : s.passChar.cursor = s.cursor.advance := by
  unfold passChar
  dsimp only
  split <;> rfl

theorem reaches_passContinuation (s : Scan) :
    Reaches s.cursor.advance s.passContinuation.cursor := by
  unfold passContinuation
  dsimp only
  split
  · exact Reaches.refl.advance.advance
  · exact Reaches.refl.advance

/-- What begins at the cursor is followed by a move to the next character at
    least. -/
theorem enterAndPass_moves (d : Dialect) (s : Scan) :
    ∃ c, Reaches s.cursor c ∧ Reaches c.advance (s.enterAndPass d).cursor := by
  unfold enterAndPass
  split
  · exact ⟨_, Reaches.refl.switchTo _, reaches_openDirective s⟩
  · exact ⟨_, reaches_applyEnter s _, by rw [cursor_passChar]; exact .refl⟩
  · exact ⟨_, .refl, by rw [cursor_passChar]; exact .refl⟩

theorem step_moves (d : Dialect) (s : Scan) :
    ∃ c, Reaches s.cursor c ∧ Reaches c.advance (s.step d).cursor := by
  unfold step
  dsimp only
  split
  · exact ⟨_, reaches_beginLine s, reaches_passContinuation _⟩
  · obtain ⟨c, h, h'⟩ := enterAndPass_moves d (s.beginLine.leaveStyle d)
    exact ⟨c, ((reaches_beginLine s).trans (reaches_applyLeave d _ _ _)).trans h, h'⟩

theorem reaches_step (d : Dialect) (s : Scan) : Reaches s.cursor (s.step d).cursor := by
  obtain ⟨c, h, h'⟩ := step_moves d s
  exact h.advance.trans h'

/-- A step leaves the end of the window where it is. -/
theorem stop_step (d : Dialect) (s : Scan) :
    (s.step d).cursor.window.stop = s.cursor.window.stop := (reaches_step d s).stop_eq

/-- **Each step within the window moves the cursor on.** -/
theorem pos_lt_step (d : Dialect) {s : Scan} (inside : s.cursor.pos < s.cursor.window.stop) :
    s.cursor.pos < (s.step d).cursor.pos := by
  obtain ⟨c, h, h'⟩ := step_moves d s
  exact h.pos_lt h' inside

end Progress

/-! ## The run -/

/-- Takes steps to the end of the window. -/
def run (d : Dialect) (s : Scan) : Scan :=
  if _ : s.cursor.pos < s.cursor.window.stop then run d (s.step d) else s
termination_by s.cursor.window.stop - s.cursor.pos
decreasing_by
  have moved := pos_lt_step d ‹_›
  rw [stop_step]
  omega

/-- Ends a word that is open at the end of the window, unless it goes on behind
    the window. -/
def closeWord (d : Dialect) (s : Scan) : Scan :=
  match s.leaving d with
  | .endWord => s.applyLeave d s.style .endWord
  | .closeDocKeyword => s.applyLeave d s.style .closeDocKeyword
  | _ => s

/-- Commits the open run. -/
def finish (s : Scan) : Scan := { s with cursor := s.cursor.finish }

end Scan

end StyledText.CFamily
