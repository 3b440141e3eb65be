/-
  A cursor that walks a window character by character.

  The cursor keeps the character at hand and its two neighbours, and knows
  whether it is at the start or at the end of a line.  It is in a state, which
  is a style byte, and everything from the boundary of the window on is an open
  run in that state.  Styles are committed when the state changes, not
  character by character.

  * `advance` moves the cursor, and at the end of the window it stays;
  * `switchTo` closes the open run before the cursor, and `recolour` changes
    the style of the whole open run;
  * `Surroundings` is what a transition may look at;
  * `stop_advance`, `pos_advance` and their like say what the moves do to the
    window's end and to the position.
-/
import StyledText.Window

namespace StyledText

/-- The characters around a cursor, and whether it is at either end of a
    line. -/
structure Surroundings where
  prev : Char
  ch : Char
  next : Char
  next2 : Char
  next3 : Char
  atLineStart : Bool
  atLineEnd : Bool
deriving DecidableEq

/-- A place in a window, with an open run before it. -/
structure Cursor where
  /-- The window that is walked. -/
  window : Window
  /-- The position of the cursor. -/
  pos : Nat
  /-- The style of the open run. -/
  state : UInt8
  /-- The character before the cursor. -/
  prev : Char
  /-- The character at the cursor. -/
  ch : Char
  /-- The character after the cursor. -/
  next : Char
  /-- Whether a line starts at the cursor. -/
  atLineStart : Bool
  /-- Whether the cursor is on the last character of a line. -/
  atLineEnd : Bool

namespace Cursor

/-- Whether a line ends with the character `ch` at `pos`, or the window before
    it. -/
def endsLine (ch next : Char) (pos stop : Nat) : Bool :=
  (ch == '\r' && next != '\n') || ch == '\n' || stop ≤ pos

/-- The cursor at the start of `w`, in the state `initial`. -/
def ofWindow (w : Window) (initial : UInt8) : Cursor :=
  let ch := w.charOrSpace w.start
  let next := w.charOrSpace (w.start + 1)
  { window := w
    pos := w.start
    state := initial
    prev := if w.start = 0 then ' ' else w.charAt (w.start - 1)
    ch
    next
    atLineStart := w.source.lineStart (w.source.lineOf w.start) == w.start
    atLineEnd := endsLine ch next w.start w.stop }

/-! ## Reading -/

/-- Whether the cursor is still in the window. -/
def more (c : Cursor) : Bool := c.pos < c.window.stop

/-- The character `n` places after the cursor, or a space past the end of the
    text. -/
def peek (c : Cursor) (n : Nat) : Char := c.window.charOrSpace (c.pos + n)

/-- Whether the text at the cursor begins with `cs`. -/
def lookingAt (c : Cursor) (cs : List Char) : Bool :=
  cs.zipIdx.all fun (expected, n) => c.peek n == expected

/-- The text of the open run, which ends before the cursor. -/
def openRun (c : Cursor) : List Char := c.window.textRange c.window.boundary c.pos

/-- What a transition may look at. -/
def surroundings (c : Cursor) : Surroundings :=
  ⟨c.prev, c.ch, c.next, c.peek 2, c.peek 3, c.atLineStart, c.atLineEnd⟩

/-! ## Moving and switching -/

/-- Moves to the next character.  At the end of the window the cursor stays,
    and the characters become spaces. -/
def advance (c : Cursor) : Cursor :=
  if c.more then
    let next := c.window.charOrSpace (c.pos + 2)
    { c with
      pos := c.pos + 1
      prev := c.ch
      ch := c.next
      next
      atLineStart := c.atLineEnd
      atLineEnd := endsLine c.next next (c.pos + 1) c.window.stop }
  else { c with prev := ' ', ch := ' ', next := ' ', atLineStart := false, atLineEnd := true }

/-- Closes the open run before the cursor and opens one in `state`. -/
def switchTo (c : Cursor) (state : UInt8) : Cursor :=
  { c with window := c.window.commitBefore c.pos c.state, state }

/-- Closes the open run after the character at the cursor and opens one in
    `state`. -/
def switchAfter (c : Cursor) (state : UInt8) : Cursor := c.advance.switchTo state

/-- Changes the style of the open run. -/
def recolour (c : Cursor) (state : UInt8) : Cursor := { c with state }

/-- Closes the open run before the cursor for good. -/
def finish (c : Cursor) : Cursor := { c with window := c.window.commitBefore c.pos c.state }

/-! ## Positions -/

@[simp] theorem window_advance (c : Cursor) : c.advance.window = c.window := by
  unfold advance
  split <;> rfl

@[simp] theorem state_advance (c : Cursor) : c.advance.state = c.state := by
  unfold advance
  split <;> rfl

theorem stop_advance (c : Cursor) : c.advance.window.stop = c.window.stop := by
  rw [window_advance]

@[simp] theorem stop_switchTo (c : Cursor) (state : UInt8) :
    (c.switchTo state).window.stop = c.window.stop := rfl

@[simp] theorem stop_recolour (c : Cursor) (state : UInt8) :
    (c.recolour state).window.stop = c.window.stop := rfl

@[simp] theorem pos_switchTo (c : Cursor) (state : UInt8) : (c.switchTo state).pos = c.pos := rfl

@[simp] theorem pos_recolour (c : Cursor) (state : UInt8) : (c.recolour state).pos = c.pos := rfl

/-- **The cursor moves by one within the window and stays at its end.** -/
theorem pos_advance (c : Cursor) :
    c.advance.pos = if c.pos < c.window.stop then c.pos + 1 else c.pos := by
  by_cases h : c.pos < c.window.stop <;> simp [advance, more, h]

theorem pos_le_advance (c : Cursor) : c.pos ≤ c.advance.pos := by
  rw [pos_advance]
  split <;> omega

/-! ## Walking over a run of characters -/

/-- Moves over the characters at the cursor for which `p` holds, to the end of
    the window at most. -/
def skipWhile (p : Char → Bool) (c : Cursor) : Cursor :=
  if _ : c.pos < c.window.stop then
    if p c.ch then skipWhile p c.advance else c
  else c
termination_by c.window.stop - c.pos
decreasing_by
  rw [stop_advance, pos_advance, if_pos ‹_›]
  omega

end Cursor

end StyledText
