/-
  Styled text with its line table and its log of edits.

  A buffer holds a text, one style byte for each character while styles are
  kept, the table of its line starts, and the log through which edits are taken
  back.  Queries are total: a position past the end has the character `nul` and
  the style `0`.

  * this module has the data, the queries and the writing of styles;
  * `StyledText.Buffer.Editing` has the edits and their undoing.
-/
import StyledText.CharKind
import StyledText.EditLog
import StyledText.LineTable

namespace StyledText

/-- Styled text that can be edited. -/
structure Buffer where
  /-- The characters. -/
  text : Text
  /-- The style of each character, while styles are kept. -/
  styles : Option (Array UInt8)
  /-- The line starts of the text. -/
  lines : LineTable
  /-- The edits made and taken back. -/
  log : EditLog
  /-- Whether edits are refused. -/
  readOnly : Bool
deriving DecidableEq

namespace Buffer

/-- The buffer without text, which keeps styles and records edits. -/
def empty : Buffer := ⟨.empty, some #[], .single, .fresh, false⟩

/-! ## Characters and styles -/

/-- The number of characters. -/
def length (b : Buffer) : Nat := b.text.length

/-- The character at `p`, or `nul` past the end. -/
def charAt (b : Buffer) (p : Nat) : Char := b.text.charAt p

/-- The style at `p`, or `0` past the end and while no styles are kept. -/
def styleAt (b : Buffer) (p : Nat) : UInt8 := (b.styles.bind (·[p]?)).getD 0

/-- The text of up to `n` characters from `p` on. -/
def range (b : Buffer) (p n : Nat) : Text := b.text.extract p (p + n)

/-- The styles of up to `n` characters from `p` on. -/
def styleRange (b : Buffer) (p n : Nat) : Array UInt8 :=
  match b.styles with
  | some styles => styles.extract p (p + n)
  | none => Array.replicate (min n (b.length - p)) 0

/-- The characters with their styles. -/
def cells (b : Buffer) : List (Char × UInt8) :=
  b.text.toList.zip (b.styleRange 0 b.length).toList

/-! ## Lines -/

/-- The number of lines, at least one. -/
def lineCount (b : Buffer) : Nat := b.lines.count

/-- Where `line` starts; the end of the text for a line past the last. -/
def lineStart (b : Buffer) (line : Nat) : Nat := (b.lines.start? line).getD b.length

/-- The position before the line end that closes `[start, stop)`: one less
    than `stop` after a line feed or a carriage return, two less after both
    together, and never before `start`. -/
def beforeLineEnd (b : Buffer) (start stop : Nat) : Nat :=
  if start < stop ∧ isLineBreak (b.charAt (stop - 1)) then
    if start < stop - 1 ∧ b.charAt (stop - 1) = '\n' ∧ b.charAt (stop - 2) = '\r' then stop - 2
    else stop - 1
  else stop

/-- Where `line` ends, before the characters that end it. -/
def lineEnd (b : Buffer) (line : Nat) : Nat :=
  match b.lines.start? (line + 1) with
  | some next => b.beforeLineEnd (b.lineStart line) next
  | none => b.length

/-- The line that holds `p`; the last line for a position past the end. -/
def lineOf (b : Buffer) (p : Nat) : Nat := b.lines.lineAt (min p b.length)

/-- The number of characters of `line`, without those that end it. -/
def lineLength (b : Buffer) (line : Nat) : Nat := b.lineEnd line - b.lineStart line

/-- The text of `line`, without the characters that end it. -/
def lineText (b : Buffer) (line : Nat) : Text := b.range (b.lineStart line) (b.lineLength line)

/-! ## Writing styles -/

/-- Keeps styles from now on, all of them `0` at first, or drops them.  Nothing
    changes when styles are kept, or not kept, already. -/
def keepStyles (b : Buffer) (keep : Bool) : Buffer :=
  match keep, b.styles with
  | true, none => { b with styles := some (Array.replicate b.length 0) }
  | false, some _ => { b with styles := none }
  | _, _ => b

/-- The buffer with another style at `p`, or `none` if that changes nothing. -/
def setStyleAt? (b : Buffer) (p : Nat) (style : UInt8) : Option Buffer := do
  let styles ← b.styles
  let old ← styles[p]?
  if old = style then none else some { b with styles := some (styles.setIfInBounds p style) }

/-- The buffer with the styles of `values` from `p` on, those past the end left
    out, or `none` if that changes nothing. -/
def setStyles? (b : Buffer) (p : Nat) (values : Array UInt8) : Option Buffer := do
  let styles ← b.styles
  let stop := min (p + values.size) styles.size
  let fresh := values.extract 0 (stop - p)
  if styles.size ≤ p ∨ styles.extract p stop = fresh then none
  else some { b with
    styles := some (styles.extract 0 p ++ fresh ++ styles.extract stop styles.size) }

/-- The buffer with the styles of `values` from `p` on. -/
def setStyles (b : Buffer) (p : Nat) (values : Array UInt8) : Buffer :=
  (b.setStyles? p values).getD b

/-! ## Switches and the saved state -/

/-- Refuses edits from now on, or takes them again. -/
def setReadOnly (b : Buffer) (readOnly : Bool) : Buffer := { b with readOnly }

/-- Records edits from now on, or no longer. -/
def setRecording (b : Buffer) (recording : Bool) : Buffer :=
  { b with log := { b.log with recording } }

/-- The text is saved as it is now. -/
def save (b : Buffer) : Buffer := { b with log := b.log.save }

/-- Forgets all edits made and taken back. -/
def clearLog (b : Buffer) : Buffer := { b with log := b.log.clear }

/-- Whether the text is as it was saved. -/
def isSaved (b : Buffer) : Bool := b.log.isSaved

end Buffer

end StyledText
