/-
  Edits of a buffer, and their undoing.

  Inserting and deleting change the text, the styles and the line table
  together and go into the log.  An edit that does not apply answers `none`,
  and the buffer stays as it is.

  * `insert?` and `delete?` are the edits, and `load` replaces the whole text;
  * `undo?` and `redo?` take the newest edit back and make it again; both give
    the edit along with the buffer;
  * `place` and `cut` are the two changes of text that all of these come
    down to.
-/
import StyledText.Buffer

namespace StyledText.Buffer

/-! ## Changes of text -/

/-- The styles for `n` characters put in: those that they had before, if known
    for each of them, or `0` throughout. -/
def stylesFor (n : Nat) (known : Option (Array UInt8)) : Array UInt8 :=
  match known.filter (·.size = n) with
  | some styles => styles
  | none => Array.replicate n 0

/-- Puts `data` in at `p`, with the styles `known` if they fit. -/
def place (b : Buffer) (p : Nat) (data : Text) (known : Option (Array UInt8)) : Buffer :=
  let text := b.text.insert p data
  { b with
    text
    styles := b.styles.map fun styles =>
      styles.extract 0 p ++ stylesFor data.length known ++ styles.extract p styles.size
    lines := b.lines.afterInsert text p data.length }

/-- Takes `n` characters out at `p`. -/
def cut (b : Buffer) (p n : Nat) : Buffer :=
  let text := b.text.remove p (p + n)
  { b with
    text
    styles := b.styles.map fun styles =>
      styles.extract 0 p ++ styles.extract (p + n) styles.size
    lines := b.lines.afterRemove text p n }

/-! ## Edits -/

/-- Replaces the whole text.  All styles become `0`, the edits are forgotten,
    and the text counts as saved.  A read-only buffer stays as it is. -/
def load (b : Buffer) (text : Text) : Buffer :=
  if b.readOnly then b
  else
    { b with
      text
      styles := b.styles.map fun _ => Array.replicate text.length 0
      lines := .ofText text
      log := b.log.clear.save }

/-- The buffer that holds `text`. -/
def ofText (text : Text) : Buffer := empty.load text

/-- Puts `data` in at `p`, in style `0`.  Refused when the buffer is read-only,
    when `data` is empty, and past the end. -/
def insert? (b : Buffer) (p : Nat) (data : Text) : Option Buffer :=
  if b.readOnly ∨ data.isEmpty ∨ b.length < p then none
  else some ({ b with log := b.log.record (.insert p data) }.place p data none)

/-- Takes `n` characters out at `p`.  Refused when the buffer is read-only,
    when `n` is zero, and when the text ends before `p + n`. -/
def delete? (b : Buffer) (p n : Nat) : Option Buffer :=
  if b.readOnly ∨ n = 0 ∨ b.length < p + n then none
  else
    let gone := Edit.delete p (b.range p n) (b.styles.map (·.extract p (p + n)))
    some ({ b with log := b.log.record gone }.cut p n)

/-- Notes a mark of the application's own among the edits. -/
def addMark (b : Buffer) (token : Nat) : Buffer := { b with log := b.log.record (.mark token) }

/-! ## Taking edits back -/

/-- The text before `e`.  Deleted text comes back with its styles. -/
def revert (b : Buffer) : Edit → Buffer
  | .insert p data => b.cut p data.length
  | .delete p data styles => b.place p data styles
  | .mark _ => b

/-- The text after `e`.  Text put in again has style `0`. -/
def reapply (b : Buffer) : Edit → Buffer
  | .insert p data => b.place p data none
  | .delete p data _ => b.cut p data.length
  | .mark _ => b

/-- Takes the newest edit back. -/
def undo? (b : Buffer) : Option (Edit × Buffer) :=
  if b.readOnly then none
  else b.log.undo?.map fun (e, log) => (e, { b.revert e with log })

/-- Makes the edit taken back last again. -/
def redo? (b : Buffer) : Option (Edit × Buffer) :=
  if b.readOnly then none
  else b.log.redo?.map fun (e, log) => (e, { b.reapply e with log })

/-- Whether there is an edit to take back and the buffer takes edits. -/
def canUndo (b : Buffer) : Bool := !b.readOnly && !b.log.done.isEmpty

/-- Whether there is an edit to make again and the buffer takes edits. -/
def canRedo (b : Buffer) : Bool := !b.readOnly && !b.log.undone.isEmpty

end StyledText.Buffer
