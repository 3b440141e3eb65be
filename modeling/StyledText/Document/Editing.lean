/-
  Edits of a document.

  Each edit of the buffer makes the styles from its place on unknown and is told
  to the watchers: first the change of the text, then, if it is one, the change
  between saved and unsaved.  An edit that does not apply is told to nobody.

  * `load`, `insert?`, `delete?`, `undo?` and `redo?` are the edits;
  * `save` tells only of the change between saved and unsaved.
-/
import StyledText.Document

namespace StyledText.Document

/-- Tells whether the text is as it was saved, if it was otherwise before. -/
def tellSaved (d : Document) (before : Bool) : Document :=
  if d.buffer.isSaved = before then d else d.tell (.savePoint d.buffer.isSaved)

/-- Puts an edited buffer in place and tells the watchers. -/
def adopt (d : Document) (buffer : Buffer) (kind : ChangeKind) (fromHistory : Bool)
    (position length : Nat) : Document :=
  let linesAdded : Int := (buffer.lineCount : Int) - (d.buffer.lineCount : Int)
  (({ d with buffer }).tell
    (.modified ⟨kind, fromHistory, position, length, linesAdded⟩)).tellSaved d.buffer.isSaved

/-- The styles from `p` on are unknown. -/
def forgetStylesFrom (d : Document) (p : Nat) : Document :=
  { d with endStyled := min d.endStyled p }

/-- Replaces the whole text, and nothing is styled any more.  Nothing happens
    when the document is read-only. -/
def load (d : Document) (text : Text) : Document :=
  if d.buffer.readOnly then d
  else
    { d with endStyled := 0, includes := [] }.adopt (d.buffer.load text) .reload false 0 text.length

/-- Puts `data` in at `p`. -/
def insert? (d : Document) (p : Nat) (data : Text) : Option Document :=
  (d.buffer.insert? p data).map fun buffer =>
    (d.forgetStylesFrom p).adopt buffer .insert false p data.length

/-- Takes `n` characters out at `p`. -/
def delete? (d : Document) (p n : Nat) : Option Document :=
  (d.buffer.delete? p n).map fun buffer =>
    (d.forgetStylesFrom p).adopt buffer .delete false p n

/-- Puts a buffer in place in which `e` has been taken back or made again; the
    text changed as `kind` says, or not at all. -/
def adoptReplay (d : Document) (buffer : Buffer) (e : Edit) (kind : Option ChangeKind) : Document :=
  match kind with
  | some kind => (d.forgetStylesFrom e.position).adopt buffer kind true e.position e.length
  | none => ({ d with buffer }).tellSaved d.buffer.isSaved

/-- How the text changes when an edit is made again. -/
def redoKind : Edit → Option ChangeKind
  | .insert _ _ => some .insert
  | .delete _ _ _ => some .delete
  | .mark _ => none

/-- How the text changes when an edit is taken back. -/
def undoKind : Edit → Option ChangeKind
  | .insert _ _ => some .delete
  | .delete _ _ _ => some .insert
  | .mark _ => none

/-- Takes the newest edit back. -/
def undo? (d : Document) : Option Document :=
  d.buffer.undo?.map fun (e, buffer) => d.adoptReplay buffer e (undoKind e)

/-- Makes the edit taken back last again. -/
def redo? (d : Document) : Option Document :=
  d.buffer.redo?.map fun (e, buffer) => d.adoptReplay buffer e (redoKind e)

/-- The text is saved as it is now. -/
def save (d : Document) : Document :=
  ({ d with buffer := d.buffer.save }).tellSaved d.buffer.isSaved

/-- Refuses edits from now on, or takes them again. -/
def setReadOnly (d : Document) (readOnly : Bool) : Document :=
  { d with buffer := d.buffer.setReadOnly readOnly }

/-- Records edits from now on, or no longer. -/
def setRecording (d : Document) (recording : Bool) : Document :=
  { d with buffer := d.buffer.setRecording recording }

/-- Forgets all edits made and taken back. -/
def clearLog (d : Document) : Document := { d with buffer := d.buffer.clearLog }

end StyledText.Document
