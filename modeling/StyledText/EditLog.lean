/-
  Edits as values, and the log of them.

  An edit keeps what is needed to take it back and to make it again.  The log
  holds the edits made, newest first, and the edits taken back, next one to be
  made again first.  It remembers at which depth the text was saved for as long
  as that depth still stands for the saved text.

  * `record` adds an edit and forgets the edits taken back;
  * `isSaved` tells whether the text is as it was saved.
-/
import StyledText.Text

namespace StyledText

/-- One step that can be taken back. -/
inductive Edit where
  /-- `data` was put in at `pos`. -/
  | insert (pos : Nat) (data : Text)
  /-- `data` was taken out at `pos`; `styles` are the styles it had, if styles
      were kept. -/
  | delete (pos : Nat) (data : Text) (styles : Option (Array UInt8))
  /-- A mark of the application's own, which changes no text. -/
  | mark (token : Nat)
deriving DecidableEq

namespace Edit

/-- Where the edit was made; for a mark, its token. -/
def position : Edit → Nat
  | insert pos _ => pos
  | delete pos _ _ => pos
  | mark token => token

/-- The text put in or taken out. -/
def data : Edit → Text
  | insert _ data => data
  | delete _ data _ => data
  | mark _ => .empty

/-- The number of characters put in or taken out. -/
def length (e : Edit) : Nat := e.data.length

/-- The styles that the edit keeps. -/
def styles : Edit → Option (Array UInt8)
  | delete _ _ styles => styles
  | insert _ _ => none
  | mark _ => none

/-- A mark changes no text. -/
def isMark : Edit → Bool
  | mark _ => true
  | insert _ _ => false
  | delete _ _ _ => false

end Edit

/-- The edits made to a text and those taken back. -/
structure EditLog where
  /-- The edits made, newest first. -/
  done : List Edit
  /-- The edits taken back, the latest first. -/
  undone : List Edit
  /-- Whether edits are being recorded. -/
  recording : Bool
  /-- The number of edits made when the text was saved, unless the saved text
      is out of reach. -/
  savedDepth : Option Nat
deriving DecidableEq

namespace EditLog

/-- The log of a text that is as it was saved. -/
def fresh : EditLog := ⟨[], [], true, some 0⟩

/-- The number of edits that can be taken back. -/
def depth (log : EditLog) : Nat := log.done.length

/-- Whether the text is as it was saved. -/
def isSaved (log : EditLog) : Bool := log.savedDepth == some log.depth

/-- Adds an edit just made and forgets the edits taken back, and with them a
    saved text that only they led to.

    While nothing is recorded, a change of the text makes all positions in the
    log void, so both lists and the saved depth go; a mark changes no text and
    is passed over. -/
def record (log : EditLog) (e : Edit) : EditLog :=
  if log.recording then
    { log with
      done := e :: log.done
      undone := []
      savedDepth := log.savedDepth.filter (· ≤ log.depth) }
  else if e.isMark then log
  else { log with done := [], undone := [], savedDepth := none }

/-- The newest edit made, and the log without it. -/
def popDone? (log : EditLog) : Option (Edit × EditLog) :=
  match log.done with
  | [] => none
  | e :: rest => some (e, { log with done := rest })

/-- The edit to be made again next, and the log without it. -/
def popUndone? (log : EditLog) : Option (Edit × EditLog) :=
  match log.undone with
  | [] => none
  | e :: rest => some (e, { log with undone := rest })

/-- The log with `e` as the newest edit made. -/
def pushDone (log : EditLog) (e : Edit) : EditLog := { log with done := e :: log.done }

/-- The log with `e` as the edit to be made again next. -/
def pushUndone (log : EditLog) (e : Edit) : EditLog := { log with undone := e :: log.undone }

/-- Moves the newest edit to those taken back. -/
def undo? (log : EditLog) : Option (Edit × EditLog) :=
  log.popDone?.map fun (e, rest) => (e, rest.pushUndone e)

/-- Moves the edit taken back last to those made. -/
def redo? (log : EditLog) : Option (Edit × EditLog) :=
  log.popUndone?.map fun (e, rest) => (e, rest.pushDone e)

/-- The text is saved as it is now. -/
def save (log : EditLog) : EditLog := { log with savedDepth := some log.depth }

/-- Forgets all edits.  The text counts as saved afterwards if it did before. -/
def clear (log : EditLog) : EditLog :=
  { log with done := [], undone := [], savedDepth := if log.isSaved then some 0 else none }

end EditLog

end StyledText
