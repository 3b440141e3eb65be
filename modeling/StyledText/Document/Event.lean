/-
  What the watchers of a document are told.

  * an `Event` is a change of the text, or a change between saved and unsaved;
  * a `Notice` is an event told to one watcher.
-/

namespace StyledText

/-- How a text changes. -/
inductive ChangeKind where
  /-- Characters were put in. -/
  | insert
  /-- Characters were taken out. -/
  | delete
  /-- The whole text was replaced. -/
  | reload
deriving DecidableEq, Repr

/-- A change of the text of a document. -/
structure Modification where
  /-- How the text changed. -/
  kind : ChangeKind
  /-- Whether an edit was taken back or made again. -/
  fromHistory : Bool
  /-- Where the text changed. -/
  position : Nat
  /-- The number of characters put in or taken out. -/
  length : Nat
  /-- The number of lines gained; below zero for lines lost. -/
  linesAdded : Int
deriving DecidableEq, Repr

/-- What a watcher is told. -/
inductive Event where
  /-- The text has changed. -/
  | modified (change : Modification)
  /-- The text has become as it was saved, or is so no longer. -/
  | savePoint (reached : Bool)
deriving DecidableEq, Repr

/-- An event told to one watcher. -/
structure Notice where
  /-- The number of the watcher. -/
  watcher : Nat
  /-- What it is told. -/
  event : Event
deriving DecidableEq, Repr

end StyledText
