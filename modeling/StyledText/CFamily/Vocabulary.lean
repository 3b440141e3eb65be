/-
  The word lists of the lexer for C-like languages.

  * `Vocabulary` has one set of words for each `WordRole`;
  * `replace?` replaces one of them by its number, and `classify?` tells in
    which style a word of the code is shown.
-/
import StyledText.CFamily.Style
import StyledText.ConfigError
import StyledText.WordSet

namespace StyledText.CFamily

/-- What the words of a list are. -/
inductive WordRole where
  /-- The words of the language. -/
  | primary
  /-- Further words, shown in a style of their own. -/
  | secondary
  /-- Keywords of documenting comments, without the mark before them. -/
  | doc
  /-- Names of classes and types. -/
  | globalClasses
deriving DecidableEq, Repr

namespace WordRole

/-- Every role, in the order of their numbers. -/
def all : List WordRole := [primary, secondary, doc, globalClasses]

/-- The role with a number. -/
def ofIndex? (index : Nat) : Option WordRole := all[index]?

/-- What a list is called. -/
def description : WordRole → String
  | primary => "Primary keywords and identifiers"
  | secondary => "Secondary keywords and identifiers"
  | doc => "Documentation comment keywords"
  | globalClasses => "Global classes and typedefs"

end WordRole

/-- The words that a lexer knows. -/
structure Vocabulary where
  /-- The words of the language. -/
  primary : WordSet
  /-- Further words. -/
  secondary : WordSet
  /-- Keywords of documenting comments. -/
  doc : WordSet
  /-- Names of classes and types. -/
  globalClasses : WordSet
deriving DecidableEq

namespace Vocabulary

/-- The vocabulary without words. -/
def empty (caseSensitive : Bool) : Vocabulary :=
  let none := WordSet.empty caseSensitive
  ⟨none, none, none, none⟩

/-- The words of a role. -/
def get (v : Vocabulary) : WordRole → WordSet
  | .primary => v.primary
  | .secondary => v.secondary
  | .doc => v.doc
  | .globalClasses => v.globalClasses

/-- The vocabulary with other words in a role. -/
def set (v : Vocabulary) (words : WordSet) : WordRole → Vocabulary
  | .primary => { v with primary := words }
  | .secondary => { v with secondary := words }
  | .doc => { v with doc := words }
  | .globalClasses => { v with globalClasses := words }

/-- The words of the list with a number. -/
def get? (v : Vocabulary) (index : Nat) : Option WordSet := (WordRole.ofIndex? index).map v.get

/-- The vocabulary with the words of `text` in the list with a number, or
    `none` if these are the words that it has.  There has to be such a list. -/
def replace? (v : Vocabulary) (index : Nat) (text : List Char) :
    Except ConfigError (Option Vocabulary) :=
  match WordRole.ofIndex? index with
  | none => .error (.noSuchWordList index (WordRole.all.length - 1))
  | some role => .ok (((v.get role).replace? text).map (v.set · role))

/-- The vocabulary with the words of `text` in the list with a number.  A
    number without a list changes nothing. -/
def replace (v : Vocabulary) (index : Nat) (text : List Char) : Vocabulary :=
  match v.replace? index text with
  | .ok (some fresh) => fresh
  | _ => v

/-- The style in which a word of the code is shown, unless it is of no list. -/
def classify? (v : Vocabulary) (word : List Char) : Option Style :=
  if v.primary.contains word then some .keyword
  else if v.secondary.contains word then some .keyword2
  else if v.globalClasses.contains word then some .globalClass
  else none

end Vocabulary

end StyledText.CFamily
