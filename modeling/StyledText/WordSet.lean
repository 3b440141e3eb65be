/-
  Sets of words, with or without regard to letter case.

  A set is written as its words with white space between them, and is replaced
  as a whole.  Without regard to case, words are kept in lower case, and a word
  looked up is put into lower case first.

  * `replace?` reads a set, and `contains` looks a word up;
  * `mem_replace` says which words a set holds after it has been replaced.
-/
import StyledText.Unicode.LetterCase
import StyledText.Unicode.WhiteSpace

namespace StyledText

/-- A set of words. -/
structure WordSet where
  /-- The words, each once. -/
  words : List (List Char)
  /-- Whether words that differ in letter case are different words. -/
  caseSensitive : Bool
deriving DecidableEq

namespace WordSet

/-- The set without words. -/
def empty (caseSensitive : Bool) : WordSet := ⟨[], caseSensitive⟩

/-- The form in which the set keeps a word. -/
def fold (s : WordSet) (word : List Char) : List Char :=
  if s.caseSensitive then word else Unicode.lowercase word

/-- Whether `word` is in the set. -/
def contains (s : WordSet) (word : List Char) : Bool := s.words.contains (s.fold word)

/-- The number of words. -/
def size (s : WordSet) : Nat := s.words.length

/-- The words of `text` as the set keeps them, each once. -/
def read (s : WordSet) (text : List Char) : List (List Char) :=
  ((Unicode.words text).map s.fold).eraseDups

/-- The set with the words of `text` in place of its own. -/
def replace (s : WordSet) (text : List Char) : WordSet := { s with words := s.read text }

/-- Whether two lists hold the same words. -/
def sameWords (v w : List (List Char)) : Bool := v.all w.contains && w.all v.contains

/-- The set with the words of `text` in place of its own, or `none` if these
    are the words that it has. -/
def replace? (s : WordSet) (text : List Char) : Option WordSet :=
  if sameWords (s.read text) s.words then none else some (s.replace text)

/-- The set of the words of `text`. -/
def ofText (text : List Char) (caseSensitive : Bool) : WordSet :=
  (empty caseSensitive).replace text

/-- **A set holds exactly the words that it has been given last.** -/
theorem mem_replace {s : WordSet} {text word : List Char} :
    word ∈ (s.replace text).words ↔ ∃ w ∈ Unicode.words text, s.fold w = word := by
  simp [replace, read]

end WordSet

end StyledText
