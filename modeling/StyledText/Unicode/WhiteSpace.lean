/-
  White space, and the two ways in which text is taken apart by it.

  * `isWhiteSpace` is the property White_Space;
  * `words` are the longest runs of other characters;
  * `trim` drops the white space at both ends.
-/
import StyledText.Unicode.Ranges

namespace StyledText.Unicode

/-- Characters with the property White_Space. -/
def whiteSpace : List (Nat × Nat) := [
  (0x9, 0xD), (0x20, 0x20), (0x85, 0x85), (0xA0, 0xA0), (0x1680, 0x1680), (0x2000, 0x200A),
  (0x2028, 0x2029), (0x202F, 0x202F), (0x205F, 0x205F), (0x3000, 0x3000)]

/-- Whether `c` is white space. -/
def isWhiteSpace (c : Char) : Bool := inRanges whiteSpace c

/-- Without the white space at both ends. -/
def trim (cs : List Char) : List Char :=
  ((cs.dropWhile isWhiteSpace).reverse.dropWhile isWhiteSpace).reverse

/-- The words of `cs` when `word` holds, last character first, the part of a
    word that has been read already. -/
def wordsFrom (word : List Char) : List Char → List (List Char)
  | [] => if word.isEmpty then [] else [word.reverse]
  | c :: cs =>
    if isWhiteSpace c then
      if word.isEmpty then wordsFrom [] cs else word.reverse :: wordsFrom [] cs
    else wordsFrom (c :: word) cs

/-- The longest runs of characters that are not white space, in order. -/
def words (cs : List Char) : List (List Char) := wordsFrom [] cs

end StyledText.Unicode
