/-
  Kinds of characters, as lexers for programming languages tell them apart.

  Only ASCII characters are told apart.  Every other character counts as part
  of a word, so that a name in any script is one word.

  * `isSpace`, `isBlank`, `isDigit`, `isWordChar`, `isWordStart`, `isOperator`
    and `isLineBreak` are the single tests;
  * `CharKind` names the kinds, and `CharKind.of c` lists those of `c`.
-/

namespace StyledText

/-! ## Tests -/

/-- The ASCII characters. -/
def isAscii (c : Char) : Bool := c.toNat < 0x80

/-- The space and the ASCII controls that move to another place: tab, line
    feed, vertical tab, form feed and carriage return. -/
def isSpace (c : Char) : Bool := c == ' ' || ('\t' ≤ c && c ≤ '\r')

/-- The characters that leave room within a line. -/
def isBlank (c : Char) : Bool := c == ' ' || c == '\t'

/-- The characters that end a line. -/
def isLineBreak (c : Char) : Bool := c == '\n' || c == '\r'

theorem isLineBreak_iff {c : Char} : isLineBreak c = true ↔ c = '\n' ∨ c = '\r' := by
  simp [isLineBreak]

theorem isLineBreak_eq_false {c : Char} : isLineBreak c = false ↔ c ≠ '\n' ∧ c ≠ '\r' := by
  simp [isLineBreak]

/-- The decimal digits of ASCII. -/
def isDigit (c : Char) : Bool := '0' ≤ c && c ≤ '9'

/-- The small letters of ASCII. -/
def isSmallLetter (c : Char) : Bool := 'a' ≤ c && c ≤ 'z'

/-- The letters of ASCII. -/
def isLetter (c : Char) : Bool := isSmallLetter c || ('A' ≤ c && c ≤ 'Z')

/-- The characters that a word can begin with. -/
def isWordStart (c : Char) : Bool := isLetter c || c == '_' || !isAscii c

/-- The characters that a word can hold. -/
def isWordChar (c : Char) : Bool := isWordStart c || isDigit c

/-- The operators and the punctuation of C. -/
def isOperator (c : Char) : Bool :=
  c ∈ ['%', '^', '&', '*', '(', ')', '-', '+', '=', '|', '\x7b', '\x7d', '[', ']', ':', ';',
    '<', '>', ',', '/', '?', '!', '.', '~']

/-! ## Kinds -/

/-- The kinds of characters.  A character can be of several kinds. -/
inductive CharKind where
  /-- White space of ASCII. -/
  | space
  /-- A decimal digit. -/
  | digit
  /-- Part of a word. -/
  | word
  /-- Able to begin a word. -/
  | wordStart
  /-- An operator or punctuation. -/
  | operator
  /-- Ending a line. -/
  | lineEnd
deriving DecidableEq, Repr

namespace CharKind

/-- Every kind. -/
def all : List CharKind := [space, digit, word, wordStart, operator, lineEnd]

/-- The test that tells whether a character is of a kind. -/
def holds : CharKind → Char → Bool
  | space => isSpace
  | digit => isDigit
  | word => isWordChar
  | wordStart => isWordStart
  | operator => isOperator
  | lineEnd => isLineBreak

/-- The kinds of `c`. -/
def of (c : Char) : List CharKind := all.filter (holds · c)

/-- The weight of a kind in a sum that stands for a set of kinds. -/
def weight : CharKind → Nat
  | space => 1
  | digit => 2
  | word => 4
  | wordStart => 8
  | operator => 16
  | lineEnd => 32

/-- The kinds whose weights make up `n`; a part of `n` that is the weight of no
    kind counts for nothing. -/
def ofWeights (n : Nat) : List CharKind := all.filter fun kind => n &&& kind.weight != 0

/-- The sum that stands for a set of kinds. -/
def weights (kinds : List CharKind) : Nat :=
  kinds.foldr (fun kind total => kind.weight + total) 0

theorem mem_all (kind : CharKind) : kind ∈ all := by cases kind <;> decide

theorem mem_of {kind : CharKind} {c : Char} : kind ∈ of c ↔ kind.holds c = true := by
  simp [of, mem_all]

end CharKind

end StyledText
