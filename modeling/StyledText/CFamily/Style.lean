/-
  The styles of the lexer for C-like languages.

  * `Style.code` is the style byte of a style, and `Style.ofCode` reads a byte
    back, with an unknown one taken for plain text;
  * `ofCode_code` says that no style is lost in its byte.
-/

namespace StyledText.CFamily

/-- What a stretch of text is. -/
inductive Style where
  /-- Nothing in particular: white space and what belongs to no other style. -/
  | plain
  /-- A comment between `/*` and `*/`. -/
  | blockComment
  /-- A comment from `//` to the end of the line. -/
  | lineComment
  /-- A block comment that documents. -/
  | docComment
  /-- A number. -/
  | number
  /-- A word of the first word list. -/
  | keyword
  /-- A string literal. -/
  | string
  /-- A character literal. -/
  | character
  /-- A universally unique identifier after the word `uuid`. -/
  | uuid
  /-- A line for the preprocessor. -/
  | directive
  /-- An operator or punctuation. -/
  | operator
  /-- A word of no list. -/
  | identifier
  /-- A literal whose line ends before it is closed. -/
  | unclosed
  /-- A string literal after `@`, without escapes. -/
  | verbatim
  /-- A regular expression between slashes. -/
  | regex
  /-- A line comment that documents. -/
  | docLineComment
  /-- A word of the second word list. -/
  | keyword2
  /-- A known keyword of a documenting comment. -/
  | docKeyword
  /-- An unknown keyword of a documenting comment. -/
  | docKeywordError
  /-- A word of the list of classes and type names. -/
  | globalClass
deriving DecidableEq, Repr, Inhabited

namespace Style

/-- Every style, in the order of their bytes. -/
def all : List Style :=
  [plain, blockComment, lineComment, docComment, number, keyword, string, character, uuid,
    directive, operator, identifier, unclosed, verbatim, regex, docLineComment, keyword2,
    docKeyword, docKeywordError, globalClass]

/-- The style byte of a style. -/
def code : Style → UInt8
  | plain => 0
  | blockComment => 1
  | lineComment => 2
  | docComment => 3
  | number => 4
  | keyword => 5
  | string => 6
  | character => 7
  | uuid => 8
  | directive => 9
  | operator => 10
  | identifier => 11
  | unclosed => 12
  | verbatim => 13
  | regex => 14
  | docLineComment => 15
  | keyword2 => 16
  | docKeyword => 17
  | docKeywordError => 18
  | globalClass => 19

/-- The style of a byte; plain text for a byte that stands for no style. -/
def ofCode (code : UInt8) : Style := all.getD code.toNat plain

/-- The name of a style. -/
def name : Style → String
  | plain => "default"
  | blockComment => "comment"
  | lineComment => "comment_line"
  | docComment => "comment_doc"
  | number => "number"
  | keyword => "word"
  | string => "string"
  | character => "character"
  | uuid => "uuid"
  | directive => "preprocessor"
  | operator => "operator"
  | identifier => "identifier"
  | unclosed => "string_eol"
  | verbatim => "verbatim"
  | regex => "regex"
  | docLineComment => "comment_line_doc"
  | keyword2 => "word2"
  | docKeyword => "comment_doc_keyword"
  | docKeywordError => "comment_doc_keyword_error"
  | globalClass => "global_class"

/-- The styles of comments, whose text does not count as text of its line. -/
def isComment : Style → Bool
  | blockComment | lineComment | docComment | docLineComment | docKeyword | docKeywordError => true
  | _ => false

/-- **A style is read back from its byte.** -/
@[simp] theorem ofCode_code (s : Style) : ofCode s.code = s := by cases s <;> rfl

theorem code_inj {s t : Style} : s.code = t.code ↔ s = t :=
  ⟨fun h => by rw [← ofCode_code s, h, ofCode_code], fun h => h ▸ rfl⟩

end Style

end StyledText.CFamily
