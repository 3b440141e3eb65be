/-
  The transitions of the lexer for C-like languages.

  At each character the lexer first asks how the style it is in ends, and then,
  in plain text, what begins.  Both answers depend only on the style, on the
  characters around the cursor, on the settings, and on what is remembered of
  the text before.

  * `Memory` is what is remembered;
  * `leave` is the answer to the first question, a `Leave`;
  * `enter?` is the answer to the second one, an `Enter`.
-/
import StyledText.CFamily.Settings
import StyledText.CFamily.Style
import StyledText.Cursor

namespace StyledText.CFamily

/-! ## What is remembered -/

/-- What a lexer remembers of the text that it has read. -/
structure Memory where
  /-- The line goes on from one that ends in a backslash. -/
  continued : Bool := false
  /-- The number of characters on the line that are neither white space nor in
      a comment. -/
  visible : Nat := 0
  /-- The last such character of the text. -/
  lastVisible : Char := ' '
  /-- The last keyword of the line was `uuid`. -/
  afterUuid : Bool := false
  /-- The line includes a file. -/
  inInclude : Bool := false
  /-- The open literal began within a directive. -/
  inDirective : Bool := false
  /-- The character that closes the open string. -/
  stringClose : Char := '"'
  /-- The style of the comment that a documentation keyword is in. -/
  docStyle : Style := .docComment
deriving DecidableEq

/-! ## How a style ends -/

/-- A literal, by what closes it. -/
inductive Literal where
  /-- A string closed by `close`. -/
  | string (close : Char)
  /-- A character literal. -/
  | character
deriving DecidableEq

/-- The style of a literal. -/
def Literal.style : Literal → Style
  | string _ => .string
  | character => .character

/-- How a style ends, or goes on, at a character. -/
inductive Leave where
  /-- The style goes on. -/
  | stay
  /-- The style ends before the character. -/
  | switch (next : Style)
  /-- The style ends after the character. -/
  | switchAfter (next : Style)
  /-- The style ends after the character and the one behind it. -/
  | switchAfterPair (next : Style)
  /-- The whole run turns out to be in another style. -/
  | recolour (next : Style)
  /-- The style goes on behind the next character, which has no meaning of its
      own. -/
  | skipNext
  /-- A word has ended and is to be looked up. -/
  | endWord
  /-- A keyword begins in a documenting comment. -/
  | openDocKeyword
  /-- A keyword has ended in a documenting comment and is to be looked up. -/
  | closeDocKeyword
  /-- The comment is closed right after a keyword. -/
  | breakDocKeyword
  /-- A literal begins within a directive. -/
  | openLiteral (literal : Literal)
  /-- The literal is closed. -/
  | closeLiteral
  /-- The regular expression is closed; letters that follow belong to it. -/
  | closeRegex
deriving DecidableEq

/-- Whether `c` can be part of a word. -/
def isIdentifierChar (settings : Settings) (c : Char) : Bool :=
  isWordChar c || (c == '$' && settings.allowDollars)

/-- Whether a documentation keyword begins: with `@` or a backslash, after white
    space or one of the marks `after` of the comment, and not before white
    space. -/
def beginsDocKeyword (here : Surroundings) (after : List Char) : Bool :=
  (here.ch == '@' || here.ch == '\\') && (isSpace here.prev || after.contains here.prev) &&
    !isSpace here.next

/-- Whether a block comment is closed by the character and the next one. -/
def closesComment (here : Surroundings) : Bool := here.ch == '*' && here.next == '/'

/-- How a directive ends: with its line, unless the line goes on, or with its
    word if the rest is styled as code; comments and literals stand in it. -/
def leaveDirective (here : Surroundings) (memory : Memory) (settings : Settings) : Leave :=
  if here.atLineStart && !memory.continued then .switch .plain
  else if settings.styleWithinDirectives then
    if isSpace here.ch then .switch .plain else .stay
  else if here.ch == '/' && (here.next == '*' || here.next == '/') then .switch .plain
  else if here.ch == '"' then .openLiteral (.string '"')
  else if here.ch == '<' && memory.inInclude then .openLiteral (.string '>')
  else if here.ch == '\'' then .openLiteral .character
  else .stay

/-- How a literal that `close` closes ends: a line end leaves it unclosed, and a
    backslash takes the next character away, but not between angle brackets. -/
def leaveLiteral (here : Surroundings) (close : Char) : Leave :=
  if here.atLineEnd then .recolour .unclosed
  else if here.ch == '\\' && close != '>' then .skipNext
  else if here.ch == close then .closeLiteral
  else .stay

/-- How a style ends at a character. -/
def leave (style : Style) (here : Surroundings) (memory : Memory) (settings : Settings) : Leave :=
  match style with
  | .plain => .stay
  | .operator => .switch .plain
  | .number =>
    let exponentSign := (here.ch == '+' || here.ch == '-') && (here.prev == 'e' || here.prev == 'E')
    if isWordChar here.ch || here.ch == '.' || here.ch == '\'' || exponentSign then .stay
    else .switch .plain
  | .identifier => if isIdentifierChar settings here.ch then .stay else .endWord
  | .directive => leaveDirective here memory settings
  | .blockComment => if closesComment here then .switchAfterPair .plain else .stay
  | .docComment =>
    if closesComment here then .switchAfterPair .plain
    else if beginsDocKeyword here ['*'] then .openDocKeyword
    else .stay
  | .lineComment => if here.atLineStart then .switch .plain else .stay
  | .docLineComment =>
    if here.atLineStart then .switch .plain
    else if beginsDocKeyword here ['/', '!'] then .openDocKeyword
    else .stay
  | .docKeyword =>
    if memory.docStyle = .docComment ∧ closesComment here then .breakDocKeyword
    else if isSmallLetter here.ch then .stay
    else .closeDocKeyword
  | .string => leaveLiteral here memory.stringClose
  | .character => leaveLiteral here '\''
  | .unclosed => if here.atLineStart then .switch .plain else .stay
  | .verbatim =>
    if here.ch == '"' then
      if here.next == '"' then .skipNext else .switchAfter .plain
    else .stay
  | .regex =>
    if here.atLineStart then .switch .plain
    else if here.ch == '/' then .closeRegex
    else if here.ch == '\\' && (here.next == '\\' || here.next == '/') then .skipNext
    else .stay
  | .uuid =>
    if here.ch == '\r' || here.ch == '\n' || here.ch == ')' then .switch .plain else .stay
  | .keyword | .keyword2 | .globalClass | .docKeywordError => .switch .plain

/-! ## What begins -/

/-- What begins in plain text. -/
inductive Enter where
  /-- A string literal after `@`. -/
  | verbatim
  /-- A number. -/
  | number
  /-- A word. -/
  | identifier
  /-- An identifier after the word `uuid`. -/
  | uuid
  /-- A block comment, documenting or not. -/
  | blockComment (doc : Bool)
  /-- A line comment, documenting or not. -/
  | lineComment (doc : Bool)
  /-- A regular expression. -/
  | regex
  /-- A string or character literal. -/
  | literal (literal : Literal)
  /-- A directive. -/
  | directive
  /-- An operator. -/
  | operator
deriving DecidableEq

/-- Whether a slash after `c` begins a regular expression and is no division. -/
def permitsRegex (c : Char) : Bool :=
  c ∈ ['(', '[', '\x7b', '=', ',', ':', ';', '!', '%', '^', '&', '*', '|', '?', '~', '+', '-']

/-- What begins at a character of plain text, if anything. -/
def enter? (here : Surroundings) (memory : Memory) (settings : Settings) : Option Enter :=
  let c := here.ch
  if c == '@' && here.next == '"' then some .verbatim
  else if isDigit c || (c == '.' && isDigit here.next) then
    some (if memory.afterUuid then .uuid else .number)
  else if isWordStart c || c == '@' || (c == '$' && settings.allowDollars) then
    some (if memory.afterUuid then .uuid else .identifier)
  else if c == '/' && here.next == '*' then
    some (.blockComment (here.next2 == '*' || here.next2 == '!'))
  else if c == '/' && here.next == '/' then
    some (.lineComment ((here.next2 == '/' && here.next3 != '/') || here.next2 == '!'))
  else if c == '/' && permitsRegex memory.lastVisible then some .regex
  else if c == '"' then some (.literal (.string '"'))
  else if c == '<' && memory.inInclude then some (.literal (.string '>'))
  else if c == '\'' then some (.literal .character)
  else if c == '#' && memory.visible == 0 then some .directive
  else if isOperator c then some .operator
  else none

end StyledText.CFamily
