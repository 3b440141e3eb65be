/-
  A catalog of lexers, looked up by name or by file extension.

  Letter case of ASCII makes no difference in either, nor do the dots before an
  extension.  Of two lexers with one name or one extension the one registered
  later is found; both stay in the catalog, where lexers are numbered in the
  order of their registration.  A lexer is found as a value: whoever looks one up
  to read it only, and whoever looks it up to keep it, finds the same one.

  * `register` adds a lexer, and `byName?` and `byExtension?` find one;
  * `get` reports a name that no lexer has as a fault;
  * `Catalog.standard` holds the lexers at hand.
-/
import Std.Data.HashMap
import StyledText.CFamily
import StyledText.ConfigError

namespace StyledText

/-- Lexers, and where to find them. -/
structure Catalog where
  /-- All lexers, in the order of their registration. -/
  lexers : Array Lexer
  /-- The number of the lexer found under a name in lower case. -/
  names : Std.HashMap String Nat
  /-- The number of the lexer found under an extension in lower case. -/
  extensions : Std.HashMap String Nat

namespace Catalog

/-- The catalog without lexers. -/
def empty : Catalog := ⟨#[], ∅, ∅⟩

/-- A name in the form under which it is kept. -/
def nameKey (name : String) : String := String.ofList (name.toList.map Char.toLower)

/-- An extension in the form under which it is kept. -/
def extensionKey (extension : String) : String :=
  String.ofList ((extension.toList.dropWhile (· == '.')).map Char.toLower)

/-- Puts the lexer with a number under an extension.  An extension of nothing
    but dots finds no lexer. -/
def putExtension (number : Nat) (extensions : Std.HashMap String Nat) (extension : String) :
    Std.HashMap String Nat :=
  let key := extensionKey extension
  if key.isEmpty then extensions else extensions.insert key number

/-- Adds a lexer, under the next number. -/
def register (c : Catalog) (lexer : Lexer) : Catalog where
  lexers := c.lexers.push lexer
  names := c.names.insert (nameKey lexer.name) c.lexers.size
  extensions := lexer.extensions.foldl (putExtension c.lexers.size) c.extensions

/-- The lexer with a name, be it to read or to keep. -/
def byName? (c : Catalog) (name : String) : Option Lexer :=
  c.names[nameKey name]?.bind (c.lexers[·]?)

/-- The lexer for an extension, be it to read or to keep. -/
def byExtension? (c : Catalog) (extension : String) : Option Lexer :=
  c.extensions[extensionKey extension]?.bind (c.lexers[·]?)

/-- The lexer with a name, which there has to be. -/
def get (c : Catalog) (name : String) : Except ConfigError Lexer :=
  match c.byName? name with
  | some lexer => .ok lexer
  | none => .error (.unknownLexer name)

/-- The names of all lexers, in the order of their registration. -/
def allNames (c : Catalog) : List String := c.lexers.toList.map (·.name)

/-- The catalog with the given lexers, registered first to last. -/
def ofList (lexers : List Lexer) : Catalog := lexers.foldl register empty

/-- The lexers at hand: for C-like languages, for those without letter case, and
    for plain text. -/
def standard : Catalog :=
  ofList [CFamily.Dialect.standard.lexer, CFamily.Dialect.caseless.lexer, Lexer.plain]

end Catalog

end StyledText
