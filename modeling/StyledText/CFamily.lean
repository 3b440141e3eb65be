/-
  The lexer for C-like languages.

  * `Dialect.lex` styles a window: it moves the window back to the beginning of
    a word, scans it, ends the word that is open at its end, and commits the
    last run;
  * `Dialect.standard` and `Dialect.caseless` are the dialects at hand, both
    without words.
-/
import StyledText.CFamily.Resume

namespace StyledText.CFamily.Dialect

/-- The dialect with the given settings, and without words. -/
def ofSettings (settings : Settings) : Dialect where
  name := "cpp"
  extensions := ["c", "h", "cpp", "cc", "cxx", "hpp", "hxx"]
  settings
  vocabulary := .empty settings.caseSensitive

/-- The dialect with the usual settings. -/
def standard : Dialect := .ofSettings {}

/-- The dialect in which letter case makes no difference between words. -/
def caseless : Dialect :=
  { ofSettings { caseSensitive := false } with name := "cppnocase", extensions := [] }

/-- The dialect with the words of `text` in the list with a number.  A number
    without a list changes nothing. -/
def withWords (d : Dialect) (index : Nat) (text : List Char) : Dialect :=
  { d with vocabulary := d.vocabulary.replace index text }

/-- The whole scan of a window, started with the style byte `initial`. -/
def scan (d : Dialect) (w : Window) (initial : UInt8) : Scan :=
  let (w, style) := reopen d.settings w (.ofCode initial)
  (((Scan.ofWindow w style).run d).closeWord d).finish

/-- Styles a window, starting with the style byte `initial`. -/
def lex (d : Dialect) (w : Window) (initial : UInt8) : Lexed :=
  let s := d.scan w initial
  ⟨s.cursor.window, s.cursor.state, s.includes⟩

/-- The lexer for a dialect. -/
def lexer (d : Dialect) : Lexer := ⟨d.name, d.extensions, d.lex⟩

end StyledText.CFamily.Dialect
