/-
  What can be wrong with a configuration.

  Nothing else fails: edits and queries that do not apply are ignored or answer
  with a neutral value.

  * `ConfigError.message` is the wording.
-/
import StyledText.Quoted

namespace StyledText

/-- A fault in a configuration. -/
inductive ConfigError where
  /-- No property has this key. -/
  | unknownProperty (key : String)
  /-- The property does not take this value. -/
  | invalidValue (key value : String)
  /-- The line gives no property a value. -/
  | malformedLine (line : String)
  /-- There is no word list of this number; `last` is the last one. -/
  | noSuchWordList (index last : Nat)
  /-- No lexer goes by this name. -/
  | unknownLexer (name : String)
deriving DecidableEq, Repr

/-- The wording of a fault. -/
def ConfigError.message : ConfigError → String
  | unknownProperty key => "unknown lexer property: " ++ key
  | invalidValue key value => "invalid value " ++ quoted value ++ " for property " ++ key
  | malformedLine line => "malformed property line (expected key=value): " ++ quoted line
  | noSuchWordList index last =>
    "keyword set " ++ toString index ++ " out of range (max " ++ toString last ++ ")"
  | unknownLexer name => "no lexer registered for " ++ quoted name

end StyledText
