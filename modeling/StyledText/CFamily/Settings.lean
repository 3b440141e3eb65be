/-
  The switches of the lexer for C-like languages, and their written form.

  Settings are written as lines `key=value`.  Blank lines and lines that begin
  with `#` say nothing, white space around a key and a value does not count,
  and of two lines with one key the later counts.

  * `Settings.parse` reads settings and stops at the first faulty line;
  * `Settings.assign` gives one property a value by its key, and `setProperty` is
    the outcome.
-/
import StyledText.ConfigError
import StyledText.Unicode.WhiteSpace

namespace StyledText.CFamily

/-- How C-like text is read. -/
structure Settings where
  /-- Whether words that differ in letter case are different words. -/
  caseSensitive : Bool := true
  /-- Whether only the word of a directive is styled as one, and the rest of
      its line as code. -/
  styleWithinDirectives : Bool := false
  /-- Whether `$` can be part of a word. -/
  allowDollars : Bool := true
  /-- Whether the places of include paths are reported. -/
  trackIncludes : Bool := true
deriving DecidableEq, Repr, Inhabited

/-- The properties that settings are made of. -/
inductive Property where
  | caseSensitive
  | styleWithinDirectives
  | allowDollars
  | trackIncludes
deriving DecidableEq, Repr

namespace Property

/-- Every property. -/
def all : List Property := [caseSensitive, styleWithinDirectives, allowDollars, trackIncludes]

/-- The key by which a property is written. -/
def key : Property → String
  | caseSensitive => "lexer.cpp.case.sensitive"
  | styleWithinDirectives => "styling.within.preprocessor"
  | allowDollars => "lexer.cpp.allow.dollars"
  | trackIncludes => "lexer.cpp.track.include"

/-- The property with a key. -/
def ofKey? (key : String) : Option Property := all.find? (·.key == key)

end Property

namespace Settings

/-- The value of a property. -/
def get (s : Settings) : Property → Bool
  | .caseSensitive => s.caseSensitive
  | .styleWithinDirectives => s.styleWithinDirectives
  | .allowDollars => s.allowDollars
  | .trackIncludes => s.trackIncludes

/-- The settings with another value of a property. -/
def set (s : Settings) (value : Bool) : Property → Settings
  | .caseSensitive => { s with caseSensitive := value }
  | .styleWithinDirectives => { s with styleWithinDirectives := value }
  | .allowDollars => { s with allowDollars := value }
  | .trackIncludes => { s with trackIncludes := value }

theorem get_set (s : Settings) (value : Bool) (p q : Property) :
    (s.set value p).get q = if q = p then value else s.get q := by
  cases p <;> cases q <;> rfl

/-! ## Written form -/

/-- The value that a switch is given by a word. -/
def flag? (word : String) : Option Bool :=
  if word = "1" ∨ word = "true" then some true
  else if word = "0" ∨ word = "false" then some false
  else none

/-- Gives the property with `key` the value written as `value`, in place.  Nothing is
    changed before both have been looked at. -/
def assign (key value : String) : ExceptT ConfigError (StateM Settings) Unit :=
  match Property.ofKey? key with
  | none => throw (.unknownProperty key)
  | some property =>
    match flag? value with
    | none => throw (.invalidValue key value)
    | some on => modify (·.set on property)

/-- The settings in which the property with `key` has the value written as `value`. -/
def setProperty (s : Settings) (key value : String) : Except ConfigError Settings :=
  match (assign key value).run.run s with
  | (.ok (), s') => .ok s'
  | (.error fault, _) => .error fault

/-- The stretches of `cs` between line feeds. -/
def lines : List Char → List (List Char)
  | [] => [[]]
  | c :: cs =>
    if c = '\n' then [] :: lines cs
    else
      match lines cs with
      | [] => [[c]]
      | line :: rest => (c :: line) :: rest

/-- Lines that say nothing: blank ones and remarks. -/
def isRemark (line : List Char) : Bool := line.isEmpty || line.head? == some '#'

/-- Reads one line without white space around it. -/
def readLine (s : Settings) (line : List Char) : Except ConfigError Settings :=
  if isRemark line then .ok s
  else
    let key := line.takeWhile (· != '=')
    match line.dropWhile (· != '=') with
    | [] => .error (.malformedLine (String.ofList line))
    | _ :: value =>
      s.setProperty (String.ofList (Unicode.trim key)) (String.ofList (Unicode.trim value))

/-- The settings written by `text`, with the usual value for a property that it
    does not name, or the fault of the first faulty line. -/
def parse (text : List Char) : Except ConfigError Settings :=
  ((lines text).map Unicode.trim).foldlM readLine {}

end Settings

end StyledText.CFamily
