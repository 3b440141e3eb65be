/-
  Text in quotes, as messages show it.

  A character that would be hard to see or to tell apart is written as an
  escape: the quote, the backslash, and every character without a shape of its
  own.  Tab, carriage return, line feed and NUL have short escapes, the others
  are written by their code point.

  * `quoted` puts a text in quotes.
-/
import StyledText.Unicode.Printable

namespace StyledText

/-- The digits of `n` to the base sixteen, without leading zeros. -/
def hexDigits (n : Nat) : List Char := Nat.toDigits 16 n

/-- A character as it is written within quotes. -/
def escaped (c : Char) : List Char :=
  match c with
  | '\x00' => ['\\', '0']
  | '\t' => ['\\', 't']
  | '\r' => ['\\', 'r']
  | '\n' => ['\\', 'n']
  | '"' => ['\\', '"']
  | '\\' => ['\\', '\\']
  | c =>
    if Unicode.isPrintable c then [c]
    else ['\\', 'u', '\x7b'] ++ hexDigits c.toNat ++ ['\x7d']

/-- `s` in quotes. -/
def quoted (s : String) : String := String.ofList (['"'] ++ s.toList.flatMap escaped ++ ['"'])

end StyledText
