/-
  Brackets and their partners.

  From a bracket the search walks away from it, forward from an opening one and
  backward from a closing one.  A bracket of the same character on the way has
  to find its own partner first.  Brackets in another style are passed over, so
  that one in a comment never pairs with one in the code; past the end of the
  styled part no style is known, and every bracket takes part.

  * `bracketPartner?` is the table of brackets;
  * `Buffer.matchBracket?` is the search.
-/
import StyledText.Buffer

namespace StyledText

/-- The way along a text. -/
inductive Direction where
  | forward
  | backward
deriving DecidableEq, Repr

/-- The partner of a bracket, and the way on which it is to be found. -/
def bracketPartner? : Char → Option (Char × Direction)
  | '(' => some (')', .forward)
  | '[' => some (']', .forward)
  | '\x7b' => some ('\x7d', .forward)
  | '<' => some ('>', .forward)
  | ')' => some ('(', .backward)
  | ']' => some ('[', .backward)
  | '\x7d' => some ('\x7b', .backward)
  | '>' => some ('<', .backward)
  | _ => none

namespace Buffer

/-- The positions of a text of `n` characters met when walking away
    from `p`. -/
def walkFrom (n p : Nat) : Direction → List Nat
  | .forward => List.range' (p + 1) (n - (p + 1))
  | .backward => (List.range p).reverse

/-- Whether the bracket at `q` takes part in the search that starts from a
    bracket in `style`. -/
def takesPart (b : Buffer) (endStyled : Nat) (style : UInt8) (q : Nat) : Bool :=
  endStyled ≤ q || b.styleAt q == style

/-- The first position of `path` where `partner` closes, when `depth` more
    brackets `own` have been met on the way than have been closed. -/
def closing? (b : Buffer) (counts : Nat → Bool) (own partner : Char) :
    Nat → List Nat → Option Nat
  | _, [] => none
  | depth, q :: path =>
    if b.charAt q = own ∧ counts q then closing? b counts own partner (depth + 1) path
    else if b.charAt q = partner ∧ counts q then
      match depth with
      | 0 => some q
      | depth + 1 => closing? b counts own partner depth path
    else closing? b counts own partner depth path

/-- The position of the partner of the bracket at `p`, when styles are known
    before `endStyled`. -/
def matchBracket? (b : Buffer) (p endStyled : Nat) : Option Nat := do
  let (partner, direction) ← bracketPartner? (b.charAt p)
  b.closing? (b.takesPart endStyled (b.styleAt p)) (b.charAt p) partner 0
    (walkFrom b.length p direction)

end Buffer

end StyledText
