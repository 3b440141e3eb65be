/-
  Where a scan starts, and what it has to know there.

  A window can open anywhere.  Words are looked up whole, so a window that opens
  within a word is moved back to its beginning.  What the text before the window
  has left to remember is read off its characters and its styles.

  * `reopen` moves a window back to the beginning of a word;
  * `lineContinues` and `operatorBefore?` read what the scan remembers;
  * `Scan.ofWindow` is the scan at the start of a window.
-/
import StyledText.CFamily.Scan

namespace StyledText.CFamily

/-! ## Words that began before the window -/

/-- The first position of the run of characters for which `p` holds that goes
    through a position, or that position itself if no run goes through it from
    before. -/
def runStart (p : Char → Bool) (w : Window) : (position : Nat) → Nat
  | 0 => 0
  | pos + 1 =>
    if p (w.charAt (pos + 1)) && p (w.charAt pos) then runStart p w pos else pos + 1

/-- Where the word that `start` is within begins, with `@` if it has one. -/
def wordStart? (settings : Settings) (w : Window) (start : Nat) : Option Nat :=
  let first := runStart (isIdentifierChar settings) w start
  if first = start then none
  else if 0 < first ∧ w.charAt (first - 1) = '@' then some (first - 1)
  else some first

/-- The mark of the documentation keyword that `start` is within. -/
def docKeywordStart? (w : Window) (start : Nat) : Option Nat :=
  let first := runStart isSmallLetter w start
  if first = start ∨ first = 0 then none
  else if w.charAt (first - 1) = '@' ∨ w.charAt (first - 1) = '\\' then some (first - 1)
  else none

/-- The style of the comment that goes on before `p`. -/
def commentStyleBefore (w : Window) (p : Nat) : Style :=
  if 0 < p ∧ Style.ofCode (w.styleAt (p - 1)) = .docLineComment then .docLineComment
  else .docComment

/-- The window, moved back to the beginning of the word that it opens within,
    and the style in which that word is met. -/
def reopen (settings : Settings) (w : Window) (style : Style) : Window × Style :=
  match style with
  | .identifier | .keyword | .keyword2 | .globalClass =>
    match wordStart? settings w w.start with
    | some first => (w.extendBack first, .plain)
    | none => (w, style)
  | .docKeyword =>
    match docKeywordStart? w w.start with
    | some mark => (w.extendBack mark, commentStyleBefore w mark)
    | none => (w, style)
  | _ => (w, style)

/-! ## What the text before the window tells -/

/-- Whether the line that ends right before `p` ends in a backslash. -/
def lineContinues (w : Window) (p : Nat) : Bool :=
  let back (n : Nat) : Char := if n ≤ p then w.charAt (p - n) else nul
  if back 2 = '\r' ∧ back 1 = '\n' then back 3 == '\\'
  else isLineBreak (back 1) && back 2 == '\\'

/-- The operator that the code before `p` ends with, if it ends with one.  Plain
    text and comments are passed over. -/
def operatorBefore? (w : Window) : Nat → Option Char
  | 0 => none
  | p + 1 =>
    let style := Style.ofCode (w.styleAt p)
    if style = .plain ∨ style.isComment then operatorBefore? w p
    else if style = .operator then some (w.charAt p)
    else none

/-- The scan at the start of a window in `style`. -/
def Scan.ofWindow (w : Window) (style : Style) : Scan where
  cursor := .ofWindow w style.code
  memory :=
    { continued := style == .directive && lineContinues w w.start
      lastVisible := (operatorBefore? w w.start).getD ' ' }
  literalStart := none
  includes := []

end StyledText.CFamily
