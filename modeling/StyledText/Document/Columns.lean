/-
  Columns on a screen.

  A tab reaches to the next tab stop, and every other character takes its width.  How
  wide characters are is up to the screen, so that it is a parameter of everything here.

  * `columnBy` is the column of a position;
  * `findColumnBy` is the position on a line that is shown at a column;
  * `column` and `findColumn` are those of a terminal.
-/
import StyledText.Document
import StyledText.Unicode.Width

namespace StyledText.Document

/-- Puts a tab stop at every `width`-th column, or at every column for `0`. -/
def setTabWidth (d : Document) (width : Nat) : Document := { d with tabWidth := max width 1 }

section
variable (d : Document) (width : Char → Option Nat)

/-- The column after `c`, when `c` is shown at `column`.  A character without a width takes
    no room. -/
def columnAfter (column : Nat) (c : Char) : Nat :=
  if c = '\t' then (column / d.tabWidth + 1) * d.tabWidth else column + (width c).getD 0

/-- The column at which the character at `p` is shown. -/
def columnBy (p : Nat) : Nat :=
  let p := min p d.buffer.length
  let start := d.buffer.lineStart (d.buffer.lineOf p)
  (d.buffer.range start (p - start)).toList.foldl (d.columnAfter width) 0

/-- The position of the first of the characters `cs`, shown from `column` on and
    standing from `p` on, that reaches beyond `target`, or the position after
    the last one. -/
def findFrom (target : Nat) : (column p : Nat) → List Char → Nat
  | _, p, [] => p
  | column, p, c :: cs =>
    let next := d.columnAfter width column c
    if target < next then p else findFrom target next (p + 1) cs

/-- The position on `line` of the character that is shown at `column`, or the
    end of the line. -/
def findColumnBy (line column : Nat) : Nat :=
  d.findFrom width column 0 (d.buffer.lineStart line) (d.buffer.lineText line).toList

end

/-! ## On a terminal -/

/-- The column of a terminal at which the character at `p` is shown. -/
def column (d : Document) (p : Nat) : Nat := d.columnBy Unicode.width? p

/-- The position on `line` of the character that a terminal shows at `column`, or the end of
    the line. -/
def findColumn (d : Document) (line column : Nat) : Nat :=
  d.findColumnBy Unicode.width? line column

end StyledText.Document
