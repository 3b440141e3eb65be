/-
  The table of line starts.

  A line ends after a line feed, and after a carriage return that no line feed
  follows, so that a carriage return and a line feed end one line together.
  The table lists the positions where lines start, in ascending order; the
  first line starts at `0`, also in the empty text.

  After an edit the table is patched.  Entries behind the edit move with their
  text, and only the entries next to changed characters are looked up anew.

  * `Text.isLineStart` is the rule, and `LineTable.ofText` reads a whole text
    by it;
  * `afterInsert` and `afterRemove` patch a table for a text that has changed
    already;
  * `mem_ofText` is membership in the table of a text.
-/
import StyledText.Text

namespace StyledText

/-- Whether a line starts at `p > 0`: after a line feed, or after a carriage
    return that no line feed follows. -/
def Text.isLineStart (t : Text) (p : Nat) : Bool :=
  0 < p && (t.charAt (p - 1) == '\n' || (t.charAt (p - 1) == '\r' && t.charAt p != '\n'))

/-- The positions where the lines of a text start. -/
structure LineTable where
  /-- The starts, in ascending order. -/
  starts : List Nat
deriving DecidableEq, Inhabited

namespace LineTable

/-- The table of a text of one line. -/
def single : LineTable := ⟨[0]⟩

/-- The line starts of `t` in `[lo, hi]`. -/
def startsWithin (t : Text) (lo hi : Nat) : List Nat :=
  (List.range' lo (hi + 1 - lo)).filter t.isLineStart

/-- The table of `t`. -/
def ofText (t : Text) : LineTable := ⟨0 :: startsWithin t 1 t.length⟩

/-! ## Queries -/

/-- The number of lines. -/
def count (lines : LineTable) : Nat := lines.starts.length

/-- The position where `line` starts, unless there is no such line. -/
def start? (lines : LineTable) (line : Nat) : Option Nat := lines.starts[line]?

/-- The line that holds `p`: the last one that starts at or before it. -/
def lineAt (lines : LineTable) (p : Nat) : Nat := lines.starts.countP (· ≤ p) - 1

/-! ## Patching -/

/-- The table with its entries from `lo` to `hi` looked up anew in `t`.  The
    entry of the first line stays, and there are none past the end. -/
def refresh (lines : LineTable) (t : Text) (lo hi : Nat) : LineTable :=
  let lo := max lo 1
  let hi := min hi t.length
  if lo ≤ hi then
    ⟨lines.starts.filter (· < lo) ++ startsWithin t lo hi ++ lines.starts.filter (hi < ·)⟩
  else lines

/-- The table for `t`, in which `n` characters have been put in at `p`.  Starts
    after `p` move by `n`, and those from `p` to `p + n` are looked up. -/
def afterInsert (lines : LineTable) (t : Text) (p n : Nat) : LineTable :=
  if n = 0 then lines
  else refresh ⟨lines.starts.map fun s => if s ≤ p then s else s + n⟩ t p (p + n)

/-- The table for `t`, from which `n` characters have been taken out at `p`.
    Starts within them go away, later ones move by `n`, and the one at `p` is
    looked up. -/
def afterRemove (lines : LineTable) (t : Text) (p n : Nat) : LineTable :=
  if n = 0 then lines
  else
    let kept := lines.starts.filter fun s => s ≤ p || p + n < s
    refresh ⟨kept.map fun s => if s ≤ p then s else s - n⟩ t p p

/-! ## Membership -/

theorem mem_startsWithin {t : Text} {lo hi p : Nat} :
    p ∈ startsWithin t lo hi ↔ lo ≤ p ∧ p ≤ hi ∧ t.isLineStart p = true := by
  simp only [startsWithin, List.mem_filter, List.mem_range'_1]
  constructor
  · rintro ⟨⟨h, h'⟩, hp⟩
    exact ⟨h, by omega, hp⟩
  · rintro ⟨h, h', hp⟩
    exact ⟨⟨h, by omega⟩, hp⟩

/-- **The table of a text holds `0` and the positions that follow a line
    end.** -/
theorem mem_ofText {t : Text} {p : Nat} :
    p ∈ (ofText t).starts ↔ p = 0 ∨ p ≤ t.length ∧ t.isLineStart p = true := by
  simp only [ofText, List.mem_cons, mem_startsWithin]
  constructor
  · rintro (h | ⟨-, h⟩)
    · exact Or.inl h
    · exact Or.inr h
  · rintro (h | h)
    · exact Or.inl h
    · by_cases hp : p = 0
      · exact Or.inl hp
      · exact Or.inr ⟨by omega, h⟩

end LineTable

end StyledText
