/-
  The line that a position is on.

  The table of a text is ascending and begins with `0`, so the number of entries
  up to a position tells the last of them.

  * `LineTable.start?_lineAt`: the line of a position starts at the last entry
    that is not behind it;
  * `Buffer.lineStart_lineOf` and `lineStart_lineOf_eq`: so it is in a buffer whose
    table is that of its text.
-/
import StyledText.Proofs.BufferRun

namespace StyledText

/-- In an ascending list, the number of members up to `p` tells the last of them. -/
theorem getElem?_countP_le {l : List Nat} {p : Nat} (ha : l.Pairwise (· < ·))
    (hp : ∃ x ∈ l, x ≤ p) :
    ∃ last, l[l.countP (· ≤ p) - 1]? = some last ∧ last ∈ l ∧ last ≤ p ∧
      ∀ x ∈ l, x ≤ p → x ≤ last := by
  induction l with
  | nil =>
    obtain ⟨x, hx, -⟩ := hp
    exact absurd hx List.not_mem_nil
  | cons a l ih =>
    obtain ⟨hal, ha⟩ := List.pairwise_cons.1 ha
    have hle : a ≤ p := by
      obtain ⟨x, hx, hxp⟩ := hp
      rcases List.mem_cons.1 hx with rfl | hx
      · exact hxp
      · exact Nat.le_trans (Nat.le_of_lt (hal x hx)) hxp
    rw [List.countP_cons_of_pos (by simpa using hle), Nat.add_sub_cancel]
    by_cases hmore : ∃ x ∈ l, x ≤ p
    · obtain ⟨last, hlast, hmem, hlp, hmax⟩ := ih ha hmore
      have hpos : 0 < l.countP (· ≤ p) := by
        obtain ⟨x, hx, hxp⟩ := hmore
        exact List.countP_pos_iff.2 ⟨x, hx, by simpa using hxp⟩
      refine ⟨last, ?_, List.mem_cons_of_mem _ hmem, hlp, ?_⟩
      · obtain ⟨k, hk⟩ := Nat.exists_eq_add_one.2 hpos
        rw [hk, Nat.add_sub_cancel] at hlast
        rw [hk, List.getElem?_cons_succ, hlast]
      · intro x hx hxp
        rcases List.mem_cons.1 hx with rfl | hx
        · exact Nat.le_of_lt (hal last hmem)
        · exact hmax x hx hxp
    · have hnone : l.countP (· ≤ p) = 0 := by
        rw [List.countP_eq_zero]
        intro x hx hxp
        exact hmore ⟨x, hx, by simpa using hxp⟩
      refine ⟨a, by rw [hnone, List.getElem?_cons_zero], List.mem_cons_self, hle, ?_⟩
      intro x hx hxp
      rcases List.mem_cons.1 hx with rfl | hx
      · exact Nat.le_refl _
      · exact absurd ⟨x, hx, hxp⟩ hmore

/-- **The line of a position starts at the last entry that is not behind it.** -/
theorem LineTable.start?_lineAt (t : Text) (p : Nat) :
    ∃ start, (ofText t).start? ((ofText t).lineAt p) = some start ∧ start ∈ (ofText t).starts ∧
      start ≤ p ∧ ∀ x ∈ (ofText t).starts, x ≤ p → x ≤ start :=
  getElem?_countP_le (ascending_ofText t) ⟨0, mem_ofText.2 (Or.inl rfl), Nat.zero_le p⟩

namespace Buffer

variable {b : Buffer} {p : Nat}

theorem Consistent.lineStart_lineOf (h : b.Consistent) (hp : p ≤ b.length) :
    b.lineStart (b.lineOf p) ∈ (LineTable.ofText b.text).starts ∧
      b.lineStart (b.lineOf p) ≤ p ∧
      ∀ x ∈ (LineTable.ofText b.text).starts, x ≤ p → x ≤ b.lineStart (b.lineOf p) := by
  obtain ⟨start, hstart, hmem, hle, hmax⟩ := LineTable.start?_lineAt b.text p
  have heq : b.lineStart (b.lineOf p) = start := by
    rw [lineStart, lineOf, h.lines_eq, Nat.min_eq_left hp, hstart, Option.getD_some]
  rw [heq]
  exact ⟨hmem, hle, hmax⟩

/-- A line starts where the line of its start starts. -/
theorem Consistent.lineStart_lineOf_eq (h : b.Consistent)
    (hp : p ∈ (LineTable.ofText b.text).starts) : b.lineStart (b.lineOf p) = p := by
  have hlen : p ≤ b.length := by
    rcases LineTable.mem_ofText.1 hp with rfl | hp
    · exact Nat.zero_le _
    · exact hp.1
  obtain ⟨-, hle, hmax⟩ := h.lineStart_lineOf hlen
  exact Nat.le_antisymm hle (hmax p hp (Nat.le_refl p))

end Buffer

end StyledText
