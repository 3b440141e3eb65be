/-
  The patched line table.

  An edit moves the line starts behind it and can only make or unmake starts
  from its first to its last position, where a carriage return and a line feed
  may have been joined or parted.  So a table that is right everywhere else is
  put right by looking up these positions anew.

  * `eq_ofText`: a table is determined by the positions it holds;
  * `refresh_eq_ofText`: looking up a stretch puts a table right that is right
    outside it;
  * `afterInsert_ofText` and `afterRemove_ofText`: the patched table of the old
    text is the table of the new one.
-/
import Mathlib.Data.List.Sort
import Mathlib.Tactic.Tauto
import StyledText.LineTable
import StyledText.Proofs.Splice

namespace StyledText

/-- A line starts behind a line feed, and behind a carriage return unless a line
    feed follows it. -/
theorem Text.isLineStart_iff {t : Text} {p : Nat} :
    t.isLineStart p = true ↔ 1 ≤ p ∧ (t.charAt (p - 1) = '\n' ∨
      t.charAt (p - 1) = '\r' ∧ ¬ (p < t.length ∧ t.charAt p = '\n')) := by
  have hend : t.charAt p = '\n' → p < t.length := by
    intro h
    by_contra hp
    rw [charAt_of_length_le (Nat.not_lt.1 hp)] at h
    exact absurd h (by decide)
  simp only [isLineStart, Bool.and_eq_true, Bool.or_eq_true, decide_eq_true_eq, beq_iff_eq,
    bne_iff_ne, ne_eq]
  tauto

/-! ## Tables as ascending lists -/

namespace LineTable

variable {lines : LineTable} {t : Text} {p n : Nat}

theorem ascending_startsWithin (t : Text) (lo hi : Nat) : (startsWithin t lo hi).Pairwise (· < ·) :=
  List.Pairwise.filter _ List.pairwise_lt_range'

theorem ascending_ofText (t : Text) : (ofText t).starts.Pairwise (· < ·) := by
  refine List.pairwise_cons.2 ⟨fun q hq => ?_, ascending_startsWithin t 1 t.length⟩
  obtain ⟨h1, -, -⟩ := mem_startsWithin.1 hq
  omega

/-- **A table is determined by the positions it holds.** -/
theorem eq_ofText (ha : lines.starts.Pairwise (· < ·))
    (hm : ∀ q, q ∈ lines.starts ↔ q = 0 ∨ q ≤ t.length ∧ t.isLineStart q = true) :
    lines = ofText t := by
  cases lines with
  | mk starts =>
    congr 1
    exact ha.eq_of_mem_iff (ascending_ofText t) fun q => (hm q).trans mem_ofText.symm

/-! ## Looking up anew -/

theorem mem_refresh {lo hi q : Nat} :
    q ∈ (lines.refresh t lo hi).starts ↔
      if max lo 1 ≤ q ∧ q ≤ min hi t.length then t.isLineStart q = true else q ∈ lines.starts := by
  unfold refresh
  dsimp only
  split_ifs with h h' h'
  · simp only [List.mem_append, List.mem_filter, mem_startsWithin, decide_eq_true_eq]
    constructor
    · rintro ((⟨-, h1⟩ | ⟨-, -, h1⟩) | ⟨-, h1⟩)
      · omega
      · exact h1
      · omega
    · exact fun h1 => Or.inl (Or.inr ⟨h'.1, h'.2, h1⟩)
  · simp only [List.mem_append, List.mem_filter, mem_startsWithin, decide_eq_true_eq]
    constructor
    · rintro ((⟨h1, -⟩ | ⟨h1, h2, -⟩) | ⟨h1, -⟩)
      · exact h1
      · exact absurd ⟨h1, h2⟩ h'
      · exact h1
    · intro h1
      rcases Nat.lt_or_ge q (max lo 1) with h2 | h2
      · exact Or.inl (Or.inl ⟨h1, h2⟩)
      · exact Or.inr ⟨h1, by omega⟩
  · omega
  · rfl

theorem ascending_refresh (ha : lines.starts.Pairwise (· < ·)) (t : Text) (lo hi : Nat) :
    (lines.refresh t lo hi).starts.Pairwise (· < ·) := by
  unfold refresh
  dsimp only
  split_ifs with h
  · simp only [List.pairwise_append, List.mem_append, List.mem_filter, mem_startsWithin,
      decide_eq_true_eq]
    refine ⟨⟨ha.filter _, ascending_startsWithin t _ _, ?_⟩, ha.filter _, ?_⟩
    · rintro q ⟨-, h1⟩ r ⟨h2, -, -⟩
      omega
    · rintro q (⟨-, h1⟩ | ⟨-, h1, -⟩) r ⟨-, h2⟩ <;> omega
  · exact ha

/-- **Looking up a stretch puts a table right that is right outside it.** -/
theorem refresh_eq_ofText {lo hi : Nat} (ha : lines.starts.Pairwise (· < ·))
    (hm : ∀ q, (q < max lo 1 ∨ min hi t.length < q) →
      (q ∈ lines.starts ↔ q = 0 ∨ q ≤ t.length ∧ t.isLineStart q = true)) :
    lines.refresh t lo hi = ofText t := by
  refine eq_ofText (ascending_refresh ha t lo hi) fun q => ?_
  rw [mem_refresh]
  split_ifs with h
  · constructor
    · exact fun h1 => Or.inr ⟨by omega, h1⟩
    · rintro (h1 | ⟨-, h1⟩)
      · omega
      · exact h1
  · exact hm q (by omega)

/-! ## Moving the starts behind an edit -/

/-- Entries that are moved in their order stay ascending. -/
theorem ascending_map {starts : List Nat} {f : Nat → Nat} (ha : starts.Pairwise (· < ·))
    (hf : ∀ q ∈ starts, ∀ r ∈ starts, q < r → f q < f r) : (starts.map f).Pairwise (· < ·) :=
  List.pairwise_map.2 (ha.imp_of_mem fun hq hr => hf _ hq _ hr)

end LineTable

/-! ## Line starts away from an edit -/

namespace Text

variable {t : Text} {p n q : Nat}

theorem isLineStart_insert_before (h : p ≤ t.length) (s : Text) (hq : q < p) :
    (t.insert p s).isLineStart q = t.isLineStart q := by
  simp only [isLineStart, charAt_insert h]
  rw [if_pos (by omega), if_pos hq]

theorem isLineStart_insert_behind (h : p ≤ t.length) (s : Text) (hq : p < q) :
    (t.insert p s).isLineStart (q + s.length) = t.isLineStart q := by
  simp only [isLineStart, charAt_insert h]
  rw [if_neg (by omega), if_neg (by omega), if_neg (by omega), if_neg (by omega),
    show q + s.length - 1 - s.length = q - 1 by omega, Nat.add_sub_cancel]
  congr 1
  simp only [decide_eq_decide]
  omega

theorem isLineStart_remove_before (h : p + n ≤ t.length) (hq : q < p) :
    (t.remove p (p + n)).isLineStart q = t.isLineStart q := by
  simp only [isLineStart, charAt_remove h]
  rw [if_pos (by omega), if_pos hq]

theorem isLineStart_remove_behind (h : p + n ≤ t.length) (hq : p < q) :
    (t.remove p (p + n)).isLineStart q = t.isLineStart (q + n) := by
  simp only [isLineStart, charAt_remove h]
  rw [if_neg (by omega), if_neg (by omega), show q + n - 1 = q - 1 + n by omega]
  congr 1
  simp only [decide_eq_decide]
  omega

end Text

/-! ## The patches -/

namespace LineTable

variable {t : Text} {p n : Nat}

/-- **The table patched after an insertion is the table of the new text.** -/
theorem afterInsert_ofText (h : p ≤ t.length) (s : Text) :
    (ofText t).afterInsert (t.insert p s) p s.length = ofText (t.insert p s) := by
  have hl := Text.length_insert h s
  unfold afterInsert
  split_ifs with hs
  · rw [Text.insert_of_length_eq_zero hs]
  · refine refresh_eq_ofText (ascending_map (ascending_ofText t) fun q _ r _ hqr => ?_)
      fun q hq => ?_
    · split_ifs <;> omega
    simp only [List.mem_map, mem_ofText]
    constructor
    · rintro ⟨r, hr, rfl⟩
      rcases hr with rfl | ⟨h1, h2⟩
      · exact Or.inl (if_pos (Nat.zero_le p))
      split_ifs at hq ⊢ with hrp
      · rcases Nat.lt_or_ge r p with h3 | h3
        · exact Or.inr ⟨by omega, by rw [Text.isLineStart_insert_before h s h3]; exact h2⟩
        · exact Or.inl (by omega)
      · exact Or.inr ⟨by omega,
          by rw [Text.isLineStart_insert_behind h s (by omega)]; exact h2⟩
    · rintro (rfl | ⟨h1, h2⟩)
      · exact ⟨0, Or.inl rfl, if_pos (Nat.zero_le p)⟩
      rcases hq with hq | hq
      · rcases Nat.lt_or_ge q p with h3 | h3
        · rw [Text.isLineStart_insert_before h s h3] at h2
          exact ⟨q, Or.inr ⟨by omega, h2⟩, if_pos (by omega)⟩
        · exact ⟨0, Or.inl rfl, by rw [if_pos (Nat.zero_le p)]; omega⟩
      · obtain ⟨r, rfl⟩ : ∃ r, q = r + s.length := ⟨q - s.length, by omega⟩
        rw [Text.isLineStart_insert_behind h s (by omega)] at h2
        exact ⟨r, Or.inr ⟨by omega, h2⟩, if_neg (by omega)⟩

/-- **The table patched after a removal is the table of the new text.** -/
theorem afterRemove_ofText (h : p + n ≤ t.length) :
    (ofText t).afterRemove (t.remove p (p + n)) p n = ofText (t.remove p (p + n)) := by
  have hl := Text.length_remove (Nat.le_add_right p n) h
  unfold afterRemove
  split_ifs with hn
  · rw [hn, Nat.add_zero, Text.remove_self]
  · refine refresh_eq_ofText (ascending_map ((ascending_ofText t).filter _)
      fun q hq r hr hqr => ?_) fun q hq => ?_
    · simp only [List.mem_filter, Bool.or_eq_true, decide_eq_true_eq] at hq hr
      split_ifs <;> omega
    simp only [List.mem_map, List.mem_filter, mem_ofText, Bool.or_eq_true, decide_eq_true_eq]
    constructor
    · rintro ⟨r, ⟨hr, hk⟩, rfl⟩
      rcases hr with rfl | ⟨h1, h2⟩
      · exact Or.inl (if_pos (Nat.zero_le p))
      split_ifs at hq ⊢ with hrp
      · rcases Nat.lt_or_ge r p with h3 | h3
        · exact Or.inr ⟨by omega, by rw [Text.isLineStart_remove_before h h3]; exact h2⟩
        · exact Or.inl (by omega)
      · refine Or.inr ⟨by omega, ?_⟩
        rw [Text.isLineStart_remove_behind h (by omega), Nat.sub_add_cancel (by omega)]
        exact h2
    · rintro (rfl | ⟨h1, h2⟩)
      · exact ⟨0, ⟨Or.inl rfl, Or.inl (Nat.zero_le p)⟩, if_pos (Nat.zero_le p)⟩
      rcases Nat.lt_or_ge p q with h3 | h3
      · rw [Text.isLineStart_remove_behind h h3] at h2
        exact ⟨q + n, ⟨Or.inr ⟨by omega, h2⟩, Or.inr (by omega)⟩, by rw [if_neg (by omega)]; omega⟩
      · rcases Nat.lt_or_ge q p with h4 | h4
        · rw [Text.isLineStart_remove_before h h4] at h2
          exact ⟨q, ⟨Or.inr ⟨by omega, h2⟩, Or.inl h3⟩, if_pos h3⟩
        · exact ⟨0, ⟨Or.inl rfl, Or.inl (Nat.zero_le p)⟩, by rw [if_pos (Nat.zero_le p)]; omega⟩

end LineTable

end StyledText
