/-
  The ends of a list.

  What a list begins with can be taken off it, and where later members count for
  more than earlier ones, the last of those that apply decides.

  * `takeWhile_dropWhile_iff`: where a list is cut behind the members with `p` that it
    begins with;
  * `IsLast p l x`: `x` is the last member of `l` for which `p` holds;
  * `isLast_concat`: what one more member at the end changes;
  * `exists_isLast_iff`: there is a last one if there is one at all.
-/
import Mathlib.Data.List.Induction
import Mathlib.Data.List.TakeWhile

namespace StyledText

variable {α : Type}

/-! ## The beginning -/

/-- **A list is cut behind the members with `p` that it begins with** exactly if all
    members before the cut have `p`, and the one behind it does not. -/
theorem takeWhile_dropWhile_iff {p : α → Bool} {l front rest : List α} :
    l.takeWhile p = front ∧ l.dropWhile p = rest ↔
      l = front ++ rest ∧ (∀ x ∈ front, p x = true) ∧ ∀ x ∈ rest.head?, p x = false := by
  constructor
  · rintro ⟨rfl, rfl⟩
    refine ⟨List.takeWhile_append_dropWhile.symm, fun x hx => List.mem_takeWhile_imp hx, ?_⟩
    intro x hx
    have := List.head?_dropWhile_not p l
    rw [hx] at this
    exact this
  · rintro ⟨rfl, hfront, hrest⟩
    rw [List.takeWhile_append_of_pos hfront, List.dropWhile_append_of_pos hfront]
    cases rest with
    | nil => exact ⟨List.append_nil front, rfl⟩
    | cons x rest =>
      have hx : ¬ p x = true := by
        rw [hrest x rfl]
        exact Bool.false_ne_true
      rw [List.takeWhile_cons_of_neg hx, List.dropWhile_cons_of_neg hx]
      exact ⟨List.append_nil front, rfl⟩

/-! ## The last member with a property -/

variable {p : α → Prop} {l : List α} {a x : α}

/-- **`x` is the last member of `l` for which `p` holds.** -/
def IsLast (p : α → Prop) (l : List α) (x : α) : Prop :=
  ∃ before after, l = before ++ x :: after ∧ p x ∧ ∀ y ∈ after, ¬ p y

theorem IsLast.mem (h : IsLast p l x) : x ∈ l := by
  obtain ⟨before, after, rfl, -, -⟩ := h
  exact List.mem_append_right _ List.mem_cons_self

theorem IsLast.holds (h : IsLast p l x) : p x := by
  obtain ⟨-, -, -, hx, -⟩ := h
  exact hx

/-- A member at the end comes before all others. -/
theorem isLast_concat : IsLast p (l ++ [a]) x ↔ p a ∧ x = a ∨ ¬ p a ∧ IsLast p l x := by
  constructor
  · rintro ⟨before, after, hl, hx, hafter⟩
    rcases List.eq_nil_or_concat after with rfl | ⟨after, b, rfl⟩
    · obtain ⟨-, hax⟩ := List.append_inj' hl rfl
      cases hax
      exact Or.inl ⟨hx, rfl⟩
    · rw [List.concat_eq_append, ← List.cons_append, ← List.append_assoc] at hl
      obtain ⟨rfl, hab⟩ := List.append_inj' hl rfl
      cases hab
      rw [List.concat_eq_append] at hafter
      refine Or.inr ⟨hafter a (by simp), before, after, rfl, hx, fun y hy => hafter y ?_⟩
      exact List.mem_append_left _ hy
  · rintro (⟨ha, rfl⟩ | ⟨ha, before, after, rfl, hx, hafter⟩)
    · exact ⟨l, [], rfl, ha, fun y hy => absurd hy List.not_mem_nil⟩
    · refine ⟨before, after ++ [a], by simp, hx, fun y hy => ?_⟩
      rcases List.mem_append.1 hy with hy | hy
      · exact hafter y hy
      · rw [List.mem_singleton.1 hy]
        exact ha

theorem not_isLast_nil : ¬ IsLast p [] x := fun h => absurd h.mem List.not_mem_nil

/-- **There is a last one if there is one at all.** -/
theorem exists_isLast_iff : (∃ x, IsLast p l x) ↔ ∃ x ∈ l, p x := by
  constructor
  · rintro ⟨x, h⟩
    exact ⟨x, h.mem, h.holds⟩
  · induction l using List.reverseRecOn with
    | nil =>
      rintro ⟨x, hx, -⟩
      exact absurd hx List.not_mem_nil
    | append_singleton l a ih =>
      rintro ⟨x, hx, hp⟩
      by_cases ha : p a
      · exact ⟨a, isLast_concat.2 (Or.inl ⟨ha, rfl⟩)⟩
      · have hxl : x ∈ l := by
          rcases List.mem_append.1 hx with hx | hx
          · exact hx
          · rw [List.mem_singleton.1 hx] at hp
            exact absurd hp ha
        obtain ⟨last, hlast⟩ := ih ⟨x, hxl, hp⟩
        exact ⟨last, isLast_concat.2 (Or.inr ⟨ha, hlast⟩)⟩

end StyledText
