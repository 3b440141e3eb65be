/-
  Putting in and taking out, character by character.

  * `toList_extract_eq_map` and `toList_extract_append`: a stretch of a text,
    character by character and piece by piece;
  * `charAt_insert` and `charAt_remove`: where each character of an edited text
    comes from;
  * `remove_insert` and `insert_remove`: an insertion and the removal of the
    same stretch undo each other;
  * `excise_splice` and `splice_excise`: the same for arrays, of which texts and
    their styles are made.
-/
import Mathlib.Tactic.SplitIfs
import StyledText.Text

namespace StyledText

/-! ## Arrays -/

section
variable {α : Type} {a : Array α} {p n : Nat}

theorem toList_extract_zero (a : Array α) (i : Nat) : (a.extract 0 i).toList = a.toList.take i := by
  simp [List.extract_eq_take_drop]

theorem toList_extract_size (a : Array α) (i : Nat) :
    (a.extract i a.size).toList = a.toList.drop i := by
  rw [Array.toList_extract, List.extract_eq_take_drop]
  exact List.take_of_length_le (by simp)

theorem size_excise (h : p + n ≤ a.size) :
    (a.extract 0 p ++ a.extract (p + n) a.size).size = a.size - n := by
  simp
  omega

/-- Taking out what has been put in gives the array back. -/
theorem excise_splice (h : p ≤ a.size) (x : Array α) :
    let b := a.extract 0 p ++ x ++ a.extract p a.size
    b.extract 0 p ++ b.extract (p + x.size) b.size = a := by
  intro b
  have hb : b.toList = a.toList.take p ++ x.toList ++ a.toList.drop p := by
    simp only [b, Array.toList_append, toList_extract_zero, toList_extract_size]
  have hp : (a.toList.take p).length = p := by simp [h]
  have hx : (a.toList.take p ++ x.toList).length = p + x.size := by simp [h]
  apply Array.toList_inj.1
  rw [Array.toList_append, toList_extract_zero, toList_extract_size, hb, List.drop_left' hx,
    List.append_assoc, List.take_left' hp, List.take_append_drop]

/-- What has been put in stands where it was put. -/
theorem extract_splice (h : p ≤ a.size) (x : Array α) :
    (a.extract 0 p ++ x ++ a.extract p a.size).extract p (p + x.size) = x := by
  have hp : (a.toList.take p).length = p := by simp [h]
  apply Array.toList_inj.1
  rw [Array.toList_extract, List.extract_eq_take_drop, Array.toList_append, Array.toList_append,
    toList_extract_zero, toList_extract_size, List.append_assoc, List.drop_left' hp,
    List.take_left' (by simp)]

/-- What is put in where a stretch has been taken out stands in its place. -/
theorem splice_excise_eq (h : p + n ≤ a.size) (x : Array α) :
    let b := a.extract 0 p ++ a.extract (p + n) a.size
    b.extract 0 p ++ x ++ b.extract p b.size =
      a.extract 0 p ++ x ++ a.extract (p + n) a.size := by
  intro b
  have hb : b.toList = a.toList.take p ++ a.toList.drop (p + n) := by
    simp only [b, Array.toList_append, toList_extract_zero, toList_extract_size]
  have hp : (a.toList.take p).length = p := by simp; omega
  apply Array.toList_inj.1
  simp only [Array.toList_append, toList_extract_zero, toList_extract_size, hb,
    List.take_left' hp, List.drop_left' hp]

/-- Putting in what has been taken out gives the array back. -/
theorem splice_excise (h : p + n ≤ a.size) :
    let b := a.extract 0 p ++ a.extract (p + n) a.size
    b.extract 0 p ++ a.extract p (p + n) ++ b.extract p b.size = a := by
  refine (splice_excise_eq h _).trans ?_
  rw [Array.extract_append_extract, Nat.zero_min, Nat.max_eq_right (Nat.le_add_right p n),
    Array.extract_append_extract, Nat.zero_min, Nat.max_eq_right h, Array.extract_size]

end

/-! ## Texts -/

namespace Text

variable {t : Text} {p n : Nat}

/-- A stretch of a text is spelled by its characters. -/
theorem toList_extract_eq_map {a e : Nat} (he : e ≤ t.length) :
    (t.extract a e).toList = (List.range' a (e - a)).map t.charAt := by
  refine List.ext_getElem ?_ fun n hn hn' => ?_
  · rw [length_toList, length_extract, Nat.min_eq_left he, List.length_map, List.length_range']
  · have hlt : a + n < t.toList.length := by
      rw [List.length_map, List.length_range'] at hn'
      rw [length_toList]
      omega
    simp only [toList_extract, List.getElem_take, List.getElem_drop, List.getElem_map,
      List.getElem_range', Nat.one_mul]
    rw [charAt_eq, List.getElem?_eq_getElem hlt]
    rfl

/-- Two stretches that meet are one. -/
theorem toList_extract_append {a k e : Nat} (ha : a ≤ k) (he : k ≤ e) :
    (t.extract a k).toList ++ (t.extract k e).toList = (t.extract a e).toList := by
  simp only [toList, extract, ← Array.toList_append]
  rw [Array.extract_append_extract, Nat.min_eq_left ha, Nat.max_eq_right he]

theorem charAt_insert (h : p ≤ t.length) (s : Text) (q : Nat) :
    (t.insert p s).charAt q =
      if q < p then t.charAt q
      else if q < p + s.length then s.charAt (q - p) else t.charAt (q - s.length) := by
  have hp : (t.toList.take p).length = p := by simp [h]
  simp only [charAt_eq, toList_insert h]
  split_ifs with h1 h2
  · rw [List.append_assoc, List.getElem?_append_left (by omega), List.getElem?_take_of_lt h1]
  · rw [List.append_assoc, List.getElem?_append_right (by omega), hp,
      List.getElem?_append_left (by rw [length_toList]; omega)]
  · rw [List.getElem?_append_right (by rw [List.length_append, hp, length_toList]; omega),
      List.getElem?_drop, List.length_append, hp, length_toList]
    congr 2
    omega

theorem charAt_remove (h : p + n ≤ t.length) (q : Nat) :
    (t.remove p (p + n)).charAt q = if q < p then t.charAt q else t.charAt (q + n) := by
  have hp : (t.toList.take p).length = p := by simp; omega
  simp only [charAt_eq, toList_remove (Nat.le_add_right p n) h]
  split_ifs with h1
  · rw [List.getElem?_append_left (by omega), List.getElem?_take_of_lt h1]
  · rw [List.getElem?_append_right (by omega), List.getElem?_drop, hp]
    congr 2
    omega

/-- **Taking out what has been put in gives the text back.** -/
theorem remove_insert (h : p ≤ t.length) (s : Text) :
    (t.insert p s).remove p (p + s.length) = t := by
  have hl : p + s.length ≤ (t.insert p s).length := by rw [length_insert h]; omega
  rw [remove, if_pos ⟨Nat.le_add_right _ _, hl⟩, insert, if_pos h]
  exact congrArg Text.mk (excise_splice h s.chars)

theorem extract_insert (h : p ≤ t.length) (s : Text) :
    (t.insert p s).extract p (p + s.length) = s := by
  rw [insert, if_pos h]
  exact congrArg Text.mk (extract_splice h s.chars)

/-- Putting nothing in changes nothing. -/
theorem insert_of_length_eq_zero {s : Text} (hs : s.length = 0) : t.insert p s = t := by
  unfold insert
  split_ifs with h
  · have hs' : s.chars = #[] := Array.eq_empty_of_size_eq_zero hs
    rw [hs', Array.append_empty, Array.extract_append_extract, Nat.zero_min]
    exact congrArg Text.mk (Array.extract_eq_self_of_le (Nat.le_max_right _ _))
  · rfl

/-- Taking nothing out changes nothing. -/
theorem remove_self (t : Text) (p : Nat) : t.remove p p = t := by
  unfold remove
  split_ifs
  · rw [Array.extract_append_extract, Nat.zero_min]
    exact congrArg Text.mk (Array.extract_eq_self_of_le (Nat.le_max_right _ _))
  · rfl

/-- **Putting in what has been taken out gives the text back.** -/
theorem insert_remove (h : p + n ≤ t.length) :
    (t.remove p (p + n)).insert p (t.extract p (p + n)) = t := by
  have hl : p ≤ (t.remove p (p + n)).length := by
    rw [length_remove (Nat.le_add_right _ _) h]; omega
  rw [insert, if_pos hl, remove, if_pos ⟨Nat.le_add_right _ _, h⟩]
  exact congrArg Text.mk (splice_excise h)

end Text

end StyledText
