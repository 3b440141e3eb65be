/-
  Brackets within brackets.

  The way back from a partner is the way to it, walked from its other end.  Walked
  so, whatever has been opened on it is closed and whatever has been closed is opened:
  the search from the partner comes back to the bracket.  And on the way from a bracket
  to its partner all that is opened is closed again, so a bracket of the same kind
  between the two finds its partner before the outer one does.

  * `Closes.reverse`: the same way from its other end;
  * `Closes.behind` and `exists_closedAt`: what is open somewhere on the way is closed
    further on;
  * `Pairs.symm` and `Pairs.nested`: the same of two partners;
  * `matchBracket?_symm_nested` has the search find it so.
-/
import StyledText.Buffer.Editing
import StyledText.Proofs.BracketMatch

namespace StyledText

/-! ## The way back -/

/-- The other way along a text. -/
def Direction.opposite : Direction → Direction
  | .forward => .backward
  | .backward => .forward

/-- A bracket is the partner of its partner, on the way back. -/
theorem bracketPartner?_partner {own partner : Char} {way : Direction}
    (h : bracketPartner? own = some (partner, way)) :
    bracketPartner? partner = some (own, way.opposite) := by
  unfold bracketPartner? at h
  split at h <;> cases h <;> rfl

theorem Direction.Beyond.opposite {p q : Nat} {way : Direction} (h : way.Beyond p q) :
    way.opposite.Beyond q p := by
  cases way with
  | forward => exact h
  | backward => exact h

theorem Direction.reverse_between (way : Direction) (p q : Nat) :
    (way.between p q).reverse = way.opposite.between q p := by
  cases way with
  | forward => rfl
  | backward => exact List.reverse_reverse _

namespace Buffer

variable {b : Buffer} {counts : Nat → Bool} {own partner : Char} {depth level q : Nat}
  {path met : List Nat}

theorem tally_append (c : Char) (path rest : List Nat) :
    b.tally counts c (path ++ rest) = b.tally counts c path + b.tally counts c rest :=
  List.countP_append

theorem tally_reverse (c : Char) (path : List Nat) :
    b.tally counts c path.reverse = b.tally counts c path := List.countP_reverse

/-- **From its other end, a way on which all that is opened is closed is one on which
    the closing brackets open.** -/
theorem Closes.reverse (h : b.Closes counts own partner 0 path) :
    b.Closes counts partner own 0 path.reverse where
  never_more := by
    intro met hmet
    obtain ⟨rest, hrest⟩ := hmet
    -- What is met first from the other end is what the way ends with.
    have hpath : path = rest.reverse ++ met.reverse := by
      rw [← List.reverse_append, hrest, List.reverse_reverse]
    have hbefore := h.never_more rest.reverse ⟨met.reverse, hpath.symm⟩
    have hall := h.all_closed
    rw [hpath] at hall
    simp only [tally_append, tally_reverse] at hall hbefore
    omega
  all_closed := by
    have hall := h.all_closed
    rw [tally_reverse, tally_reverse]
    omega

/-! ## What is open on the way -/

/-- What is open somewhere on the way is closed on the rest of it. -/
theorem Closes.behind (h : b.Closes counts own partner depth (met ++ path)) :
    b.tally counts partner met ≤ depth + b.tally counts own met ∧
      b.Closes counts own partner
        (depth + b.tally counts own met - b.tally counts partner met) path := by
  have hmet := h.never_more met (List.prefix_append met path)
  refine ⟨hmet, fun further hfurther => ?_, ?_⟩
  · have hmore := h.never_more (met ++ further) ((List.prefix_append_right_inj met).2 hfurther)
    rw [tally_append, tally_append] at hmore
    omega
  · have hall := h.all_closed
    rw [tally_append, tally_append] at hall
    omega

/-- **What lies above a depth is closed down to it**, where all that is open gets closed. -/
theorem exists_closedAt (h : b.Closes counts own partner depth path) (hlt : level < depth) :
    ∃ r, b.ClosedAt counts own partner level path r := by
  induction path generalizing depth level with
  | nil =>
    rw [closes_nil] at h
    omega
  | cons q path ih =>
    obtain ⟨hq, hrest⟩ := closes_cons.1 h
    by_cases hcloses : level = 0 ∧ b.charAt q = partner ∧ counts q
    · exact ⟨q, closedAt_cons.2 (.inl ⟨rfl, hcloses⟩)⟩
    · -- The depth is left above `level`, or it changes with the bracket at `q`.
      have hstill : b.tally counts partner [q] ≤ level + b.tally counts own [q] := by
        rw [tally_singleton]
        split
        · rename_i hpartner
          have : level ≠ 0 := fun hzero => hcloses ⟨hzero, hpartner⟩
          omega
        · omega
      have hbelow : level + b.tally counts own [q] - b.tally counts partner [q] <
          depth + b.tally counts own [q] - b.tally counts partner [q] := by omega
      obtain ⟨r, hr⟩ := ih hrest hbelow
      exact ⟨r, closedAt_cons.2 (.inr ⟨hstill, hr⟩)⟩

/-- What closes on a part of the way closes on the whole. -/
theorem ClosedAt.append {r : Nat} (h : b.ClosedAt counts own partner depth path r)
    (rest : List Nat) : b.ClosedAt counts own partner depth (path ++ rest) r := by
  obtain ⟨met, further, rfl, hr⟩ := h
  exact ⟨met, further ++ rest, by rw [List.append_assoc, List.cons_append], hr⟩

theorem ClosedAt.mem {r : Nat} (h : b.ClosedAt counts own partner depth path r) : r ∈ path := by
  obtain ⟨met, further, rfl, -⟩ := h
  exact List.mem_append_right met List.mem_cons_self

/-! ## Two partners -/

variable {endStyled p p' : Nat} {way : Direction}

/-- Brackets of one style take the same brackets for theirs, and so do all where no style
    is known. -/
theorem takesPart_eq {style style' : UInt8} (h : endStyled = 0 ∨ style' = style) :
    b.takesPart endStyled style' = b.takesPart endStyled style := by
  funext q
  rcases h with rfl | rfl
  · simp [takesPart]
  · rfl

theorem Pairs.closes (h : b.Pairs endStyled p q partner way) :
    b.Closes (b.takesPart endStyled (b.styleAt p)) (b.charAt p) partner 0 (way.between p q) where
  never_more met hmet := by simpa using h.never_more met hmet
  all_closed := by simpa using h.all_closed

/-- The search from a bracket finds its partner. -/
theorem matchBracket?_eq_some (hp : bracketPartner? (b.charAt p) = some (partner, way)) :
    b.matchBracket? p endStyled = some q ↔ b.Pairs endStyled p q partner way := by
  have hwalk := closedAt_walkFrom q endStyled hp
  rw [← closing?_eq_some (ne_partner hp)] at hwalk
  rw [matchBracket?, hp]
  exact hwalk

theorem exists_pairs (h : b.matchBracket? p endStyled = some q) :
    ∃ partner way, bracketPartner? (b.charAt p) = some (partner, way) ∧
      b.Pairs endStyled p q partner way := by
  cases hp : bracketPartner? (b.charAt p) with
  | none =>
    rw [matchBracket?, hp] at h
    cases h
  | some found => exact ⟨found.1, found.2, rfl, (matchBracket?_eq_some hp).1 h⟩

/-- **A bracket is the partner of its partner.** -/
theorem Pairs.symm (h : b.Pairs endStyled p q partner way)
    (hstyle : endStyled = 0 ∨ b.styleAt q = b.styleAt p) :
    b.Pairs endStyled q p (b.charAt p) way.opposite := by
  have hback := h.closes.reverse
  rw [way.reverse_between, ← takesPart_eq hstyle, ← h.charAt_eq] at hback
  constructor
  case beyond => exact h.beyond.opposite
  case charAt_eq => rfl
  case counts => exact hstyle.imp (fun hzero => by omega) Eq.symm
  case never_more =>
    intro met hmet
    simpa using hback.never_more met hmet
  case all_closed => simpa using hback.all_closed

/-- The way from a bracket to its partner goes through every position between them. -/
theorem between_forward (hp : p < p') (hq : p' < q) :
    Direction.forward.between p q =
      Direction.forward.between p p' ++ p' :: Direction.forward.between p' q := by
  have hrest : p' :: List.range' (p' + 1) (q - (p' + 1)) = List.range' p' (q - p') := by
    rw [← List.range'_succ]
    congr 1
    omega
  simp only [Direction.between]
  rw [hrest, show q - (p + 1) = (p' - (p + 1)) + (q - p') by omega, ← List.range'_append_1]
  congr 2
  omega

/-- **A bracket of the same kind between an opening bracket and its partner finds its
    partner before.** -/
theorem Pairs.nested (h : b.Pairs endStyled p q partner .forward)
    (hpartner : bracketPartner? (b.charAt p) = some (partner, .forward)) (hp : p < p')
    (hq : p' < q) (hchar : b.charAt p' = b.charAt p)
    (hstyle : endStyled = 0 ∨ b.styleAt p' = b.styleAt p) :
    ∃ q', b.matchBracket? p' endStyled = some q' ∧ p' < q' ∧ q' < q := by
  have hcloses := h.closes
  rw [between_forward hp hq] at hcloses
  obtain ⟨-, hinner⟩ := hcloses.behind
  obtain ⟨-, hinner⟩ := closes_cons.1 hinner
  -- The bracket at `p'` is open there.
  have hcounts : b.takesPart endStyled (b.styleAt p) p' := by
    rw [takesPart_iff]
    exact hstyle.imp (fun hzero => by omega) id
  have hown : b.tally (b.takesPart endStyled (b.styleAt p)) (b.charAt p) [p'] = 1 := by
    rw [tally_singleton, if_pos ⟨hchar, hcounts⟩]
  have hnot : b.tally (b.takesPart endStyled (b.styleAt p)) partner [p'] = 0 := by
    rw [tally_singleton, if_neg fun hc => ne_partner hpartner (hchar.symm.trans hc.1)]
  rw [hown, hnot] at hinner
  obtain ⟨r, hr⟩ := exists_closedAt hinner (by omega : 0 < _)
  -- Between `p'` and `q`, and so on the way from `p'`.
  have hmem := hr.mem
  simp only [Direction.between, List.mem_range'_1] at hmem
  have hlength : q < b.length := lt_length_of_charAt (h.charAt_eq ▸ partner_ne_nul hpartner)
  have hbeyond : Direction.forward.Beyond p' q := hq
  obtain ⟨rest, hwalk⟩ := exists_walkFrom hbeyond hlength
  have hfound := hr.append (q :: rest)
  rw [← hwalk, ← takesPart_eq hstyle, ← hchar] at hfound
  refine ⟨r, ?_, by omega, by omega⟩
  rw [matchBracket?_eq_some (hchar ▸ hpartner)]
  exact (closedAt_walkFrom r endStyled (hchar ▸ hpartner)).1 hfound

/-- **The search for partners is symmetric and nested.**  If it finds `q` from `p`, and the
    two have one style or no style is known, it finds `p` from `q`.  And from a bracket
    of the same kind, and then of the same style, between an opening bracket at `p` and
    its partner at `q`, it finds a partner before `q`. -/
theorem matchBracket?_symm_nested (b : Buffer) (endStyled p q : Nat)
    (h : b.matchBracket? p endStyled = some q) :
    (endStyled = 0 ∨ b.styleAt q = b.styleAt p → b.matchBracket? q endStyled = some p) ∧
      ((∃ partner, bracketPartner? (b.charAt p) = some (partner, .forward)) →
        ∀ p', p < p' → p' < q → b.charAt p' = b.charAt p →
          endStyled = 0 ∨ b.styleAt p' = b.styleAt p →
            ∃ q', b.matchBracket? p' endStyled = some q' ∧ p' < q' ∧ q' < q) := by
  obtain ⟨partner, way, hpartner, hpairs⟩ := exists_pairs h
  refine ⟨fun hstyle => ?_, ?_⟩
  · have hback : bracketPartner? (b.charAt q) = some (b.charAt p, way.opposite) := by
      rw [hpairs.charAt_eq]
      exact bracketPartner?_partner hpartner
    exact (matchBracket?_eq_some hback).2 (hpairs.symm hstyle)
  · rintro ⟨partner', hforward⟩ p' hp hq hchar hstyle
    obtain ⟨rfl, rfl⟩ := Prod.mk.inj (Option.some.inj (hpartner.symm.trans hforward))
    exact hpairs.nested hpartner hp hq hchar hstyle

/-- A call within a call, with a bracket in a character literal between them. -/
def nestedCall : Buffer :=
  (Buffer.ofText (.ofString "f(')',g(x))")).setStyles 0 #[11, 10, 7, 7, 7, 10, 11, 10, 11, 10, 10]

theorem matchBracket?_symm_nested_nestedCall :
    nestedCall.matchBracket? 1 11 = some 10 ∧ nestedCall.styleAt 10 = nestedCall.styleAt 1 ∧
      nestedCall.matchBracket? 10 11 = some 1 ∧
      (1 < 7 ∧ 7 < 10 ∧ nestedCall.charAt 7 = nestedCall.charAt 1 ∧
        nestedCall.styleAt 7 = nestedCall.styleAt 1) ∧
      ∃ q', nestedCall.matchBracket? 7 11 = some q' ∧ 7 < q' ∧ q' < 10 := by
  have hfound : nestedCall.matchBracket? 1 11 = some 10 := by decide +kernel
  obtain ⟨hsymm, hnested⟩ := matchBracket?_symm_nested nestedCall 11 1 10 hfound
  exact ⟨hfound, by decide, hsymm (.inr (by decide)), by decide,
    hnested ⟨')', by decide⟩ 7 (by decide) (by decide) (by decide) (.inr (by decide))⟩

end Buffer

end StyledText
