/-
  The partner of a bracket, told from the text alone.

  The search for a partner counts up and down along the way.  What it finds can
  be said without it: the partner is the closing bracket before which everything
  opened on the way has been closed, and nothing else has.

  * `IsPartner` says so;
  * `closing?_eq_some` is what the search finds from any depth;
  * `matchBracket?_iff` has the search find the partner, and nothing where there
    is none.
-/
import Mathlib.Data.List.Infix
import Mathlib.Tactic.SplitIfs
import StyledText.Bracket

namespace StyledText

/-! ## The table -/

/-- No bracket is its own partner. -/
theorem ne_partner {own partner : Char} {way : Direction}
    (h : bracketPartner? own = some (partner, way)) : own ≠ partner := by
  rintro rfl
  unfold bracketPartner? at h
  split at h <;> simp at h

theorem partner_ne_nul {own partner : Char} {way : Direction}
    (h : bracketPartner? own = some (partner, way)) : partner ≠ nul := by
  unfold bracketPartner? at h
  split at h <;> cases h <;> decide

/-! ## The way between two positions -/

/-- Whether `q` is met when walking away from `p`. -/
def Direction.Beyond (p q : Nat) : Direction → Prop
  | .forward => p < q
  | .backward => q < p

/-- The positions strictly between `p` and `q`, walking away from `p`. -/
def Direction.between (p q : Nat) : Direction → List Nat
  | .forward => List.range' (p + 1) (q - (p + 1))
  | .backward => (List.range' (q + 1) (p - (q + 1))).reverse

namespace Buffer

theorem between_of_walkFrom {n p q : Nat} {way : Direction} {met rest : List Nat}
    (h : walkFrom n p way = met ++ q :: rest) : way.Beyond p q ∧ met = way.between p q := by
  cases way with
  | forward =>
    obtain ⟨k, hk, rfl, h'⟩ := List.range'_eq_append_iff.1 h
    obtain ⟨rfl, -, -⟩ := List.range'_eq_cons_iff.1 h'.symm
    refine ⟨?_, ?_⟩
    · simp [Direction.Beyond]
      omega
    · rw [Direction.between]
      congr 1
      omega
  | backward =>
    rw [walkFrom, List.reverse_eq_iff, List.range_eq_range'] at h
    simp only [List.reverse_append, List.reverse_cons, List.append_assoc,
      List.singleton_append] at h
    obtain ⟨k, hk, -, h'⟩ := List.range'_eq_append_iff.1 h
    obtain ⟨rfl, hp, hmet⟩ := List.range'_eq_cons_iff.1 h'.symm
    refine ⟨?_, ?_⟩
    · simp [Direction.Beyond]
      omega
    · rw [Direction.between, ← List.reverse_eq_iff, hmet]
      congr 1
      omega

theorem exists_walkFrom {n p q : Nat} {way : Direction} (h : way.Beyond p q) (hq : q < n) :
    ∃ rest, walkFrom n p way = way.between p q ++ q :: rest := by
  cases way with
  | forward =>
    have h : p < q := h
    refine ⟨List.range' (q + 1) (n - (q + 1)), List.range'_eq_append_iff.2 ?_⟩
    refine ⟨q - (p + 1), by omega, rfl, (List.range'_eq_cons_iff.2 ?_).symm⟩
    refine ⟨by omega, by omega, ?_⟩
    congr 1
    omega
  | backward =>
    have h : q < p := h
    refine ⟨(List.range' 0 q).reverse, ?_⟩
    rw [walkFrom, List.reverse_eq_iff, List.range_eq_range', Direction.between]
    simp only [List.reverse_append, List.reverse_cons, List.reverse_reverse, List.append_assoc,
      List.singleton_append]
    refine List.range'_eq_append_iff.2 ⟨q, by omega, rfl, (List.range'_eq_cons_iff.2 ?_).symm⟩
    refine ⟨by omega, by omega, ?_⟩
    congr 1

/-! ## What is opened and closed on the way -/

section
variable (b : Buffer) (counts : Nat → Bool) (own partner : Char)

/-- How many of the positions hold `c` and count. -/
def tally (c : Char) (path : List Nat) : Nat := path.countP fun q => b.charAt q = c ∧ counts q

theorem tally_cons (c : Char) (q : Nat) (path : List Nat) :
    b.tally counts c (q :: path) = b.tally counts c [q] + b.tally counts c path := by
  rw [← List.singleton_append, tally, List.countP_append]
  rfl

theorem tally_singleton (c : Char) (q : Nat) :
    b.tally counts c [q] = if b.charAt q = c ∧ counts q then 1 else 0 := by
  simp [tally, List.countP_singleton]

/-- Along `path`, with `depth` brackets open before it, all that is open gets
    closed and nothing else. -/
structure Closes (depth : Nat) (path : List Nat) : Prop where
  /-- Nowhere on the way has more been closed than opened. -/
  never_more : ∀ met, met <+: path →
    b.tally counts partner met ≤ depth + b.tally counts own met
  /-- At its end everything is closed. -/
  all_closed : b.tally counts partner path = depth + b.tally counts own path

variable {b counts own partner} {depth q : Nat} {path : List Nat}

theorem closes_nil : b.Closes counts own partner depth [] ↔ depth = 0 := by
  constructor
  · intro h
    exact h.all_closed.symm
  · rintro rfl
    refine ⟨fun met hmet => ?_, rfl⟩
    rw [List.prefix_nil.1 hmet]
    exact Nat.zero_le _

theorem closes_cons :
    b.Closes counts own partner depth (q :: path) ↔
      b.tally counts partner [q] ≤ depth + b.tally counts own [q] ∧
        b.Closes counts own partner
          (depth + b.tally counts own [q] - b.tally counts partner [q]) path := by
  constructor
  · intro h
    have hq := h.never_more [q] (by simp)
    refine ⟨hq, fun met hmet => ?_, ?_⟩
    · have := h.never_more (q :: met) ((List.prefix_cons_inj q).2 hmet)
      rw [tally_cons, tally_cons b counts own] at this
      omega
    · have := h.all_closed
      rw [tally_cons, tally_cons b counts own] at this
      omega
  · rintro ⟨hq, h⟩
    refine ⟨fun met hmet => ?_, ?_⟩
    · rcases List.prefix_cons_iff.1 hmet with rfl | ⟨met', rfl, hmet'⟩
      · exact Nat.zero_le _
      · have := h.never_more met' hmet'
        rw [tally_cons, tally_cons b counts own]
        omega
    · have := h.all_closed
      rw [tally_cons, tally_cons b counts own]
      omega

/-! ## The search -/

variable (b counts own partner depth path) in
/-- The position `r` on `path` closes what is open before it. -/
def ClosedAt (r : Nat) : Prop :=
  ∃ met rest, path = met ++ r :: rest ∧ (b.charAt r = partner ∧ counts r) ∧
    b.Closes counts own partner depth met

theorem closedAt_cons {r : Nat} :
    b.ClosedAt counts own partner depth (q :: path) r ↔
      (r = q ∧ depth = 0 ∧ b.charAt q = partner ∧ counts q) ∨
        b.tally counts partner [q] ≤ depth + b.tally counts own [q] ∧
          b.ClosedAt counts own partner
            (depth + b.tally counts own [q] - b.tally counts partner [q]) path r := by
  constructor
  · rintro ⟨met, rest, h, hr, hmet⟩
    rcases List.cons_eq_append_iff.1 h with ⟨rfl, h⟩ | ⟨met, rfl, rfl⟩
    · obtain ⟨rfl, rfl⟩ := List.cons.inj h
      exact Or.inl ⟨rfl, closes_nil.1 hmet, hr⟩
    · obtain ⟨hq, hmet⟩ := closes_cons.1 hmet
      exact Or.inr ⟨hq, met, rest, rfl, hr, hmet⟩
  · rintro (⟨rfl, rfl, hr⟩ | ⟨hq, met, rest, rfl, hr, hmet⟩)
    · exact ⟨[], path, rfl, hr, closes_nil.2 rfl⟩
    · exact ⟨q :: met, rest, rfl, hr, closes_cons.2 ⟨hq, hmet⟩⟩

/-- The search finds the first position that closes what is open before it,
    and there is only one. -/
theorem closing?_eq_some (hne : own ≠ partner) {r : Nat} :
    b.closing? counts own partner depth path = some r ↔
      b.ClosedAt counts own partner depth path r := by
  induction path generalizing depth with
  | nil => simp [closing?, ClosedAt]
  | cons q path ih =>
    rw [closedAt_cons, tally_singleton, tally_singleton]
    by_cases hown : b.charAt q = own ∧ counts q
    · have hpartner : ¬(b.charAt q = partner ∧ counts q) := fun h => hne (hown.1.symm.trans h.1)
      rw [closing?.eq_def]
      dsimp only
      rw [if_pos hown, if_pos hown, if_neg hpartner, ih]
      simp [hpartner]
    · rw [closing?.eq_def]
      dsimp only
      rw [if_neg hown, if_neg hown]
      by_cases hpartner : b.charAt q = partner ∧ counts q
      · rw [if_pos hpartner, if_pos hpartner]
        cases depth with
        | zero => simp [hpartner, eq_comm]
        | succ depth => simp [ih]
      · rw [if_neg hpartner, if_neg hpartner, ih]
        simp [hpartner]

end

/-! ## The partner -/

/-- The position `q` holds the partner of the bracket at `p`, where styles are
    known before `endStyled`. -/
structure Pairs (b : Buffer) (endStyled p q : Nat) (partner : Char) (way : Direction) : Prop where
  /-- It lies after an opening bracket and before a closing one. -/
  beyond : way.Beyond p q
  /-- It holds the partner's character. -/
  charAt_eq : b.charAt q = partner
  /-- It is past the styled part or has the style of the bracket at `p`. -/
  counts : endStyled ≤ q ∨ b.styleAt q = b.styleAt p
  /-- Nowhere between the two have more partners been met than brackets like
      the one at `p`. -/
  never_more : ∀ met, met <+: way.between p q →
    b.tally (b.takesPart endStyled (b.styleAt p)) partner met ≤
      b.tally (b.takesPart endStyled (b.styleAt p)) (b.charAt p) met
  /-- Between the two there are as many of the one as of the other. -/
  all_closed : b.tally (b.takesPart endStyled (b.styleAt p)) partner (way.between p q) =
    b.tally (b.takesPart endStyled (b.styleAt p)) (b.charAt p) (way.between p q)

/-- There is a bracket at `p`, and `q` holds its partner. -/
def IsPartner (b : Buffer) (endStyled p q : Nat) : Prop :=
  ∃ partner way, bracketPartner? (b.charAt p) = some (partner, way) ∧
    b.Pairs endStyled p q partner way

theorem takesPart_iff (b : Buffer) (endStyled q : Nat) (style : UInt8) :
    b.takesPart endStyled style q ↔ endStyled ≤ q ∨ b.styleAt q = style := by
  simp [takesPart]

theorem lt_length_of_charAt {b : Buffer} {q : Nat} (h : b.charAt q ≠ nul) : q < b.length := by
  by_contra hq
  exact h (Text.charAt_of_length_le (Nat.le_of_not_lt hq))

theorem closedAt_walkFrom {b : Buffer} {p : Nat} {partner : Char} {way : Direction}
    (q endStyled : Nat) (hp : bracketPartner? (b.charAt p) = some (partner, way)) :
    b.ClosedAt (b.takesPart endStyled (b.styleAt p)) (b.charAt p) partner 0
        (walkFrom b.length p way) q ↔ b.Pairs endStyled p q partner way := by
  constructor
  · rintro ⟨met, rest, h, ⟨hq, hcounts⟩, hmet⟩
    obtain ⟨hbeyond, rfl⟩ := between_of_walkFrom h
    refine ⟨hbeyond, hq, (takesPart_iff ..).1 hcounts, fun met h => ?_, ?_⟩
    · simpa using hmet.never_more met h
    · simpa using hmet.all_closed
  · intro h
    have hq : q < b.length := lt_length_of_charAt (h.charAt_eq ▸ partner_ne_nul hp)
    obtain ⟨rest, hwalk⟩ := exists_walkFrom h.beyond hq
    refine ⟨_, rest, hwalk, ⟨h.charAt_eq, (takesPart_iff ..).2 h.counts⟩, fun met hmet => ?_, ?_⟩
    · simpa using h.never_more met hmet
    · simpa using h.all_closed

/-- **The search from a position finds the partner of the bracket there, and
    nothing exactly when there is none.** -/
theorem matchBracket?_iff (b : Buffer) (p endStyled : Nat) :
    (∀ q, b.matchBracket? p endStyled = some q ↔ b.IsPartner endStyled p q) ∧
      (b.matchBracket? p endStyled = none ↔ ¬∃ q, b.IsPartner endStyled p q) := by
  have found : ∀ q, b.matchBracket? p endStyled = some q ↔ b.IsPartner endStyled p q := by
    intro q
    rw [matchBracket?, IsPartner]
    cases hp : bracketPartner? (b.charAt p) with
    | none => simp
    | some pair =>
      obtain ⟨partner, way⟩ := pair
      have hwalk := closedAt_walkFrom q endStyled hp
      rw [← closing?_eq_some (ne_partner hp)] at hwalk
      simpa using hwalk
  refine ⟨found, ?_⟩
  rw [Option.eq_none_iff_forall_ne_some, not_exists]
  exact forall_congr' fun q => not_congr (found q)

end Buffer

end StyledText
