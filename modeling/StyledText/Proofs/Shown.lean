/-
  The styles that a cursor shows.

  Behind a cursor, a position shows its committed style, or the style of the open
  run if none is committed.  Only a change of the open run's style changes what
  is shown, and what is committed stays for good.

  * `Window.committed?` and `Cursor.shown` are the styles;
  * `Reaches.committed?_eq`: a committed style stays;
  * `Painted`: two cursors show the same from some place on, and `advance`,
    `switchTo`, `recolour` and `skipWhile` keep it so.
-/
import StyledText.Proofs.Abreast
import StyledText.Proofs.Coverage

namespace StyledText

/-! ## Committed and shown -/

namespace Window

variable {w : Window} {p q : Nat} {style : UInt8}

/-- The style committed at `q`. -/
def committed? (w : Window) (q : Nat) : Option UInt8 :=
  if w.start ≤ q then w.pending[q - w.start]? else none

theorem committed?_eq_none_iff (hq : w.start ≤ q) : w.committed? q = none ↔ w.boundary ≤ q := by
  rw [committed?, if_pos hq, Array.getElem?_eq_none_iff, boundary]
  omega

theorem committed?_of_lt_start (hq : q < w.start) : w.committed? q = none :=
  if_neg (Nat.not_le.2 hq)

theorem committed?_of_boundary_le (hq : w.boundary ≤ q) : w.committed? q = none :=
  (committed?_eq_none_iff (Nat.le_trans (Nat.le_add_right _ _) hq)).2 hq

/-- **A commit gives its style to what had none**, and changes no other. -/
theorem committed?_commitBefore :
    (w.commitBefore p style).committed? q =
      if w.boundary ≤ q ∧ q < min p w.stop then some style else w.committed? q := by
  by_cases hq : w.start ≤ q
  · simp only [committed?, if_pos hq, commitBefore, Array.getElem?_append,
      boundary, Array.getElem?_replicate]
    by_cases hb : w.start + w.pending.size ≤ q
    · rw [if_neg (by omega)]
      by_cases hp : q < min p w.stop
      · rw [if_pos (by omega), if_pos ⟨hb, hp⟩]
      · rw [if_neg (by omega), if_neg fun h => hp h.2, Array.getElem?_eq_none (by omega)]
    · rw [if_pos (by omega), if_neg fun h => hb h.1]
  · have hb : ¬ (w.boundary ≤ q ∧ q < min p w.stop) := by
      intro h
      have := h.1
      simp only [boundary] at this
      omega
    rw [if_neg hb, committed?_of_lt_start (by simpa using hq),
      committed?_of_lt_start (by simpa using hq)]

end Window

namespace Cursor

variable {c : Cursor} {q : Nat} {state : UInt8}

/-- The style that `q` shows: the committed one, or that of the open run. -/
def shown (c : Cursor) (q : Nat) : UInt8 := (c.window.committed? q).getD c.state

@[simp] theorem shown_advance : c.advance.shown q = c.shown q := by
  rw [shown, window_advance, state_advance, shown]

theorem shown_of_boundary_le (hq : c.window.boundary ≤ q) : c.shown q = c.state := by
  rw [shown, Window.committed?_of_boundary_le hq]
  rfl

/-- A run that is closed before the cursor commits what was shown. -/
theorem committed?_close (hs : c.window.start ≤ q) (hq : q < c.pos) (hp : c.pos ≤ c.window.stop) :
    (c.window.commitBefore c.pos c.state).committed? q = some (c.shown q) := by
  rw [Window.committed?_commitBefore, Nat.min_eq_left hp]
  by_cases hb : c.window.boundary ≤ q
  · rw [if_pos ⟨hb, hq⟩, shown_of_boundary_le hb]
  · rw [if_neg fun h => hb h.1]
    obtain ⟨old, hold⟩ := Option.ne_none_iff_exists'.1
      (mt (Window.committed?_eq_none_iff hs).1 hb)
    rw [shown, hold, Option.getD_some]

theorem shown_switchTo (hs : c.window.start ≤ q) (hq : q < c.pos) (hp : c.pos ≤ c.window.stop) :
    (c.switchTo state).shown q = c.shown q := by
  rw [shown, switchTo, committed?_close hs hq hp, Option.getD_some]

theorem shown_recolour_of_lt (hs : c.window.start ≤ q) (hq : q < c.window.boundary) :
    (c.recolour state).shown q = c.shown q := by
  obtain ⟨old, hold⟩ := Option.ne_none_iff_exists'.1
    (mt (Window.committed?_eq_none_iff hs).1 (Nat.not_le.2 hq))
  simp only [shown, recolour, hold, Option.getD_some]

end Cursor

namespace CFamily

namespace Scan

variable {c c' : Cursor} {q : Nat} {style : UInt8}

/-- **A committed style stays.** -/
theorem Reaches.committed?_eq (h : Reaches c c') (hq : c.window.committed? q = some style) :
    c'.window.committed? q = some style := by
  induction h with
  | refl => exact hq
  | advance _ ih => rwa [Cursor.window_advance]
  | @switchTo c' _ _ ih =>
    rw [Cursor.switchTo, Window.committed?_commitBefore, if_neg, ih]
    intro h
    rw [Window.committed?_of_boundary_le h.1] at ih
    exact absurd ih.symm (Option.some_ne_none style)
  | recolour _ _ ih => exact ih

theorem Reaches.exists_pending (h : Reaches c c') :
    ∃ pending, c'.window = { c.window with pending } := by
  induction h with
  | refl => exact ⟨_, rfl⟩
  | advance _ ih => rwa [Cursor.window_advance]
  | switchTo _ _ ih =>
    obtain ⟨pending, ih⟩ := ih
    exact ⟨_, by rw [Cursor.switchTo, Window.commitBefore, ih]⟩
  | recolour _ _ ih => exact ih

/-- What windows show does not hang on what is committed in them. -/
theorem Reaches.matches {limit : Option Nat} {e e' : Cursor} (h : Reaches c c')
    (h' : Reaches e e') (hw : c.window.Matches limit e.window) :
    c'.window.Matches limit e'.window := by
  obtain ⟨pending, hc⟩ := h.exists_pending
  obtain ⟨pending', he⟩ := h'.exists_pending
  rw [hc, he]
  exact { hw with }

theorem Covers.code_ofCode (h : Covers c) : (Style.ofCode c.state).code = c.state := by
  obtain ⟨style, hstyle⟩ := h.state
  rw [← hstyle, Style.ofCode_code]

/-- A run that is closed at the cursor leaves nothing open before it. -/
theorem Covers.boundary_switchTo (h : Covers c) (state : UInt8) :
    (c.switchTo state).window.boundary = c.pos := by
  rw [Cursor.switchTo, Window.boundary_commitBefore, Nat.min_eq_left h.pos_le]
  exact Nat.max_eq_right h.boundary_le

end Scan

/-! ## The same styles behind two cursors -/

variable {limit : Option Nat} {start : Nat} {c c' : Cursor}

/-- **From `start` on, two cursors at the same place show the same styles behind
    them**, and a run that may still be recoloured is open from the same place
    on. -/
structure Painted (start : Nat) (c c' : Cursor) : Prop where
  covers : Scan.Covers c
  covers' : Scan.Covers c'
  start_le : c.window.start ≤ start
  start_le' : c'.window.start ≤ start
  run_eq : (Style.ofCode c.state).isTentative = true → c'.window.boundary = c.window.boundary
  shown_eq : ∀ q, start ≤ q → q < c.pos → c'.shown q = c.shown q

namespace Painted

theorem advance (h : Painted start c c') (ha : c.Abreast limit c') :
    Painted start c.advance c'.advance where
  covers := h.covers.advance
  covers' := h.covers'.advance
  start_le := by simpa using h.start_le
  start_le' := by simpa using h.start_le'
  run_eq := by simpa using h.run_eq
  shown_eq := by
    intro q hq hlt
    rw [Cursor.shown_advance, Cursor.shown_advance]
    rcases Nat.lt_or_ge q c.pos with hold | hnew
    · exact h.shown_eq q hq hold
    · -- What the cursor has just passed over is in the open run.
      have hb := h.covers.boundary_le
      have hb' := h.covers'.boundary_le
      have hpos := ha.pos_eq
      rw [Cursor.shown_of_boundary_le (by omega), Cursor.shown_of_boundary_le (by omega),
        ha.state_eq]

theorem switchTo (h : Painted start c c') (ha : c.Abreast limit c') (next : Style) :
    Painted start (c.switchTo next.code) (c'.switchTo next.code) where
  covers := h.covers.switchTo next
  covers' := h.covers'.switchTo next
  start_le := h.start_le
  start_le' := h.start_le'
  run_eq _ := by rw [h.covers.boundary_switchTo, h.covers'.boundary_switchTo, ha.pos_eq]
  shown_eq := by
    intro q hq hlt
    have hpos : q < c'.pos := ha.pos_eq ▸ hlt
    rw [Cursor.shown_switchTo (Nat.le_trans h.start_le' hq) hpos h.covers'.pos_le,
      Cursor.shown_switchTo (Nat.le_trans h.start_le hq) hlt h.covers.pos_le]
    exact h.shown_eq q hq hlt

/-- Only a run that is open from the same place on is recoloured. -/
theorem recolour (h : Painted start c c') (hs : (Style.ofCode c.state).isTentative = true)
    (next : Style) : Painted start (c.recolour next.code) (c'.recolour next.code) where
  covers := h.covers.recolour next
  covers' := h.covers'.recolour next
  start_le := h.start_le
  start_le' := h.start_le'
  run_eq _ := h.run_eq hs
  shown_eq := by
    intro q hq hlt
    have hrun := h.run_eq hs
    rcases Nat.lt_or_ge q c.window.boundary with hold | hopen
    · rw [Cursor.shown_recolour_of_lt (Nat.le_trans h.start_le' hq) (hrun ▸ hold),
        Cursor.shown_recolour_of_lt (Nat.le_trans h.start_le hq) hold]
      exact h.shown_eq q hq hlt
    · have hopen' : (c'.recolour next.code).window.boundary ≤ q := hrun ▸ hopen
      have hopen'' : (c.recolour next.code).window.boundary ≤ q := hopen
      rw [Cursor.shown_of_boundary_le hopen', Cursor.shown_of_boundary_le hopen'']
      rfl

theorem skipWhile {p : Char → Bool} (hp : ∀ ch, p ch = true → isLineBreak ch = false)
    (h : Painted start c c') (ha : c.Abreast limit c') :
    Painted start (c.skipWhile p) (c'.skipWhile p) := by
  fun_induction Cursor.skipWhile p c generalizing c' with
  | case1 c inside hch ih =>
    rw [Cursor.skipWhile.eq_def p c', dif_pos (ha.inside_iff.2 inside), if_pos (ha.ch_eq ▸ hch)]
    exact ih (h.advance ha) (ha.advance (ha.before_succ (hp _ hch)))
  | case2 c inside hch =>
    rw [Cursor.skipWhile.eq_def p c', dif_pos (ha.inside_iff.2 inside), if_neg (ha.ch_eq ▸ hch)]
    exact h
  | case3 c outside =>
    rw [Cursor.skipWhile.eq_def p c', dif_neg (mt ha.inside_iff.1 outside)]
    exact h

end Painted

end CFamily

end StyledText
