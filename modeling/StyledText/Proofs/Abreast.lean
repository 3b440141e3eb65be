/-
  Two cursors side by side.

  Two windows can show the same text up to a limit behind which they differ, or
  the same text to the end.  Cursors that walk them side by side see the same,
  as long as they stay before the limit; and if the limit is the start of a
  line, they know that it is ahead, since the line before it ends.

  * `Window.Matches`: two windows show the same before a limit;
  * `Cursor.Abreast`: two cursors are at the same place, and see the same;
  * `advance`, `switchTo`, `recolour` and `skipWhile` keep cursors abreast;
  * `surroundings`, `lookingAt_eq` and `openRun_eq`: what they see is the same to
    the end of the line.
-/
import StyledText.Proofs.LineSight

namespace StyledText

/-- `q` lies before the limit, if there is one. -/
def Before (limit : Option Nat) (q : Nat) : Prop := ∀ b ∈ limit, q < b

theorem before_none (q : Nat) : Before none q := fun _ hb => absurd hb (Option.not_mem_none _)

theorem Before.mono {limit : Option Nat} {p q : Nat} (h : Before limit q) (hp : p ≤ q) :
    Before limit p := fun b hb => Nat.lt_of_le_of_lt hp (h b hb)

/-! ## Windows that show the same -/

namespace Window

/-- A line ends with the character at `q`, which is in the window. -/
def EndsLine (w : Window) (q : Nat) : Prop :=
  q < w.stop ∧ Cursor.endsLine (w.charOrSpace q) (w.charOrSpace (q + 1)) q w.stop = true ∧
    isLineBreak (w.charOrSpace q) = true

/-- **`w'` shows what `w` shows before the limit**, and the limit is the start of
    a line in both.  Without a limit they show the same throughout, and end at
    the same place.  The line at the limit is not joined to the one before it. -/
structure Matches (limit : Option Nat) (w w' : Window) : Prop where
  char_eq : ∀ q, Before limit q → w'.charOrSpace q = w.charOrSpace q
  stop_eq : limit = none → w'.stop = w.stop
  ends : ∀ b ∈ limit, ∃ q, b = q + 1 ∧ w.EndsLine q ∧ w'.EndsLine q
  unjoined : ∀ b ∈ limit, ∀ q, w.charOrSpace q = '\\' →
    isLineBreak (w.charOrSpace (q + 1)) = true →
      q + 2 ≠ b ∧ (w.charOrSpace (q + 1) = '\r' → w.charOrSpace (q + 2) = '\n' → q + 3 ≠ b)
  stop_le : w.stop ≤ w.length
  stop_le' : w'.stop ≤ w'.length

variable {limit : Option Nat} {w w' : Window} {q : Nat}

theorem Matches.inside_iff (h : Matches limit w w') (hq : Before limit q) :
    q < w'.stop ↔ q < w.stop := by
  cases limit with
  | none => rw [h.stop_eq rfl]
  | some b =>
    obtain ⟨p, hb, hp, hp'⟩ := h.ends b rfl
    have := hq b rfl
    exact iff_of_true (by have := hp'.1; omega) (by have := hp.1; omega)

theorem charOr_of_lt {filler : Char} (hq : q < w.length) : w.charOr q filler = w.charAt q :=
  if_neg fun h => absurd h.2 (Nat.not_le.2 hq)

/-- The line goes on before the limit behind a character that does not end it. -/
theorem Matches.before_succ (h : Matches limit w w') (hq : Before limit q)
    (hc : isLineBreak (w.charOrSpace q) = false) : Before limit (q + 1) := by
  intro b hb
  obtain ⟨p, rfl, hp, -⟩ := h.ends b hb
  have := hq _ hb
  rcases Nat.lt_or_ge q p with hlt | hge
  · omega
  · obtain rfl : q = p := by omega
    rw [hp.2.2] at hc
    exact absurd hc (by decide)

/-- **A line before the limit ends at the same place in both windows**, also where
    the next one is not shown alike. -/
theorem Matches.endsLine_eq (h : Matches limit w w') (hq : Before limit q) :
    Cursor.endsLine (w'.charOrSpace q) (w'.charOrSpace (q + 1)) q w'.stop =
      Cursor.endsLine (w.charOrSpace q) (w.charOrSpace (q + 1)) q w.stop := by
  by_cases hq' : Before limit (q + 1)
  · simp only [Cursor.endsLine, h.char_eq _ hq, h.char_eq _ hq', ← Nat.not_lt, h.inside_iff hq]
  · -- Right before the limit the line ends in both windows, whatever follows.
    obtain ⟨hends, hends'⟩ : w.EndsLine q ∧ w'.EndsLine q := by
      simp only [Before, not_forall] at hq'
      obtain ⟨b, hb, hge⟩ := hq'
      obtain ⟨p, rfl, hp⟩ := h.ends b hb
      have hlt := hq _ hb
      obtain rfl : p = q := by omega
      exact hp
    exact hends'.2.1.trans hends.2.1.symm

end Window

namespace Cursor

variable {limit : Option Nat} {c c' : Cursor}

theorem advance_of_lt (inside : c.pos < c.window.stop) :
    c.advance =
      { c with
        pos := c.pos + 1
        prev := c.ch
        ch := c.next
        next := c.window.charOrSpace (c.pos + 2)
        atLineStart := c.atLineEnd
        atLineEnd :=
          endsLine c.next (c.window.charOrSpace (c.pos + 2)) (c.pos + 1) c.window.stop } := by
  rw [advance, if_pos (by simpa [more] using inside)]

theorem advance_of_not_lt (outside : ¬ c.pos < c.window.stop) :
    c.advance =
      { c with prev := ' ', ch := ' ', next := ' ', atLineStart := false, atLineEnd := true } := by
  rw [advance, if_neg (by simpa [more] using outside)]

/-! ## Cursors that see the same -/

/-- Within its window, a cursor sees what the window shows. -/
structure Sees (c : Cursor) : Prop where
  ch_eq : c.pos < c.window.stop → c.ch = c.window.charOrSpace c.pos
  next_eq : c.pos < c.window.stop → c.next = c.window.charOrSpace (c.pos + 1)
  atLineEnd_eq : c.pos < c.window.stop → c.atLineEnd =
    endsLine (c.window.charOrSpace c.pos) (c.window.charOrSpace (c.pos + 1)) c.pos c.window.stop

theorem Sees.advance (h : c.Sees) : c.advance.Sees := by
  by_cases inside : c.pos < c.window.stop
  · rw [advance_of_lt inside]
    exact ⟨fun _ => h.next_eq inside, fun _ => rfl, fun _ => by rw [← h.next_eq inside]⟩
  · rw [advance_of_not_lt inside]
    exact ⟨fun h => absurd h inside, fun h => absurd h inside, fun h => absurd h inside⟩

/-- **Two cursors are at the same place before the limit, and see the same.** -/
structure Abreast (limit : Option Nat) (c c' : Cursor) : Prop where
  windows : c.window.Matches limit c'.window
  before : Before limit c.pos
  pos_eq : c'.pos = c.pos
  state_eq : c'.state = c.state
  prev_eq : c'.prev = c.prev
  ch_eq : c'.ch = c.ch
  next_eq : Before limit (c.pos + 1) → c'.next = c.next
  atLineStart_eq : c'.atLineStart = c.atLineStart
  atLineEnd_eq : c'.atLineEnd = c.atLineEnd
  sees : c.Sees
  sees' : c'.Sees

namespace Abreast

theorem inside_iff (h : Abreast limit c c') :
    c'.pos < c'.window.stop ↔ c.pos < c.window.stop := by
  rw [h.pos_eq]
  exact h.windows.inside_iff h.before

/-- Behind its window a cursor has no limit ahead. -/
theorem before_of_outside (h : Abreast limit c c') (outside : ¬ c.pos < c.window.stop) (q : Nat) :
    Before limit q := by
  intro b hb
  obtain ⟨p, rfl, hp, -⟩ := h.windows.ends b hb
  have := h.before _ hb
  have := hp.1
  omega

theorem before_succ (h : Abreast limit c c') (hc : isLineBreak c.ch = false) :
    Before limit (c.pos + 1) := by
  by_cases inside : c.pos < c.window.stop
  · exact h.windows.before_succ h.before (h.sees.ch_eq inside ▸ hc)
  · exact h.before_of_outside inside _

theorem before_succ_succ (h : Abreast limit c c') (hc : isLineBreak c.ch = false)
    (hn : isLineBreak c.next = false) : Before limit (c.pos + 2) := by
  by_cases inside : c.pos < c.window.stop
  · exact h.windows.before_succ (h.before_succ hc) (h.sees.next_eq inside ▸ hn)
  · exact h.before_of_outside inside _

/-- **Cursors that move on together stay abreast before the limit.** -/
theorem advance (h : Abreast limit c c') (hb : Before limit (c.pos + 1)) :
    Abreast limit c.advance c'.advance where
  windows := by simpa only [window_advance] using h.windows
  before := by
    rw [pos_advance]
    split
    · exact hb
    · exact h.before
  pos_eq := by simp only [pos_advance, h.pos_eq, h.windows.inside_iff h.before]
  state_eq := by simpa only [state_advance] using h.state_eq
  prev_eq := by
    by_cases inside : c.pos < c.window.stop
    · simpa only [advance_of_lt inside, advance_of_lt (h.inside_iff.2 inside)] using h.ch_eq
    · rw [advance_of_not_lt inside, advance_of_not_lt (mt h.inside_iff.1 inside)]
  ch_eq := by
    by_cases inside : c.pos < c.window.stop
    · simpa only [advance_of_lt inside, advance_of_lt (h.inside_iff.2 inside)] using h.next_eq hb
    · rw [advance_of_not_lt inside, advance_of_not_lt (mt h.inside_iff.1 inside)]
  next_eq := by
    by_cases inside : c.pos < c.window.stop
    · simp only [advance_of_lt inside, advance_of_lt (h.inside_iff.2 inside), h.pos_eq]
      exact h.windows.char_eq _
    · simp [advance_of_not_lt inside, advance_of_not_lt (mt h.inside_iff.1 inside)]
  atLineStart_eq := by
    by_cases inside : c.pos < c.window.stop
    · simpa only [advance_of_lt inside, advance_of_lt (h.inside_iff.2 inside)] using
        h.atLineEnd_eq
    · rw [advance_of_not_lt inside, advance_of_not_lt (mt h.inside_iff.1 inside)]
  atLineEnd_eq := by
    by_cases inside : c.pos < c.window.stop
    · have hnext' := h.sees'.next_eq (h.inside_iff.2 inside)
      simp only [advance_of_lt inside, advance_of_lt (h.inside_iff.2 inside), hnext',
        h.sees.next_eq inside, h.pos_eq]
      exact h.windows.endsLine_eq hb
    · rw [advance_of_not_lt inside, advance_of_not_lt (mt h.inside_iff.1 inside)]
  sees := h.sees.advance
  sees' := h.sees'.advance

/-- Runs can be closed and recoloured without a look at the text. -/
theorem switchTo (h : Abreast limit c c') (state : UInt8) :
    Abreast limit (c.switchTo state) (c'.switchTo state) :=
  { h with
    windows := { h.windows with }
    state_eq := rfl
    sees := { h.sees with }
    sees' := { h.sees' with } }

theorem recolour (h : Abreast limit c c') (state : UInt8) :
    Abreast limit (c.recolour state) (c'.recolour state) :=
  { h with
    state_eq := rfl
    sees := { h.sees with }
    sees' := { h.sees' with } }

theorem skipWhile {p : Char → Bool} (hp : ∀ ch, p ch = true → isLineBreak ch = false)
    (h : Abreast limit c c') : Abreast limit (c.skipWhile p) (c'.skipWhile p) := by
  fun_induction Cursor.skipWhile p c generalizing c' with
  | case1 c inside hch ih =>
    rw [Cursor.skipWhile.eq_def p c', dif_pos (h.inside_iff.2 inside), if_pos (h.ch_eq ▸ hch)]
    exact ih (h.advance (h.before_succ (hp _ hch)))
  | case2 c inside hch =>
    rw [Cursor.skipWhile.eq_def p c', dif_pos (h.inside_iff.2 inside), if_neg (h.ch_eq ▸ hch)]
    exact h
  | case3 c outside =>
    rw [Cursor.skipWhile.eq_def p c', dif_neg (mt h.inside_iff.1 outside)]
    exact h

/-! ## What they see -/

/-- **Cursors that are abreast see the same to the end of the line.** -/
theorem surroundings (h : Abreast limit c c') : c.surroundings.SameLine c'.surroundings where
  prev_eq := h.prev_eq
  ch_eq := h.ch_eq
  atLineStart_eq := h.atLineStart_eq
  atLineEnd_eq := h.atLineEnd_eq
  next_eq hc := h.next_eq (h.before_succ hc)
  next2_eq hc hn := by
    simp only [Cursor.surroundings, peek, h.pos_eq]
    exact h.windows.char_eq _ (h.before_succ_succ hc hn)
  next3_eq hc hn hn2 := by
    simp only [Cursor.surroundings, peek, h.pos_eq]
    exact h.windows.char_eq _ (h.windows.before_succ (h.before_succ_succ hc hn) hn2)

theorem all_peek_eq (h : Abreast limit c c') {cs : List Char}
    (hcs : ∀ ch ∈ cs, isLineBreak ch = false) {k : Nat} (hk : Before limit (c.pos + k)) :
    (cs.zipIdx k).all (fun (expected, n) => c'.peek n == expected) =
      (cs.zipIdx k).all fun (expected, n) => c.peek n == expected := by
  induction cs generalizing k with
  | nil => rfl
  | cons ch cs ih =>
    have hpeek : c'.peek k = c.peek k := by
      simp only [peek, h.pos_eq]
      exact h.windows.char_eq _ hk
    rw [List.zipIdx_cons, List.all_cons, List.all_cons]
    dsimp only
    rw [hpeek]
    by_cases hch : c.peek k = ch
    · have hbreak : isLineBreak (c.window.charOrSpace (c.pos + k)) = false := by
        rw [show c.window.charOrSpace (c.pos + k) = ch from hch]
        exact hcs ch List.mem_cons_self
      have hk' : Before limit (c.pos + k + 1) := h.windows.before_succ hk hbreak
      rw [ih (fun ch hmem => hcs ch (List.mem_cons_of_mem _ hmem)) hk']
    · rw [beq_false_of_ne hch, Bool.false_and, Bool.false_and]

theorem lookingAt_eq (h : Abreast limit c c') {cs : List Char}
    (hcs : ∀ ch ∈ cs, isLineBreak ch = false) : c'.lookingAt cs = c.lookingAt cs :=
  h.all_peek_eq hcs h.before

/-- Open runs that begin at the same place have the same text. -/
theorem openRun_eq (h : Abreast limit c c') (hb : c'.window.boundary = c.window.boundary)
    (hp : c.pos ≤ c.window.stop) (hp' : c'.pos ≤ c'.window.stop) : c'.openRun = c.openRun := by
  have hlen := h.windows.stop_le
  have hlen' := h.windows.stop_le'
  unfold openRun Window.textRange
  rw [hb, Nat.min_eq_left (by omega), Nat.min_eq_left (by omega), h.pos_eq]
  refine List.map_congr_left fun q hq => ?_
  rw [List.mem_range'_1] at hq
  have hchar := h.windows.char_eq q (h.before.mono (by omega))
  rwa [Window.charOrSpace, Window.charOrSpace, Window.charOr_of_lt (by rw [h.pos_eq] at hp'; omega),
    Window.charOr_of_lt (by omega)] at hchar

end Abreast

end Cursor

end StyledText
