/-
  What a cursor sees on its way.

  A cursor looks at three characters and does not ask the line table again once it
  has started.  Whether a line ends with a character hangs on this one and the next
  only, and the table says the same, so the two agree at every place of the window,
  wherever it begins and ends.

  * `Buffer.mem_starts_succ_iff`: where a line ends, by the two characters there;
  * `Cursor.Faces`: a cursor sees the characters around it, and knows whether a line
    starts or ends there;
  * `faces_ofWindow` and `Faces.advance`: so it is at the start of a window, and each
    move keeps it;
  * `Move`, `apply` and `run`: what can be done with a cursor;
  * `run_ofWindow`: what it sees after any moves within the window.
-/
import StyledText.Proofs.LineParts
import StyledText.Proofs.WindowRun

namespace StyledText

/-! ## The characters around a place -/

namespace Buffer

variable {b : Buffer} {p stop : Nat}

/-- The character before `p`, or a space before the first one. -/
def charBefore (b : Buffer) (p : Nat) : Char := if p = 0 then ' ' else b.charOrSpace (p - 1)

theorem charBefore_succ : b.charBefore (p + 1) = b.charOrSpace p := rfl

theorem charOrSpace_of_lt (hp : p < b.length) : b.charOrSpace p = b.text.charAt p := by
  rw [charOrSpace, Text.charAt, Array.getElem?_eq_getElem hp]
  rfl

/-- Past the end there is no line feed. -/
theorem charOrSpace_eq_lf_iff : b.charOrSpace p = '\n' ↔ b.text.charAt p = '\n' := by
  rcases Nat.lt_or_ge p b.length with hlt | hge
  · rw [charOrSpace_of_lt hlt]
  · have hspace : b.charOrSpace p = ' ' := by
      rw [charOrSpace, Array.getElem?_eq_none hge]
      rfl
    rw [hspace, Text.charAt_of_length_le hge]
    decide

/-- **A line starts behind a place as the two characters there tell.** -/
theorem Consistent.mem_starts_succ_iff (h : b.Consistent) (hp : p < stop)
    (hstop : stop ≤ b.length) :
    p + 1 ∈ b.lines.starts ↔
      Cursor.endsLine (b.charOrSpace p) (b.charOrSpace (p + 1)) p stop = true := by
  have hlt : p < b.length := Nat.lt_of_lt_of_le hp hstop
  have hline : p + 1 ∈ b.lines.starts ↔ b.text.isLineStart (p + 1) = true := by
    rw [h.mem_starts]
    constructor
    · rintro (hzero | ⟨-, hline⟩)
      · exact absurd hzero (Nat.succ_ne_zero p)
      · exact hline
    · exact fun hline => Or.inr ⟨hlt, hline⟩
  have hends : Cursor.endsLine (b.charOrSpace p) (b.charOrSpace (p + 1)) p stop = true ↔
      b.text.charAt p = '\n' ∨ b.text.charAt p = '\r' ∧ b.text.charAt (p + 1) ≠ '\n' := by
    rw [ne_eq, ← charOrSpace_eq_lf_iff (p := p + 1), ← charOrSpace_of_lt hlt]
    simp only [Cursor.endsLine, Nat.not_le.2 hp, decide_false, Bool.or_false, Bool.or_eq_true,
      Bool.and_eq_true, beq_iff_eq, bne_iff_ne, ne_eq]
    exact or_comm
  rw [hline, Text.isLineStart_succ_iff, hends]

end Buffer

namespace Cursor

variable {b : Buffer} {c : Cursor} {w : Window} {state : UInt8}

/-! ## One move -/

/-- **The cursor faces its place of the buffer**: it sees the characters at, after and
    before it, and knows whether a line starts there, and whether one ends there while it
    is in the window. -/
structure Faces (b : Buffer) (c : Cursor) : Prop where
  mirrors : c.window.Mirrors b
  ch_eq : c.ch = b.charOrSpace c.pos
  next_eq : c.next = b.charOrSpace (c.pos + 1)
  prev_eq : c.prev = b.charBefore c.pos
  atLineStart_iff : c.atLineStart = true ↔ c.pos ∈ b.lines.starts
  atLineEnd_iff : c.pos < c.window.stop → (c.atLineEnd = true ↔ c.pos + 1 ∈ b.lines.starts)

theorem faces_ofWindow (hw : w.Mirrors b) (hb : b.Consistent) (initial : UInt8) :
    (ofWindow w initial).Faces b where
  mirrors := hw
  ch_eq := hw.charOrSpace_eq w.start
  next_eq := hw.charOrSpace_eq (w.start + 1)
  prev_eq := by
    have hstop := hw.stop_le
    have hboundary := hw.boundary_le
    have hstart := w.start_le_boundary
    change (if w.start = 0 then ' ' else w.charAt (w.start - 1)) = b.charBefore w.start
    rw [Buffer.charBefore]
    split_ifs with hzero
    · rfl
    · rw [hw.charAt_eq, Buffer.charOrSpace_of_lt (by omega)]
      rfl
  atLineStart_iff := by
    have hlen : w.start ≤ b.length :=
      Nat.le_trans w.start_le_boundary (Nat.le_trans hw.boundary_le hw.stop_le)
    obtain rfl := hw.source_eq
    rw [hb.mem_starts]
    refine (CFamily.Dialect.lineStart_beq_iff hb hlen).trans (or_congr_right ?_)
    exact ⟨fun hline => ⟨hlen, hline⟩, And.right⟩
  atLineEnd_iff inside := by
    rw [hb.mem_starts_succ_iff inside hw.stop_le, ← hw.charOrSpace_eq, ← hw.charOrSpace_eq]
    rfl

/-- **A move to the next character keeps the cursor facing its place.** -/
theorem Faces.advance (h : c.Faces b) (hb : b.Consistent) (inside : c.pos < c.window.stop) :
    c.advance.Faces b := by
  have hnext : c.window.charOrSpace (c.pos + 2) = b.charOrSpace (c.pos + 2) :=
    h.mirrors.charOrSpace_eq _
  rw [advance_of_lt inside, hnext]
  refine ⟨h.mirrors, h.next_eq, rfl, ?_, h.atLineEnd_iff inside, fun inside' => ?_⟩
  · rw [Buffer.charBefore_succ]
    exact h.ch_eq
  · rw [hb.mem_starts_succ_iff inside' h.mirrors.stop_le, ← h.next_eq]

/-- What is committed and in which state is nothing that the cursor sees. -/
theorem Faces.switchTo (h : c.Faces b) (state : UInt8) : (c.switchTo state).Faces b :=
  { h with mirrors := h.mirrors.commitBefore _ _ }

theorem Faces.recolour (h : c.Faces b) (state : UInt8) : (c.recolour state).Faces b := { h with }

theorem Faces.finish (h : c.Faces b) : c.finish.Faces b :=
  { h with mirrors := h.mirrors.commitBefore _ _ }

/-! ## Any moves -/

/-- What can be done with a cursor. -/
inductive Move where
  | advance
  | switchTo (state : UInt8)
  | switchAfter (state : UInt8)
  | recolour (state : UInt8)
  | finish

/-- The cursor after a move. -/
def apply (c : Cursor) : Move → Cursor
  | .advance => c.advance
  | .switchTo state => c.switchTo state
  | .switchAfter state => c.switchAfter state
  | .recolour state => c.recolour state
  | .finish => c.finish

/-- The cursor after some moves, first one first. -/
def run (c : Cursor) (moves : List Move) : Cursor := moves.foldl apply c

/-- The number of characters that a move goes on by. -/
def Move.steps : Move → Nat
  | .advance | .switchAfter _ => 1
  | .switchTo _ | .recolour _ | .finish => 0

/-- The number of characters that some moves go on by. -/
def steps : List Move → Nat
  | [] => 0
  | move :: moves => move.steps + steps moves

theorem stop_apply (c : Cursor) (move : Move) : (c.apply move).window.stop = c.window.stop := by
  cases move with
  | advance => exact c.stop_advance
  | switchTo state => rfl
  | switchAfter state => exact c.stop_advance
  | recolour state => rfl
  | finish => rfl

theorem pos_apply {move : Move} (h : c.pos + move.steps ≤ c.window.stop) :
    (c.apply move).pos = c.pos + move.steps := by
  cases move with
  | advance => exact (pos_advance c).trans (if_pos h)
  | switchTo state => rfl
  | switchAfter state => exact (pos_advance c).trans (if_pos h)
  | recolour state => rfl
  | finish => rfl

/-- **A move within the window keeps the cursor facing its place.** -/
theorem Faces.apply (h : c.Faces b) (hb : b.Consistent) {move : Move}
    (hmove : c.pos + move.steps ≤ c.window.stop) : (c.apply move).Faces b := by
  cases move with
  | advance => exact h.advance hb hmove
  | switchTo state => exact h.switchTo state
  | switchAfter state => exact (h.advance hb hmove).switchTo state
  | recolour state => exact h.recolour state
  | finish => exact h.finish

/-- **Moves within the window go on by their number of characters**, and the cursor
    faces its place behind them. -/
theorem Faces.run (h : c.Faces b) (hb : b.Consistent) {moves : List Move}
    (hmoves : c.pos + steps moves ≤ c.window.stop) :
    (c.run moves).Faces b ∧ (c.run moves).pos = c.pos + steps moves ∧
      (c.run moves).window.stop = c.window.stop := by
  induction moves generalizing c with
  | nil => exact ⟨h, rfl, rfl⟩
  | cons move moves ih =>
    rw [steps, ← Nat.add_assoc] at hmoves ⊢
    have hmove : c.pos + move.steps ≤ c.window.stop := by omega
    have hrest : (c.apply move).pos + steps moves ≤ (c.apply move).window.stop := by
      rwa [pos_apply hmove, stop_apply]
    obtain ⟨hfaces, hpos, hstop⟩ := ih (h.apply hb hmove) hrest
    rw [pos_apply hmove] at hpos
    exact ⟨hfaces, hpos, hstop.trans (stop_apply c move)⟩

/-- **What a cursor sees after any moves within its window.**  Whatever edits the buffer has
    come from, wherever the window on it begins and ends, and whatever has been done to the
    window before: the cursor has gone on by one character for each move to the next one,
    it sees the characters at, after and before it, with spaces where there are none, and
    it is at the start of a line exactly if the table of the buffer has its position, and, in
    the window, at the end of a line exactly if the table has the next one. -/
theorem run_ofWindow (edits : List Buffer.Op) (start n : Nat) (ops : List Window.Op)
    (initial : UInt8) (moves : List Move) :
    let b := Buffer.empty.run edits
    let w := (Window.ofBuffer b start n).run ops
    let c := (ofWindow w initial).run moves
    w.start + steps moves ≤ w.stop →
      c.pos = w.start + steps moves ∧ c.ch = b.charOrSpace c.pos ∧
      c.next = b.charOrSpace (c.pos + 1) ∧ c.prev = b.charBefore c.pos ∧
      (c.atLineStart = true ↔ c.pos ∈ b.lines.starts) ∧
      (c.pos < w.stop → (c.atLineEnd = true ↔ c.pos + 1 ∈ b.lines.starts)) := by
  intro b w c hmoves
  have hb : b.Consistent := (Buffer.sound_empty.run edits).toConsistent
  have hw : w.Mirrors b := (Window.mirrors_ofBuffer b start n).run ops
  obtain ⟨hc, hpos, hstop⟩ := (faces_ofWindow hw hb initial).run hb hmoves
  refine ⟨hpos, hc.ch_eq, hc.next_eq, hc.prev_eq, hc.atLineStart_iff, fun inside => ?_⟩
  exact hc.atLineEnd_iff (hstop.symm ▸ inside)

/-- A window that holds only the line feed of a line end, whose carriage return has been
    put in later: the cursor does not start at the start of a line, and comes to one at the
    end of its window. -/
theorem run_ofWindow_splitLineEnd :
    let edits : List Buffer.Op := [.insert 0 (.ofList ['a', '\n', 'b']), .insert 1 (.ofList ['\r'])]
    let b := Buffer.empty.run edits
    let ops : List Window.Op := [.commitBefore 1 9, .extendBack 2]
    let w := (Window.ofBuffer b 2 1).run ops
    let moves : List Move := [.switchTo 3, .switchAfter 5]
    let c := (ofWindow w 0).run moves
    w.start + steps moves ≤ w.stop ∧ c.pos = 3 ∧ c.ch = 'b' ∧ c.next = ' ' ∧ c.prev = '\n' ∧
      (ofWindow w 0).atLineStart = false ∧ c.atLineStart = true ∧ b.lines.starts = [0, 3] := by
  intro edits b ops w moves c
  have inside : w.start + steps moves ≤ w.stop := by decide
  have hstart : ¬ w.start ∈ b.lines.starts := by decide
  have hend : 3 ∈ b.lines.starts := by decide
  obtain ⟨-, -, -, -, hbegin, -⟩ := run_ofWindow edits 2 1 ops 0 [] (by decide)
  obtain ⟨hpos, hch, hnext, hprev, hline, -⟩ := run_ofWindow edits 2 1 ops 0 moves inside
  have hpos : c.pos = 3 := hpos
  rw [hpos] at hch hnext hprev hline
  exact ⟨inside, hpos, hch, hnext, hprev, Bool.eq_false_iff.2 (mt hbegin.1 hstart), hline.2 hend,
    by decide⟩

end Cursor

end StyledText
