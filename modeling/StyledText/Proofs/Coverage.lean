/-
  Windows that are styled to their end.

  A scan moves its cursor by a few moves only, whatever the text, the settings
  and the words.  None of them loses a character: everything before the cursor
  is styled or lies in the open run, so at the end of the window a last commit
  leaves nothing without a style.

  * `Covers` is this invariant, and `Reaches.covers` says that the moves keep it;
  * `exists_run_eq`: a run takes no more steps than there are characters, and
    comes to the end of the window;
  * `lex_covers`: the lexer styles its window completely.
-/
import Mathlib.Logic.Function.Iterate
import StyledText.CFamily

namespace StyledText.CFamily

/-- The byte stands for a style. -/
def IsStyle (code : UInt8) : Prop := ∃ style : Style, style.code = code

/-! ## What the moves of a cursor keep -/

namespace Scan

variable {c c' : Cursor} {w : Window}

/-- **Everything before the cursor is styled or lies in the open run**, and all
    styles are styles of the language. -/
structure Covers (c : Cursor) : Prop where
  boundary_le : c.window.boundary ≤ c.pos
  pos_le : c.pos ≤ c.window.stop
  pending : ∀ code ∈ c.window.pending, IsStyle code
  state : IsStyle c.state

theorem covers_ofWindow (hw : w.pending = #[]) (hs : w.start ≤ w.stop) (style : Style) :
    Covers (.ofWindow w style.code) where
  boundary_le := by simp [Cursor.ofWindow, Window.boundary, hw]
  pos_le := hs
  pending := by simp [Cursor.ofWindow, hw]
  state := ⟨style, rfl⟩

theorem Covers.advance (h : Covers c) : Covers c.advance where
  boundary_le := by
    rw [Cursor.window_advance]
    exact Nat.le_trans h.boundary_le (Cursor.pos_le_advance c)
  pos_le := by
    rw [Cursor.window_advance, Cursor.pos_advance]
    have := h.pos_le
    split <;> omega
  pending := by
    rw [Cursor.window_advance]
    exact h.pending
  state := by
    rw [Cursor.state_advance]
    exact h.state

theorem Covers.pending_commitBefore (h : Covers c) :
    ∀ code ∈ (c.window.commitBefore c.pos c.state).pending, IsStyle code := by
  intro code hcode
  simp only [Window.commitBefore, Array.mem_append, Array.mem_replicate] at hcode
  rcases hcode with hold | ⟨-, rfl⟩
  · exact h.pending code hold
  · exact h.state

theorem Covers.switchTo (h : Covers c) (next : Style) : Covers (c.switchTo next.code) where
  boundary_le := by
    simp only [Cursor.switchTo, Window.boundary_commitBefore]
    have := h.boundary_le
    omega
  pos_le := h.pos_le
  pending := h.pending_commitBefore
  state := ⟨next, rfl⟩

theorem Covers.recolour (h : Covers c) (next : Style) : Covers (c.recolour next.code) where
  boundary_le := h.boundary_le
  pos_le := h.pos_le
  pending := h.pending
  state := ⟨next, rfl⟩

theorem Reaches.covers (h : Reaches c c') (hc : Covers c) : Covers c' := by
  induction h with
  | refl => exact hc
  | advance _ ih => exact ih.advance
  | switchTo _ next ih => exact ih.switchTo next
  | recolour _ next ih => exact ih.recolour next

theorem Reaches.start_eq (h : Reaches c c') : c'.window.start = c.window.start := by
  induction h with
  | refl => rfl
  | advance _ ih => rw [Cursor.window_advance, ih]
  | switchTo _ _ ih => exact ih
  | recolour _ _ ih => exact ih

/-! ## Runs to the end of the window -/

variable (d : Dialect) (s : Scan)

theorem reaches_run : Reaches s.cursor (s.run d).cursor := by
  fun_induction run d s with
  | case1 s _ ih => exact (reaches_step d s).trans ih
  | case2 => exact .refl

theorem reaches_closeWord : Reaches s.cursor (s.closeWord d).cursor := by
  unfold closeWord
  split
  · exact reaches_applyLeave d s _ _
  · exact reaches_applyLeave d s _ _
  · exact .refl

/-- **A run ends at the end of the window**, after one step for each character
    at most. -/
theorem exists_run_eq :
    ∃ k ≤ s.cursor.window.stop - s.cursor.pos, s.run d = (step d)^[k] s ∧
      s.cursor.window.stop ≤ (s.run d).cursor.pos := by
  fun_induction run d s with
  | case1 s inside ih =>
    obtain ⟨k, hk, hrun, hstop⟩ := ih
    have moved := pos_lt_step d inside
    rw [stop_step] at hk hstop
    exact ⟨k + 1, by omega, hrun, hstop⟩
  | case2 s outside => exact ⟨0, Nat.zero_le _, rfl, Nat.le_of_not_lt outside⟩

end Scan

/-! ## The window that is styled -/

variable (settings : Settings) (w : Window) (style : Style)

/-- A window is moved back or left as it is. -/
theorem reopen_eq_or :
    (reopen settings w style).1 = w ∨ ∃ p, (reopen settings w style).1 = w.extendBack p := by
  cases style with
  | identifier | keyword | keyword2 | globalClass | docKeyword =>
    unfold reopen
    dsimp only
    split
    · exact Or.inr ⟨_, rfl⟩
    · exact Or.inl rfl
  | _ => exact Or.inl rfl

theorem stop_reopen : (reopen settings w style).1.stop = w.stop := by
  rcases reopen_eq_or settings w style with h | ⟨p, h⟩
  · rw [h]
  · rw [h, Window.stop_extendBack]

theorem start_reopen_le : (reopen settings w style).1.start ≤ w.start := by
  rcases reopen_eq_or settings w style with h | ⟨p, h⟩
  · exact Nat.le_of_eq (congrArg Window.start h)
  · rw [h, Window.extendBack]
    split
    · rename_i hp
      exact Nat.le_of_lt hp.1
    · exact Nat.le_refl _

theorem pending_reopen : (reopen settings w style).1.pending = w.pending := by
  rcases reopen_eq_or settings w style with h | ⟨p, h⟩
  · rw [h]
  · rw [h, Window.extendBack]
    split <;> rfl

variable {w}

/-- **The window `w` is styled completely**: its end is kept, its start is kept
    or lies further back, and each character between has a style of the
    language. -/
structure Completes (w : Window) (r : Lexed) : Prop where
  stop_eq : r.window.stop = w.stop
  start_le : r.window.start ≤ w.start
  boundary_eq : r.window.boundary = r.window.stop
  pending : ∀ code ∈ r.window.pending, IsStyle code
  endStyle : IsStyle r.endStyle

theorem Completes.size_pending {r : Lexed} (h : Completes w r) :
    r.window.pending.size = r.window.stop - r.window.start := by
  rw [← h.boundary_eq, Window.boundary]
  omega

/-- As many styles are asked for as the window had characters. -/
theorem Completes.size_stylesFrom {r : Lexed} (h : Completes w r) :
    (Lexer.stylesFrom r.window w.start).size = w.stop - w.start := by
  have := h.start_le
  simp only [Lexer.stylesFrom, Array.size_extract, h.size_pending, h.stop_eq]
  omega

namespace Dialect

variable (d : Dialect) (initial : UInt8)

/-- The scan at the start of the window, moved back to the beginning of a
    word. -/
def opening (d : Dialect) (w : Window) (initial : UInt8) : Scan :=
  let opened := reopen d.settings w (.ofCode initial)
  .ofWindow opened.1 opened.2

theorem scan_eq (w : Window) :
    d.scan w initial = (((d.opening w initial).run d).closeWord d).finish := rfl

/-- The cursor when the word at the end of the window is closed. -/
theorem reaches_closed (s : Scan) : Scan.Reaches s.cursor ((s.run d).closeWord d).cursor :=
  (Scan.reaches_run d s).trans (Scan.reaches_closeWord d _)

theorem covers_opening (hw : w.pending = #[]) (hs : w.start ≤ w.stop) :
    Scan.Covers (d.opening w initial).cursor := by
  refine Scan.covers_ofWindow ?_ ?_ _
  · rw [pending_reopen, hw]
  · rw [stop_reopen]
    exact Nat.le_trans (start_reopen_le _ _ _) hs

theorem start_lex (w : Window) :
    (d.lex w initial).window.start = (d.opening w initial).cursor.pos :=
  (reaches_closed d (d.opening w initial)).start_eq

theorem stop_lex (w : Window) : (d.lex w initial).window.stop = w.stop :=
  (reaches_closed d (d.opening w initial)).stop_eq.trans (stop_reopen _ _ _)

/-- The lexer styles a window completely in which nothing has been styled yet. -/
theorem completes_lex (hw : w.pending = #[]) (hs : w.start ≤ w.stop) :
    Completes w (d.lex w initial) := by
  have hcov := (reaches_closed d (d.opening w initial)).covers (d.covers_opening initial hw hs)
  refine ⟨d.stop_lex initial w, ?_, ?_, hcov.pending_commitBefore, hcov.state⟩
  · rw [start_lex]
    exact start_reopen_le _ _ _
  · -- The last commit begins before the cursor, and the cursor is at the end.
    have hend : (((d.opening w initial).run d).closeWord d).cursor.window.stop ≤
        (((d.opening w initial).run d).closeWord d).cursor.pos := by
      obtain ⟨k, -, -, hend⟩ := Scan.exists_run_eq d (d.opening w initial)
      rw [(reaches_closed d _).stop_eq]
      exact Nat.le_trans hend (Scan.reaches_closeWord d _).pos_le
    have h1 := hcov.boundary_le
    have h2 := hcov.pos_le
    simp only [lex, scan_eq, Scan.finish, Cursor.finish, Window.boundary_commitBefore,
      Window.stop_commitBefore]
    omega

/-- **The lexer styles its window completely.**  For any text, settings, words
    and first style, the scan takes one step for each character at most.  It
    leaves the end of the window where it is and its start where it is or
    further back, and then each character between has one of the styles of the
    language.  So the styles of a stretch of text are as many as its
    characters. -/
theorem lex_covers (d : Dialect) (b : Buffer) (start n : Nat) (initial : UInt8) :
    let w := Window.ofBuffer b start n
    let r := d.lex w initial
    (∃ k ≤ r.window.stop - r.window.start,
      (d.opening w initial).run d = (Scan.step d)^[k] (d.opening w initial)) ∧
    r.window.stop = w.stop ∧ r.window.start ≤ w.start ∧
    r.window.boundary = r.window.stop ∧
    r.window.pending.size = r.window.stop - r.window.start ∧
    (∀ code ∈ r.window.pending, IsStyle code) ∧ IsStyle r.endStyle ∧
    ∀ text : Text, (d.lexer.lexText text start n initial).size =
      min (start + n) text.length - min start text.length := by
  intro w r
  have complete (b : Buffer) :
      Completes (.ofBuffer b start n) (d.lex (.ofBuffer b start n) initial) := by
    refine d.completes_lex initial rfl ?_
    simp only [Window.ofBuffer]
    omega
  have hr : Completes w r := complete b
  refine ⟨?_, hr.stop_eq, hr.start_le, hr.boundary_eq, hr.size_pending, hr.pending, hr.endStyle,
    fun text => ?_⟩
  · obtain ⟨k, hk, hrun, -⟩ := Scan.exists_run_eq d (d.opening w initial)
    refine ⟨k, ?_, hrun⟩
    rw [d.start_lex, d.stop_lex, ← stop_reopen d.settings w (.ofCode initial)]
    exact hk
  · have hlen : (Buffer.ofText text).length = text.length := rfl
    have hsize : (d.lexer.lexText text start n initial).size = _ :=
      (complete (.ofText text)).size_stylesFrom
    rw [hsize]
    simp only [Window.ofBuffer, hlen]
    omega

end Dialect

end StyledText.CFamily
