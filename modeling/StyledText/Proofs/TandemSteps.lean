/-
  Steps of two scans on texts with different line ends.

  Two scans take the same steps side by side, but at the end of a line one of them may
  take a step more; and a directive that has nothing behind its mark ends before a line
  feed, but only at the start of the next line if a carriage return comes first.

  * `Scan.settle`: a directive that ends at the start of a line is closed there;
  * `step_settle`: which makes no difference to the step;
  * `Tandem.exists_pass`: scans that pass the end of a line are in tandem behind it;
  * `Tandem.exists_closeDirective` and `Tandem.exists_unclosed`: so are those that leave a
    directive or an open literal there, one of them later than the other;
  * `Tandem.exists_step`: so they are after each step.
-/
import StyledText.Proofs.TandemMoves

namespace StyledText

namespace Cursor

/-- The style of the open run has no part in where a cursor moves. -/
theorem advance_recolour (c : Cursor) (state : UInt8) :
    (c.recolour state).advance = c.advance.recolour state := by
  by_cases inside : c.pos < c.window.stop
  · have inside' : (c.recolour state).pos < (c.recolour state).window.stop := inside
    rw [advance_of_lt inside, advance_of_lt inside']
    rfl
  · have outside' : ¬ (c.recolour state).pos < (c.recolour state).window.stop := inside
    rw [advance_of_not_lt inside, advance_of_not_lt outside']
    rfl

end Cursor

namespace CFamily

namespace Scan

variable {d : Dialect} {e : LineEnd} {s t : Scan} {what : Enter}

/-! ## Passing the end of a line -/

/-- The scan with a directive closed that ends at the start of the line. -/
def settle (s : Scan) : Scan :=
  if s.cursor.atLineStart ∧ s.style = .directive then s.switchTo .plain else s

theorem memory_settle (s : Scan) : s.settle.memory = s.memory := by
  unfold settle
  split <;> rfl

theorem settle_of_style_ne (hs : s.style ≠ .directive) : s.settle = s := if_neg fun h => hs h.2

theorem settle_of_directive (hstart : s.cursor.atLineStart = true) (hs : s.style = .directive) :
    s.settle = s.switchTo .plain := if_pos ⟨hstart, hs⟩

/-- A directive can be closed before the line is begun or behind that. -/
theorem beginLine_switchTo_plain (hs : s.style = .directive) :
    (s.switchTo .plain).beginLine = s.beginLine.switchTo .plain := by
  have hplain : ¬ ((s.switchTo .plain).style = .string ∨
      (s.switchTo .plain).style = .character) := by
    rw [style_switchTo]
    decide
  have hdirective : ¬ (s.style = .string ∨ s.style = .character) := by
    rw [hs]
    decide
  unfold beginLine
  dsimp only
  rw [if_neg hplain, if_neg hdirective]
  show (if s.cursor.atLineStart then _ else _) = _
  split <;> rfl

theorem continued_beginLine : s.beginLine.memory.continued = s.memory.continued := by
  unfold beginLine
  split
  · dsimp only [remember]
    split <;> rfl
  · rfl

theorem leaveStyle_switchTo_plain (s : Scan) :
    (s.switchTo .plain).leaveStyle d = s.switchTo .plain := by
  rw [leaveStyle, leaving, style_switchTo]
  rfl

/-- **Where a line starts, a directive may be closed before the step.** -/
theorem step_settle (hc : s.memory.continued = false)
    (hover : s.settle.beginLine.atContinuation = false) : s.settle.step d = s.step d := by
  unfold settle at hover ⊢
  split at hover
  case isFalse hopen => rw [if_neg hopen]
  rename_i hclose
  rw [if_pos hclose]
  obtain ⟨hstart, hs⟩ := hclose
  have hover' : s.beginLine.atContinuation = false := by
    rw [beginLine_switchTo_plain hs] at hover
    exact hover
  have hcursor : s.beginLine.cursor = s.cursor :=
    cursor_beginLine (by rw [hs]; decide) (by rw [hs]; decide)
  have hmemory : s.beginLine.memory.continued = false := by
    rw [continued_beginLine, hc]
  have hleave : s.beginLine.leaving d = .switch .plain := by
    have hline : (s.beginLine.cursor.surroundings.atLineStart &&
        !s.beginLine.memory.continued) = true := by
      rw [hmemory, hcursor]
      exact (Bool.and_true _).trans hstart
    rw [leaving, style_beginLine, hs, leave, leaveDirective, if_pos hline]
  rw [step_of_not_atContinuation hover', step_of_not_atContinuation hover,
    beginLine_switchTo_plain hs, leaveStyle_of_switch hleave, leaveStyle_switchTo_plain]

theorem Tidy.settle (h : s.Tidy) : s.settle.Tidy := by
  unfold Scan.settle
  split
  · exact h.move (Reaches.refl.switchTo _) h.sane rfl rfl
  · exact h

/-- Nothing but the line end is passed at the end of a line. -/
theorem enterAndPass_of_isLineBreak (hb : isLineBreak s.cursor.ch = true) :
    s.enterAndPass d = s.passChar := by
  cases hwhat : s.entering? d with
  | none => exact enterAndPass_of_none hwhat
  | some what => exact absurd (not_isLineBreak_of_entering? hwhat) (by rw [hb]; decide)

theorem atContinuation_of_isLineBreak (hb : isLineBreak s.cursor.ch = true) :
    s.atContinuation = false := by
  rw [atContinuation, beq_false_of_ne, Bool.false_and]
  intro hch
  rw [hch] at hb
  cases hb

theorem step_of_isLineBreak (hb : isLineBreak s.beginLine.cursor.ch = true)
    (hleft : isLineBreak (s.beginLine.leaveStyle d).cursor.ch = true) :
    s.step d = (s.beginLine.leaveStyle d).passChar := by
  rw [step_of_not_atContinuation (atContinuation_of_isLineBreak hb),
    enterAndPass_of_isLineBreak hleft]

theorem beginLine_of_not_atLineStart (h : s.cursor.atLineStart = false) : s.beginLine = s := by
  rw [beginLine, if_neg]
  rw [h]
  exact Bool.false_ne_true

theorem beq_of_isLineBreak {c x : Char} (hb : isLineBreak c = true) (hx : isLineBreak x = false) :
    (c == x) = false := by
  refine beq_false_of_ne ?_
  rintro rfl
  rw [hb] at hx
  exact nomatch hx

/-- At the end of a line a directive goes on or is closed. -/
theorem leaving_directive_of_isLineBreak (hb : isLineBreak s.cursor.ch = true)
    (hs : s.style = .directive) : s.leaving d = .stay ∨ s.leaving d = .switch .plain := by
  have hb : isLineBreak s.cursor.surroundings.ch = true := hb
  rw [leaving, hs, leave, leaveDirective]
  simp only [isSpace_of_isLineBreak hb, beq_of_isLineBreak hb (x := '/') rfl,
    beq_of_isLineBreak hb (x := '"') rfl, beq_of_isLineBreak hb (x := '<') rfl,
    beq_of_isLineBreak hb (x := '\'') rfl, Bool.false_and]
  split_ifs <;> simp

/-- **At the end of a line that has begun before, a settled style goes on**, but a
    directive may be closed. -/
theorem leaving_of_isLineBreak (hb : isLineBreak s.cursor.ch = true)
    (hstart : s.cursor.atLineStart = false) (hset : s.style.isSettled = true) :
    s.leaving d = .stay ∨ s.style = .directive ∧ s.leaving d = .switch .plain := by
  by_cases hs : s.style = .directive
  · exact (leaving_directive_of_isLineBreak hb hs).imp_right fun h => ⟨hs, h⟩
  have hb : isLineBreak s.cursor.surroundings.ch = true := hb
  have hne {x : Char} (hx : isLineBreak x = false) := beq_of_isLineBreak hb hx
  have hline : s.cursor.surroundings.atLineStart = false := hstart
  rw [leaving]
  generalize s.style = style at hset hs
  left
  cases style with
  | plain => rfl
  | directive => exact absurd rfl hs
  | blockComment => simp [leave, closesComment, hne (x := '*') rfl]
  | docComment =>
    simp [leave, closesComment, beginsDocKeyword, hne (x := '*') rfl, hne (x := '@') rfl,
      hne (x := '\\') rfl]
  | lineComment | unclosed => simp [leave, hline]
  | docLineComment =>
    simp [leave, beginsDocKeyword, hline, hne (x := '@') rfl, hne (x := '\\') rfl]
  | verbatim => simp [leave, hne (x := '"') rfl]
  | regex => simp [leave, hline, hne (x := '/') rfl, hne (x := '\\') rfl]
  | _ => cases hset

theorem passChar_of_isLineBreak (hb : isLineBreak s.cursor.ch = true) :
    s.passChar = (s.remember fun m => { m with continued := false }).advance := by
  rw [passChar_eq, isSpace_of_isLineBreak hb]
  rfl

/-- Moves over the end of a line. -/
def passEnd (e : LineEnd) (s : Scan) : Scan :=
  match e with
  | .cr => s.passChar
  | .crlf => s.passChar.passChar

namespace Tandem

theorem settle (h : Tandem e s t) : Tandem e s.settle t.settle := by
  unfold Scan.settle
  rw [h.cursor.atLineStart_eq, h.style_eq]
  split
  · exact h.switchTo .plain
  · exact h

/-- Behind the carriage return of a line end the second scan comes to its line feed. -/
theorem lineFeed_left (h : Tandem .crlf s t) (hb : isLineBreak s.cursor.ch = true) :
    t.passChar.cursor.pos < t.passChar.cursor.window.stop ∧ t.passChar.cursor.ch = '\n' ∧
      t.passChar.cursor.atLineStart = false := by
  obtain ⟨hend, hsecond, hlf⟩ := h.cursor.atLineEnd_crlf hb
  have inside' := h.cursor.inside_iff.2 (h.cursor.whole.inside_of_isLineBreak hb)
  rw [cursor_passChar]
  refine ⟨hsecond, hlf, ?_⟩
  rw [Cursor.advance_of_lt inside']
  exact hend

/-- **Scans that pass the end of a line are in tandem behind it.** -/
theorem passBreak (h : Tandem e s t) (hb : isLineBreak s.cursor.ch = true)
    (hl : s.style.isLookedUp = false) : Tandem e s.passChar (t.passEnd e) := by
  have hb' : isLineBreak t.cursor.ch = true := h.cursor.ch.isLineBreak_eq.trans hb
  have hcursor := h.cursor.passBreak hb hl
  have hmemory : { t.memory with continued := false } = { s.memory with continued := false } := by
    rw [h.memory_eq]
  cases e with
  | cr =>
    rw [passEnd, passChar_of_isLineBreak hb, passChar_of_isLineBreak hb']
    exact ⟨hcursor, hmemory, h.literal_eq, rfl⟩
  | crlf =>
    obtain ⟨-, hlf, -⟩ := h.lineFeed_left hb
    have hb'' : isLineBreak t.passChar.cursor.ch = true := by
      rw [hlf]
      rfl
    rw [passEnd, passChar_of_isLineBreak hb'', passChar_of_isLineBreak hb,
      passChar_of_isLineBreak hb']
    exact ⟨hcursor, hmemory, h.literal_eq, rfl⟩

/-- It makes no difference whether a run is closed before or behind the end of a line. -/
theorem swap_left (h : Tandem e (s.passChar.switchTo .plain) t) (hw : s.cursor.Whole)
    (hb : isLineBreak s.cursor.ch = true) : Tandem e ((s.switchTo .plain).passChar) t := by
  have hb' : isLineBreak (s.switchTo .plain).cursor.ch = true := hb
  rw [passChar_of_isLineBreak hb] at h
  rw [passChar_of_isLineBreak hb']
  exact { h with cursor := h.cursor.congr_left (Cursor.sameInk_swap hw hb Style.plain.code) rfl }

theorem swap_right (h : Tandem e s (t.passChar.switchTo .plain)) (hw : t.cursor.Whole)
    (hb : isLineBreak t.cursor.ch = true) (hs : s.style = .plain) :
    Tandem e s ((t.switchTo .plain).passChar) := by
  have hb' : isLineBreak (t.switchTo .plain).cursor.ch = true := hb
  have hl : (Style.ofCode s.cursor.state).isLookedUp = false := by
    rw [show Style.ofCode s.cursor.state = .plain from hs]
    rfl
  rw [passChar_of_isLineBreak hb] at h
  rw [passChar_of_isLineBreak hb']
  exact { h with cursor := h.cursor.congr_right (Cursor.sameInk_swap hw hb Style.plain.code) hl }

/-- **Scans that pass a character come to be in tandem again**, if they may pass the end
    of a line there. -/
theorem exists_pass (h : Tandem e s t) (hmay : s.MayPass) :
    ∃ t', Visits d t.passChar t' ∧ Tandem e s.passChar.settle t'.settle := by
  by_cases hb : isLineBreak s.cursor.ch = true
  case neg =>
    rw [Bool.not_eq_true] at hb
    exact ⟨t.passChar, .refl, (h.passChar hb).settle⟩
  have hset := hmay (h.cursor.atLineEnd_of_isLineBreak hb) hb
  have hl : s.style.isLookedUp = false := by
    cases hs : s.style <;> rw [hs] at hset <;> first | rfl | exact nomatch hset
  have hpass := h.passBreak hb hl
  cases e with
  | cr => exact ⟨t.passChar, .refl, hpass.settle⟩
  | crlf =>
    -- The line feed is left to the second scan.
    obtain ⟨hsecond, hlf, hstart⟩ := h.lineFeed_left hb
    have hb' : isLineBreak t.passChar.cursor.ch = true := by
      rw [hlf]
      rfl
    have hstyle : t.passChar.style = s.style := by rw [style_passChar, h.style_eq]
    have hbegin := beginLine_of_not_atLineStart hstart
    refine ⟨t.passChar.step d, Visits.refl.step hsecond, ?_⟩
    rcases leaving_of_isLineBreak (d := d) hb' hstart (hstyle ▸ hset) with hstay | ⟨hs, hclose⟩
    · have hleft := leaveStyle_of_stay hstay
      rw [step_of_isLineBreak (by rw [hbegin]; exact hb') (by rw [hbegin, hleft]; exact hb'),
        hbegin, hleft]
      exact hpass.settle
    · have hleft := leaveStyle_of_switch hclose
      have hline : s.passChar.cursor.atLineStart = true := by
        rw [cursor_passChar, h.cursor.atLineStart_advance hb]
      rw [step_of_isLineBreak (by rw [hbegin]; exact hb') (by rw [hbegin, hleft]; exact hb'),
        hbegin, hleft, settle_of_directive hline (by rw [style_passChar, ← hstyle, hs]),
        settle_of_style_ne (by rw [style_passChar, style_switchTo]; decide)]
      exact (hpass.switchTo .plain).swap_right (cursor_passChar t ▸ h.cursor.whole'.advance) hb'
        style_switchTo

/-! ## Steps -/

/-- **A directive may be closed before the end of its line in one scan, and at the start
    of the next line in the other.** -/
theorem exists_closeDirective (h : Tandem e s t) (hb : isLineBreak s.cursor.ch = true)
    (hs : s.style = .directive) :
    ∃ s' t', Visits d (s.switchTo .plain) s' ∧ Visits d t t' ∧ Tandem e s'.settle t'.settle := by
  have hne : s.style ≠ .string ∧ s.style ≠ .character := by rw [hs]; decide
  have hcursor : s.beginLine.cursor = s.cursor := cursor_beginLine hne.1 hne.2
  have hcursor' : t.beginLine.cursor = t.cursor :=
    cursor_beginLine (h.style_eq ▸ hne.1) (h.style_eq ▸ hne.2)
  have hbegin := h.beginLine
  have hb' : isLineBreak t.cursor.ch = true := h.cursor.ch.isLineBreak_eq.trans hb
  have inside := h.cursor.whole.inside_of_isLineBreak hb
  have hstyle : s.beginLine.style = .directive := by rw [style_beginLine, hs]
  have hstyle' : t.beginLine.style = .directive := by rw [hbegin.style_eq, hstyle]
  -- The first scan passes the end of the line in plain text.
  have hplain := beginLine_switchTo_plain hs
  have hstep : (s.switchTo .plain).step d = (s.beginLine.switchTo .plain).passChar := by
    have hleft := leaveStyle_switchTo_plain (d := d) s.beginLine
    have hbreak : isLineBreak (s.beginLine.switchTo .plain).cursor.ch = true := by
      show isLineBreak s.beginLine.cursor.ch = true
      rwa [hcursor]
    rw [step_of_isLineBreak (by rwa [hplain]) (by rwa [hplain, hleft]), hplain, hleft]
  have hvisit : Visits d (s.switchTo .plain) ((s.switchTo .plain).step d) :=
    Visits.refl.step inside
  have hvisit' : Visits d t (t.step d) := Visits.refl.step (h.cursor.inside_iff.2 inside)
  rcases leaving_directive_of_isLineBreak (d := d) (hcursor'.symm ▸ hb') hstyle' with
    hstay | hclose
  · have hleft := leaveStyle_of_stay hstay
    have hstep' : t.step d = t.beginLine.passChar :=
      (step_of_isLineBreak (hcursor'.symm ▸ hb') (by rwa [hleft, hcursor'])).trans
        (congrArg Scan.passChar hleft)
    obtain ⟨t', ht', htandem⟩ :=
      hbegin.exists_pass (d := d) (.of_settled (by rw [hstyle]; rfl))
    have hline : s.beginLine.passChar.cursor.atLineStart = true := by
      rw [cursor_passChar, hcursor, h.cursor.atLineStart_advance hb]
    rw [settle_of_directive hline (by rw [style_passChar, hstyle])] at htandem
    refine ⟨_, t', hvisit, hvisit'.trans (hstep' ▸ ht'), ?_⟩
    rw [hstep, settle_of_style_ne (by rw [style_passChar, style_switchTo]; decide)]
    exact htandem.swap_left hbegin.cursor.whole (hcursor.symm ▸ hb)
  · have hleft := leaveStyle_of_switch hclose
    have hstep' : t.step d = (t.beginLine.switchTo .plain).passChar :=
      (step_of_isLineBreak (hcursor'.symm ▸ hb') (by
        rw [hleft]
        show isLineBreak t.beginLine.cursor.ch = true
        rwa [hcursor'])).trans (congrArg Scan.passChar hleft)
    obtain ⟨t', ht', htandem⟩ :=
      (hbegin.switchTo .plain).exists_pass (d := d) (.of_settled (by rw [style_switchTo]; rfl))
    exact ⟨_, t', hvisit, hvisit'.trans (hstep' ▸ ht'), hstep ▸ htandem⟩

theorem exists_openDirective (h : Tandem e s t) (hb : isLineBreak s.cursor.ch = false) :
    ∃ s' t', Visits d s.openDirective s' ∧ Visits d t.openDirective t' ∧
      Tandem e s'.settle t'.settle := by
  have hblank := not_isLineBreak_of (p := isBlank) rfl rfl
  have hword : Tandem e s.directiveWord t.directiveWord :=
    ((h.switchTo .directive).advance hb).skipWhile hblank rfl
  have hstyle : s.directiveWord.style = .directive := by
    rw [directiveWord, style_skipWhile, style_advance, style_switchTo]
  rw [openDirective_eq, openDirective_eq]
  generalize s.directiveWord = u at hword hstyle
  generalize t.directiveWord = v at hword
  have hinclude : ∀ ch ∈ ['i', 'n', 'c', 'l', 'u', 'd', 'e'], isLineBreak ch = false := by
    simp [isLineBreak]
  rw [hword.cursor.lookingAt_eq hinclude]
  by_cases hend : v.cursor.atLineEnd = u.cursor.atLineEnd
  · refine ⟨_, _, .refl, .refl, ?_⟩
    rw [hend]
    split
    · exact (hword.switchTo .plain).settle
    · split
      · exact (hword.remember _ hword.continued).settle
      · exact hword.settle
  · have hbreak : isLineBreak u.cursor.ch = true := by
      by_contra hu
      exact hend (hword.cursor.atLineEnd_eq (Bool.not_eq_true _ ▸ hu))
    have hlf := hword.cursor.ch_eq_lf hbreak
    have hline := hword.cursor.atLineEnd_of_isLineBreak hbreak
    rw [hline] at hend
    have hlook : u.cursor.lookingAt ['i', 'n', 'c', 'l', 'u', 'd', 'e'] = false := by
      rw [Cursor.lookingAt, List.zipIdx_cons, List.all_cons]
      dsimp only
      rw [← hword.cursor.whole.ch_eq_peek, hlf]
      rfl
    rw [if_pos hline, if_neg hend, hlook]
    exact hword.exists_closeDirective hbreak hstyle

/-- What begins at a character begins alike, and is passed. -/
theorem exists_enterAndPass (h : Tandem e s t) (hmay : s.MayPass) :
    ∃ s' t', Visits d (s.enterAndPass d) s' ∧ Visits d (t.enterAndPass d) t' ∧
      Tandem e s'.settle t'.settle := by
  have heq : t.entering? d = s.entering? d := h.entering?_eq
  cases hwhat : s.entering? d with
  | none =>
    rw [enterAndPass_of_none hwhat, enterAndPass_of_none (heq.trans hwhat)]
    obtain ⟨t', ht', htandem⟩ := h.exists_pass (d := d) hmay
    exact ⟨_, t', .refl, ht', htandem⟩
  | some what =>
    have hb := not_isLineBreak_of_entering? hwhat
    by_cases hw : what = .directive
    · rw [hw] at hwhat
      rw [enterAndPass_of_directive hwhat, enterAndPass_of_directive (heq.trans hwhat)]
      exact h.exists_openDirective hb
    · rw [enterAndPass_of_some hwhat hw, enterAndPass_of_some (heq.trans hwhat) hw]
      obtain ⟨t', ht', htandem⟩ :=
        (h.applyEnter hb hw).exists_pass (d := d) (mayPass_applyEnter hb hw)
      exact ⟨_, t', .refl, ht', htandem⟩

theorem atContinuation_eq_false (h : Tandem e s t) :
    s.atContinuation = false ∧ t.atContinuation = false := by
  have hnext : s.cursor.ch = '\\' → isLineBreak s.cursor.next = false := by
    intro hch
    by_contra hb
    rw [Bool.not_eq_false, isLineBreak_iff] at hb
    rw [h.cursor.whole.ch_eq_peek, h.cursor.whole.peek_eq] at hch
    rw [h.cursor.whole.next_eq_peek, h.cursor.whole.peek_eq] at hb
    have hfeeds := h.cursor.lineFeeds
    have hcont := h.cursor.uncontinued
    match hrest : s.cursor.rest with
    | [] =>
      rw [hrest] at hch
      exact absurd hch (by decide)
    | [_] =>
      rw [hrest] at hb
      exact absurd hb (by decide : ¬ (' ' = '\n' ∨ ' ' = '\r'))
    | a :: b :: cs =>
      rw [hrest] at hch hb hfeeds hcont
      rw [show a = '\\' from hch] at hfeeds hcont
      rcases hb with hb | hb
      · rw [show b = '\n' from hb] at hcont
        exact hcont (List.IsPrefix.isInfix ⟨cs, rfl⟩)
      · rw [show b = '\r' from hb] at hfeeds
        exact hfeeds (List.mem_cons_of_mem _ List.mem_cons_self)
  unfold atContinuation
  rw [h.cursor.ch.beq_eq rfl]
  by_cases hch : s.cursor.ch = '\\'
  · have hb : isLineBreak s.cursor.ch = false := by rw [hch]; rfl
    rw [(h.cursor.next hb).isLineBreak_eq, hnext hch, Bool.and_false]
    exact ⟨rfl, rfl⟩
  · rw [beq_false_of_ne hch]
    exact ⟨rfl, rfl⟩

theorem leaving_eq (h : Tandem e s t) (hm : s.Tidy)
    (hend : s.style = .string ∨ s.style = .character →
      t.cursor.atLineEnd = s.cursor.atLineEnd) : t.leaving d = s.leaving d := by
  rw [leaving, leaving, h.style_eq, h.memory_eq]
  exact leave_upToBreak h.cursor.surroundings hm.sane hend

end Tandem

/-- An open literal is closed by a character that ends no line. -/
theorem exists_leaving_literal (hm : s.Tidy) (hs : s.style = .string ∨ s.style = .character) :
    ∃ close, isLineBreak close = false ∧
      s.leaving d = leaveLiteral s.cursor.surroundings close := by
  rcases hs with hs | hs
  · refine ⟨s.memory.stringClose, ?_, by rw [leaving, hs, leave]⟩
    rcases hm.sane.stringClose with hc | hc <;> rw [hc] <;> rfl
  · exact ⟨'\'', rfl, by rw [leaving, hs, leave]⟩

theorem leaveStyle_literal_of_atLineEnd (hm : s.Tidy)
    (hs : s.style = .string ∨ s.style = .character) (hend : s.cursor.atLineEnd = true) :
    s.leaveStyle d = s.recolour .unclosed := by
  obtain ⟨close, -, hleave⟩ := exists_leaving_literal (d := d) hm hs
  have hend : s.cursor.surroundings.atLineEnd = true := hend
  rw [leaveStyle, hleave, leaveLiteral, if_pos hend]
  rfl

theorem leaveStyle_literal_of_not_atLineEnd (hm : s.Tidy)
    (hs : s.style = .string ∨ s.style = .character) (hb : isLineBreak s.cursor.ch = true)
    (hend : s.cursor.atLineEnd = false) : s.leaveStyle d = s := by
  obtain ⟨close, hclose, hleave⟩ := exists_leaving_literal (d := d) hm hs
  have hb : isLineBreak s.cursor.surroundings.ch = true := hb
  have hend : s.cursor.surroundings.atLineEnd = false := hend
  rw [leaveStyle, hleave, leaveLiteral, hend, beq_of_isLineBreak hb (x := '\\') rfl,
    beq_of_isLineBreak hb hclose]
  rfl

theorem passChar_recolour (hb : isLineBreak s.cursor.ch = true) (next : Style) :
    s.passChar.recolour next = (s.recolour next).passChar := by
  have hb' : isLineBreak (s.recolour next).cursor.ch = true := hb
  rw [passChar_of_isLineBreak hb, passChar_of_isLineBreak hb']
  exact congrArg (fun cursor : Cursor =>
    { s.remember (fun m => { m with continued := false }) with cursor })
    (Cursor.advance_recolour s.cursor next.code).symm

namespace Tandem

/-- **A literal that is not closed on its line** turns out to be unclosed at the first
    character of the line end in one scan, and at the second in the other. -/
theorem exists_unclosed (h : Tandem .crlf s t) (hm : s.Tidy) (hm' : t.Tidy)
    (hb : isLineBreak s.cursor.ch = true) (hs : s.style = .string ∨ s.style = .character) :
    ∃ t', Visits d ((t.leaveStyle d).enterAndPass d) t' ∧
      Tandem .crlf ((s.leaveStyle d).enterAndPass d) t' := by
  obtain ⟨hsecond, hlf, hstart⟩ := h.lineFeed_left hb
  have hend := (h.cursor.atLineEnd_crlf hb).1
  have hb' : isLineBreak t.cursor.ch = true := h.cursor.ch.isLineBreak_eq.trans hb
  have hfirst : s.leaveStyle d = s.recolour .unclosed :=
    leaveStyle_literal_of_atLineEnd hm hs (h.cursor.atLineEnd_of_isLineBreak hb)
  have hfirst' : t.leaveStyle d = t :=
    leaveStyle_literal_of_not_atLineEnd hm' (by rwa [h.style_eq]) hb' hend
  -- The second scan finds it unclosed at the line feed.
  have hbreak : isLineBreak t.passChar.cursor.ch = true := by
    rw [hlf]
    rfl
  have hbegin := beginLine_of_not_atLineStart hstart
  have hwhole : t.passChar.cursor.Whole := cursor_passChar t ▸ h.cursor.whole'.advance
  have hleft : t.passChar.leaveStyle d = t.passChar.recolour .unclosed :=
    leaveStyle_literal_of_atLineEnd hm'.passChar (by rwa [style_passChar, h.style_eq])
      (hwhole.atLineEnd_of_lf hlf)
  have hstep : t.passChar.step d = (t.recolour .unclosed).passEnd .crlf := by
    rw [step_of_isLineBreak (by rwa [hbegin]) (by rw [hbegin, hleft]; exact hbreak), hbegin, hleft,
      passChar_recolour hb']
    rfl
  rw [hfirst, hfirst', enterAndPass_of_isLineBreak hb', enterAndPass_of_isLineBreak
    (show isLineBreak (s.recolour .unclosed).cursor.ch = true from hb)]
  refine ⟨t.passChar.step d, Visits.refl.step hsecond, ?_⟩
  rw [hstep]
  exact (h.recolour rfl).passBreak hb (by rw [style_recolour]; rfl)

/-- **Scans in tandem come to be in tandem again when they take a step.** -/
theorem exists_step (h : Tandem e s t) (hm : s.Tidy) (hm' : t.Tidy) :
    ∃ s' t', Visits d (s.step d) s' ∧ Visits d (t.step d) t' ∧ Tandem e s'.settle t'.settle := by
  have hbegin := h.beginLine
  obtain ⟨hcont, hcont'⟩ := hbegin.atContinuation_eq_false
  rw [step_of_not_atContinuation hcont, step_of_not_atContinuation hcont']
  by_cases hend : s.beginLine.style = .string ∨ s.beginLine.style = .character →
      t.beginLine.cursor.atLineEnd = s.beginLine.cursor.atLineEnd
  · have hfits : (s.beginLine.leaving d).Fits s.beginLine.style s.beginLine.cursor.surroundings :=
      leave_fits hm.beginLine.sane
    have hleft : Tandem e (s.beginLine.leaveStyle d) (t.beginLine.leaveStyle d) := by
      unfold leaveStyle
      rw [hbegin.leaving_eq hm.beginLine hend, hbegin.style_eq]
      exact hbegin.applyLeave hfits
    exact hleft.exists_enterAndPass (mayPass_applyLeave hm.beginLine hfits hcont)
  · -- A literal is open at the end of its line, and there is more of the line end.
    rw [Classical.not_imp] at hend
    obtain ⟨hs, hne⟩ := hend
    have hb : isLineBreak s.beginLine.cursor.ch = true := by
      by_contra hb
      exact hne (hbegin.cursor.atLineEnd_eq (Bool.not_eq_true _ ▸ hb))
    cases e with
    | cr =>
      refine absurd ?_ hne
      rw [hbegin.cursor.atLineEnd_cr hb,
        hbegin.cursor.atLineEnd_of_isLineBreak hb]
    | crlf =>
      obtain ⟨t', ht', htandem⟩ :=
        hbegin.exists_unclosed (d := d) hm.beginLine hm'.beginLine hb hs
      exact ⟨_, t', .refl, ht', htandem.settle⟩

end Tandem

end Scan

end CFamily

end StyledText
