/-
  Styles that last, and where runs begin.

  Only the run of a word or of a literal can still turn out to be in another style.
  What a scan of a whole text shows behind it in any other style is what the lexer gives
  in the end, so a run is settled as soon as the scan has left it.

  * `Steady`: a cursor that has moved on and closed runs, but recoloured none, and
    `steady_step`, that a scan moves so in a style that lasts;
  * `Through.committed?_complete`: what is shown in a style that lasts is committed;
  * `Stretch`: all from some place on to the cursor is in some of a few styles;
  * `Enters`: a scan of a whole text whose next step begins something in plain text,
    and the run that it opens.
-/
import StyledText.Proofs.DirectiveLines

namespace StyledText.CFamily.Scan

variable {d : Dialect} {t : Text} {s u : Scan} {c c' c'' : Cursor} {p q : Nat}

/-! ## Moves that recolour nothing -/

/-- **The cursor has come from `c` by moving on and by closing open runs**, all of them in
    the style that they were opened in. -/
inductive Steady (c : Cursor) : Cursor → Prop where
  | refl : Steady c c
  | advance {c' : Cursor} (h : Steady c c') : Steady c c'.advance
  | switchTo {c' : Cursor} (h : Steady c c') (next : Style) : Steady c (c'.switchTo next.code)

namespace Steady

theorem reaches (h : Steady c c') : Reaches c c' := by
  induction h with
  | refl => exact .refl
  | advance _ ih => exact ih.advance
  | switchTo _ next ih => exact ih.switchTo next

theorem trans (h : Steady c c') (h' : Steady c' c'') : Steady c c'' := by
  induction h' with
  | refl => exact h
  | advance _ ih => exact ih.advance
  | switchTo _ next ih => exact ih.switchTo next

theorem skipWhile (h : Steady c c') (accepts : Char → Bool) :
    Steady c (c'.skipWhile accepts) := by
  fun_induction Cursor.skipWhile accepts c' with
  | case1 c' _ _ ih => exact ih h.advance
  | case2 => exact h
  | case3 => exact h

/-- **What has been shown behind the cursor is still shown.** -/
theorem shown_eq (h : Steady c c') (hc : Covers c) (hq : c.window.start ≤ q) (hlt : q < c.pos) :
    c'.shown q = c.shown q := by
  induction h with
  | refl => rfl
  | advance _ ih => rw [Cursor.shown_advance, ih]
  | switchTo h next ih =>
    have hstart := h.reaches.start_eq
    have hpos := h.reaches.pos_le
    rw [Cursor.shown_switchTo (by omega) (by omega) (h.reaches.covers hc).pos_le, ih]

end Steady

theorem steady_beginLine (s : Scan) : Steady s.cursor s.beginLine.cursor := by
  unfold beginLine
  split
  · dsimp only
    split
    · exact Steady.refl.switchTo s.style
    · exact .refl
  · exact .refl

theorem steady_passContinuation (s : Scan) : Steady s.cursor s.passContinuation.cursor := by
  unfold passContinuation
  dsimp only
  split
  · exact Steady.refl.advance.advance.advance
  · exact Steady.refl.advance.advance

theorem steady_passChar (s : Scan) : Steady s.cursor s.passChar.cursor := by
  rw [cursor_passChar]
  exact Steady.refl.advance

/-- A style that lasts ends without a run that is recoloured. -/
theorem steady_applyLeave {how : Leave} (hf : how.Fits s.style s.cursor.surroundings)
    (hs : s.style.isTentative = false) :
    Steady s.cursor (s.applyLeave d s.style how).cursor := by
  have htentative {style : Style} (h : s.style = style) (hstyle : style.isTentative = true) :
      Steady s.cursor (s.applyLeave d s.style how).cursor := by
    rw [h, hstyle] at hs
    exact nomatch hs
  cases how with
  | stay => exact .refl
  | switch next => exact Steady.refl.switchTo next
  | switchAfter next => exact Steady.refl.advance.switchTo next
  | switchAfterPair next => exact Steady.refl.advance.advance.switchTo next
  | recolour next => exact htentative rfl hf.2
  | skipNext => exact Steady.refl.advance
  | endWord => exact htentative hf rfl
  | openDocKeyword => exact Steady.refl.switchTo .docKeyword
  | closeDocKeyword => exact htentative hf rfl
  | breakDocKeyword => exact htentative hf.1 rfl
  | openLiteral literal => exact Steady.refl.switchTo literal.style
  | closeLiteral =>
    rcases hf.1 with h | h
    · exact htentative h rfl
    · exact htentative h rfl
  | closeRegex => exact (Steady.refl.advance.skipWhile isSmallLetter).switchTo .plain

theorem steady_openDirective (s : Scan) : Steady s.cursor s.openDirective.cursor := by
  have hword : Steady s.cursor s.directiveWord.cursor :=
    (Steady.refl.switchTo .directive).advance.skipWhile isBlank
  rw [openDirective_eq]
  split
  · exact hword.switchTo .plain
  · split
    · exact hword
    · exact hword

theorem steady_applyEnter (s : Scan) (what : Enter) :
    Steady s.cursor (s.applyEnter what).cursor := by
  cases what with
  | verbatim | blockComment => exact (Steady.refl.switchTo _).advance
  | literal literal =>
    cases literal with
    | string close => exact Steady.refl.switchTo .string
    | character => exact Steady.refl.switchTo .character
  | directive => exact steady_openDirective s
  | _ => exact Steady.refl.switchTo _

theorem steady_enterAndPass (d : Dialect) (s : Scan) :
    Steady s.cursor (s.enterAndPass d).cursor := by
  unfold enterAndPass
  split
  · exact steady_applyEnter s .directive
  · exact (steady_applyEnter s _).trans (steady_passChar _)
  · exact steady_passChar s

/-- **In a style that lasts, a step recolours nothing.** -/
theorem steady_step (hm : s.Tidy) (hs : s.style.isTentative = false) :
    Steady s.cursor (s.step d).cursor := by
  have hbegin := steady_beginLine s
  unfold step
  dsimp only
  split
  · exact hbegin.trans (steady_passContinuation _)
  · have hfits : (s.beginLine.leaving d).Fits s.beginLine.style
        s.beginLine.cursor.surroundings := leave_fits hm.beginLine.sane
    have hleft : Steady s.beginLine.cursor (s.beginLine.leaveStyle d).cursor :=
      steady_applyLeave hfits (by rwa [style_beginLine])
    exact (hbegin.trans hleft).trans (steady_enterAndPass d _)

/-! ## Styles that last -/

/-- Only a style that is looked up is still open for a change at the end of the text. -/
theorem closeWord_of_not_isLookedUp (hm : s.memory.Sane) (hs : s.style.isLookedUp = false) :
    s.closeWord d = s := by
  have hf : (s.leaving d).Fits s.style s.cursor.surroundings := leave_fits hm
  unfold closeWord
  split
  · rename_i hhow
    rw [hhow] at hf
    rw [show s.style = .identifier from hf] at hs
    exact nomatch hs
  · rename_i hhow
    rw [hhow] at hf
    rw [show s.style = .docKeyword from hf] at hs
    exact nomatch hs
  · rfl

theorem Style.isLookedUp_of_not_isTentative {style : Style} (h : style.isTentative = false) :
    style.isLookedUp = false := by
  cases style <;> first | rfl | exact nomatch h

namespace Through

/-- Behind the cursor there is a committed style, or the style of the open run. -/
theorem committed?_or_open (h : Through t s) (q : Nat) :
    s.cursor.window.committed? q = some (s.cursor.shown q) ∨
      s.cursor.window.boundary ≤ q ∧ Style.ofCode (s.cursor.shown q) = s.style := by
  rcases Nat.lt_or_ge q s.cursor.window.boundary with hclosed | hopen
  · have hstart : s.cursor.window.start ≤ q := h.start_eq ▸ Nat.zero_le q
    obtain ⟨code, hcode⟩ := Option.ne_none_iff_exists'.1
      (mt (Window.committed?_eq_none_iff hstart).1 (Nat.not_le.2 hclosed))
    exact .inl (by rw [Cursor.shown, hcode]; rfl)
  · exact .inr ⟨hopen, by rw [Cursor.shown_of_boundary_le hopen]; rfl⟩

/-- A step leaves what is shown in a style that lasts. -/
theorem shown_step (h : Through t s) (hlt : q < s.cursor.pos)
    (hq : (Style.ofCode (s.cursor.shown q)).isTentative = false) :
    (s.step d).cursor.shown q = s.cursor.shown q := by
  rcases h.committed?_or_open q with hcode | ⟨-, hopen⟩
  · rw [Cursor.shown, (reaches_step d s).committed?_eq hcode]
    rfl
  · rw [hopen] at hq
    exact (steady_step h.tidy hq).shown_eq h.covers (h.start_eq ▸ Nat.zero_le q) hlt

theorem shown_run (h : Through t s) (hlt : q < s.cursor.pos)
    (hq : (Style.ofCode (s.cursor.shown q)).isTentative = false) :
    (s.run d).cursor.shown q = s.cursor.shown q := by
  fun_induction Scan.run d s with
  | case1 s inside ih =>
    have hstep := h.shown_step (d := d) hlt hq
    rw [ih (h.step inside) (Nat.lt_trans hlt (pos_lt_step d inside)) (by rwa [hstep]), hstep]
  | case2 => rfl

/-- **What is shown in a style that lasts is what the lexer gives.** -/
theorem committed?_complete (h : Through t s) (hlt : q < s.cursor.pos)
    (hq : (Style.ofCode (s.cursor.shown q)).isTentative = false) :
    (s.complete d).cursor.window.committed? q = some (s.cursor.shown q) := by
  have hrun : Through t (s.run d) := h.run
  have hpos : q < (s.run d).cursor.pos := Nat.lt_of_lt_of_le hlt (reaches_run d s).pos_le
  have hshown := h.shown_run (d := d) hlt hq
  rw [← hshown] at hq ⊢
  rcases hrun.committed?_or_open q with hcode | ⟨-, hopen⟩
  · exact (((reaches_closeWord d (s.run d)).switchTo .plain).committed?_eq hcode)
  · rw [hopen] at hq
    rw [complete, closeWord_of_not_isLookedUp hrun.tidy.sane
      (Style.isLookedUp_of_not_isTentative hq),
      committed?_finish hrun.covers (hrun.start_eq ▸ Nat.zero_le q) hpos]

end Through

/-! ## Stretches in a few styles -/

/-- Each character of `[a, e)` is committed in one of `styles`. -/
def AllIn (styles : List Style) (a e : Nat) (w : Window) : Prop :=
  ∀ q, a ≤ q → q < e → ∃ style ∈ styles, w.committed? q = some style.code

theorem AllIn.mono {styles : List Style} {a e : Nat} (h : AllIn styles a e c.window)
    (hr : Reaches c c') : AllIn styles a e c'.window := by
  intro q ha hq
  obtain ⟨style, hmem, hcode⟩ := h q ha hq
  exact ⟨style, hmem, hr.committed?_eq hcode⟩

theorem AllIn.committed?_eq {style : Style} {a e : Nat} {w : Window} (h : AllIn [style] a e w)
    (ha : a ≤ q) (hq : q < e) : w.committed? q = some style.code := by
  obtain ⟨only, hmem, hcode⟩ := h q ha hq
  rw [hcode, List.mem_singleton.1 hmem]

/-- **From `a` to the cursor all is in some of `styles`**, be it committed or in the open
    run. -/
structure Stretch (styles : List Style) (a : Nat) (c : Cursor) : Prop where
  covers : Covers c
  state_mem : Style.ofCode c.state ∈ styles
  allIn : AllIn styles a c.window.boundary c.window

namespace Stretch

variable {styles : List Style} {a : Nat} {next : Style}

/-- A stretch that begins with the open run. -/
theorem of_boundary (hc : Covers c) (hs : Style.ofCode c.state ∈ styles)
    (hb : c.window.boundary = a) : Stretch styles a c :=
  ⟨hc, hs, fun _ ha hq => absurd hq (Nat.not_lt.2 (hb ▸ ha))⟩

theorem move (h : Stretch styles a c) (hr : Reaches c c') (hw : c'.window = c.window)
    (hs : c'.state = c.state) : Stretch styles a c' where
  covers := hr.covers h.covers
  state_mem := hs ▸ h.state_mem
  allIn := hw ▸ h.allIn

theorem advance (h : Stretch styles a c) : Stretch styles a c.advance :=
  h.move Reaches.refl.advance (Cursor.window_advance c) (Cursor.state_advance c)

theorem recolour (h : Stretch styles a c) (hn : next ∈ styles) :
    Stretch styles a (c.recolour next.code) where
  covers := h.covers.recolour next
  state_mem := (Style.ofCode_code next).symm ▸ hn
  allIn := h.allIn

/-- A run that is closed is part of the stretch. -/
theorem close (h : Stretch styles a c) (next : Style) :
    AllIn styles a c.pos (c.switchTo next.code).window := by
  intro q ha hq
  rcases Nat.lt_or_ge q c.window.boundary with hclosed | hopen
  · exact h.allIn.mono (Reaches.refl.switchTo next) q ha hclosed
  · refine ⟨_, h.state_mem, ?_⟩
    rw [Cursor.committed?_switchTo hopen hq h.covers.pos_le, h.covers.code_ofCode]

theorem switchTo (h : Stretch styles a c) (hn : next ∈ styles) :
    Stretch styles a (c.switchTo next.code) where
  covers := h.covers.switchTo next
  state_mem := (Style.ofCode_code next).symm ▸ hn
  allIn := by
    rw [h.covers.boundary_switchTo]
    exact h.close next

end Stretch

/-! ## Where runs begin -/

/-- Only in plain text something begins. -/
theorem entering?_of_style_ne (hs : s.style ≠ .plain) : s.entering? d = none := by
  rw [entering?, if_neg]
  rw [Bool.and_eq_true, beq_iff_eq]
  exact fun h => hs h.2

/-- **A scan of the whole of `t`, whose next step begins `what` at `p`.** -/
structure Enters (d : Dialect) (t : Text) (what : Enter) (p : Nat) (s : Scan) : Prop where
  visits : Visits d (whole t) s
  inside : s.cursor.pos < s.cursor.window.stop
  hover : s.beginLine.atContinuation = false
  entering?_eq : (s.beginLine.leaveStyle d).entering? d = some what
  pos_eq : (s.beginLine.leaveStyle d).cursor.pos = p

namespace Enters

variable {what : Enter}

theorem through (h : s.Enters d t what p) : Through t s := h.visits.through

/-- The scan when it has left the style before. -/
theorem through_left (h : s.Enters d t what p) : Through t (s.beginLine.leaveStyle d) :=
  h.through.left h.inside

theorem lt_length (h : s.Enters d t what p) : p < t.length := by
  have inside := pos_lt_of_entering? h.entering?_eq
  rwa [h.through_left.stop_eq, h.pos_eq] at inside

theorem step_eq (h : s.Enters d t what p) (hw : what ≠ .directive) :
    s.step d = ((s.beginLine.leaveStyle d).applyEnter what).passChar := by
  rw [step_of_not_atContinuation h.hover, enterAndPass_of_some h.entering?_eq hw]

/-- **The step opens a run at `p`.** -/
theorem boundary_step (h : s.Enters d t what p) (hw : what ≠ .directive) :
    (s.step d).cursor.window.boundary = p := by
  rw [h.step_eq hw, cursor_passChar, Cursor.window_advance,
    boundary_applyEnter h.through_left.covers hw, h.pos_eq]

theorem style_step (h : s.Enters d t what p) (hw : what ≠ .directive) :
    (s.step d).style = what.style := by
  rw [h.step_eq hw, style_passChar, style_applyEnter hw]

end Enters

end StyledText.CFamily.Scan
