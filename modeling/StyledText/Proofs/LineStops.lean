/-
  Where a scan of a whole text stops.

  A step passes a line end either as the last thing it does, or together with the
  backslash before it.  So a scan stops at the start of every line, and what it has
  shown as a directive by then stays one.

  * `AlongLine`: a cursor that has moved on within its line, and has changed no
    directive behind it; `alongLine_applyLeave` and `alongLine_applyEnter` are the
    moves of a step, and `step_cases` the step;
  * `Reads`: a scan that reads a text through a window, and `Through`: one on its way
    through the whole text;
  * `Through.pos_runTo`: it stops at the start of each line;
  * `Through.directive_iff`: a directive that it shows is committed as one.
-/
import StyledText.Proofs.SplitWords

namespace StyledText.CFamily.Scan

variable {d : Dialect} {s : Scan} {c c' : Cursor} {next : Style} {p q : Nat}

/-! ## Moving on within a line -/

/-- **The cursor has come from `c` and has passed no line end**, and before `c` the
    same is shown as a directive. -/
structure AlongLine (c c' : Cursor) : Prop where
  reaches : Reaches c c'
  clear : ∀ q, c.pos ≤ q → q < c'.pos → isLineBreak (c.window.charOrSpace q) = false
  directive_iff : ∀ q, c.window.start ≤ q → q < c.pos →
    (c'.shown q = Style.directive.code ↔ c.shown q = Style.directive.code)

namespace AlongLine

theorem refl : AlongLine c c where
  reaches := .refl
  clear _ hq hlt := absurd hlt (Nat.not_lt.2 hq)
  directive_iff _ _ _ := .rfl

theorem advance (h : AlongLine c c') (hs : c.Sees) (hb : isLineBreak c'.ch = false) :
    AlongLine c c'.advance where
  reaches := h.reaches.advance
  clear := by
    intro q hq hlt
    rcases Nat.lt_or_ge q c'.pos with hold | hnew
    · exact h.clear q hq hold
    · -- The character that the cursor has just passed.
      rw [Cursor.pos_advance] at hlt
      split at hlt
      · rename_i inside
        obtain rfl : q = c'.pos := by omega
        rwa [← h.reaches.charOrSpace_eq, ← (h.reaches.sees hs).ch_eq inside]
      · omega
  directive_iff := by
    intro q hq hlt
    rw [Cursor.shown_advance]
    exact h.directive_iff q hq hlt

theorem switchTo (h : AlongLine c c') (hc : Covers c) (next : Style) :
    AlongLine c (c'.switchTo next.code) where
  reaches := h.reaches.switchTo next
  clear := h.clear
  directive_iff := by
    intro q hq hlt
    have hstart : c'.window.start ≤ q := h.reaches.start_eq ▸ hq
    rw [Cursor.shown_switchTo hstart (Nat.lt_of_lt_of_le hlt h.reaches.pos_le)
      (h.reaches.covers hc).pos_le]
    exact h.directive_iff q hq hlt

/-- No directive is recoloured, and nothing into one. -/
theorem recolour (h : AlongLine c c') (hc : Covers c) (hold : Style.ofCode c'.state ≠ .directive)
    (hnext : next ≠ .directive) : AlongLine c (c'.recolour next.code) where
  reaches := h.reaches.recolour next
  clear := h.clear
  directive_iff := by
    intro q hq hlt
    have hstart : c'.window.start ≤ q := h.reaches.start_eq ▸ hq
    rw [← h.directive_iff q hq hlt]
    rcases Nat.lt_or_ge q c'.window.boundary with hclosed | hopen
    · rw [Cursor.shown_recolour_of_lt hstart hclosed]
    · have hopen' : (c'.recolour next.code).window.boundary ≤ q := hopen
      rw [Cursor.shown_of_boundary_le hopen, Cursor.shown_of_boundary_le hopen',
        ← (h.reaches.covers hc).code_ofCode, Style.code_inj]
      exact iff_of_false (mt Style.code_inj.1 hnext) hold

theorem skipWhile {accepts : Char → Bool}
    (ha : ∀ ch, accepts ch = true → isLineBreak ch = false) (h : AlongLine c c') (hs : c.Sees) :
    AlongLine c (c'.skipWhile accepts) := by
  fun_induction Cursor.skipWhile accepts c' with
  | case1 c' _ hch ih => exact ih (h.advance hs (ha _ hch))
  | case2 => exact h
  | case3 => exact h

theorem trans {c'' : Cursor} (h : AlongLine c c') (h' : AlongLine c' c'') : AlongLine c c'' where
  reaches := h.reaches.trans h'.reaches
  clear := by
    intro q hq hlt
    rcases Nat.lt_or_ge q c'.pos with hold | hnew
    · exact h.clear q hq hold
    · rw [← h.reaches.charOrSpace_eq]
      exact h'.clear q hnew hlt
  directive_iff := by
    intro q hq hlt
    have hstart : c'.window.start ≤ q := h.reaches.start_eq ▸ hq
    rw [h'.directive_iff q hstart (Nat.lt_of_lt_of_le hlt h.reaches.pos_le)]
    exact h.directive_iff q hq hlt

/-- A cursor that does not pass a line end is not behind it. -/
theorem pos_le (h : AlongLine c c') (hq : c.pos ≤ q)
    (hb : isLineBreak (c.window.charOrSpace q) = true) : c'.pos ≤ q := by
  by_contra hlt
  have hclear := h.clear q hq (by omega)
  rw [hb] at hclear
  exact nomatch hclear

end AlongLine

/-- A word is never shown as a directive. -/
theorem classify?_ne_directive {v : Vocabulary} {word : List Char} {found : Style}
    (h : v.classify? word = some found) : found ≠ .directive := by
  rintro rfl
  unfold Vocabulary.classify? at h
  split_ifs at h <;> exact nomatch h

theorem alongLine_endWord (hc : Covers s.cursor) (hs : s.style = .identifier) :
    AlongLine s.cursor (s.endWord d).cursor := by
  have hstyle : Style.ofCode s.cursor.state ≠ .directive := by
    rw [← style, hs]
    decide
  unfold endWord
  dsimp only
  split
  · rename_i found hfound
    have hfound := classify?_ne_directive hfound
    split <;> exact (AlongLine.refl.recolour hc hstyle hfound).switchTo hc .plain
  · split <;> exact AlongLine.refl.switchTo hc .plain

theorem alongLine_closeDocKeyword (hc : Covers s.cursor) (hs : s.style = .docKeyword) :
    AlongLine s.cursor (s.closeDocKeyword d).cursor := by
  have hstyle : Style.ofCode s.cursor.state ≠ .directive := by
    rw [← style, hs]
    decide
  unfold closeDocKeyword
  dsimp only
  split
  · exact AlongLine.refl.switchTo hc _
  · exact (AlongLine.refl.recolour hc hstyle (by decide)).switchTo hc _

/-- **The end of a style is acted on within the line.** -/
theorem alongLine_applyLeave {how : Leave} (hc : Covers s.cursor) (hs : s.cursor.Sees)
    (hf : how.Fits s.style s.cursor.surroundings) :
    AlongLine s.cursor (s.applyLeave d s.style how).cursor := by
  have hopen : AlongLine s.cursor s.cursor := .refl
  have hstyle {known : Style} (h : s.style = known) (hne : known ≠ .directive) :
      Style.ofCode s.cursor.state ≠ .directive := fun hd => hne (h.symm.trans hd)
  cases how with
  | stay => exact hopen
  | switch next => exact hopen.switchTo hc next
  | switchAfter next => exact (hopen.advance hs hf.2).switchTo hc next
  | switchAfterPair next =>
    exact ((hopen.advance hs hf.2.1).advance hs (not_isLineBreak_advance hf.2.2)).switchTo hc next
  | recolour next =>
    refine hopen.recolour hc (fun hd => ?_) (hf.1 ▸ by decide)
    have htentative := hf.2
    rw [show s.style = .directive from hd] at htentative
    exact nomatch htentative
  | skipNext => exact hopen.advance hs hf.1
  | endWord => exact alongLine_endWord hc hf
  | openDocKeyword => exact hopen.switchTo hc .docKeyword
  | closeDocKeyword => exact alongLine_closeDocKeyword hc hf
  | breakDocKeyword =>
    have hbroken : AlongLine s.cursor (s.recolour .docKeywordError).cursor :=
      hopen.recolour hc (hstyle hf.1 (by decide)) (by decide)
    exact ((hbroken.advance hs hf.2.1).advance hs
      (not_isLineBreak_advance (s := s.recolour .docKeywordError) hf.2.2)).switchTo hc .plain
  | openLiteral literal => exact hopen.switchTo hc literal.style
  | closeLiteral =>
    have hclosed (next : Style) := (hopen.advance hs hf.2).switchTo hc next
    rw [applyLeave]
    unfold closeLiteral
    dsimp only
    split
    · exact hclosed _
    · exact hclosed _
  | closeRegex =>
    have hskipped :=
      (hopen.advance hs hf).skipWhile (not_isLineBreak_of (p := isSmallLetter) rfl rfl) hs
    exact hskipped.switchTo hc .plain

theorem alongLine_openDirective (hc : Covers s.cursor) (hs : s.cursor.Sees)
    (hb : isLineBreak s.cursor.ch = false) : AlongLine s.cursor s.openDirective.cursor := by
  have hword : AlongLine s.cursor s.directiveWord.cursor :=
    ((AlongLine.refl.switchTo hc .directive).advance hs hb).skipWhile
      (not_isLineBreak_of (p := isBlank) rfl rfl) hs
  rw [openDirective_eq]
  split
  · exact hword.switchTo hc .plain
  · split
    · exact hword
    · exact hword

/-- **What begins, begins within the line.** -/
theorem alongLine_applyEnter (hc : Covers s.cursor) (hs : s.cursor.Sees)
    (hb : isLineBreak s.cursor.ch = false) (what : Enter) :
    AlongLine s.cursor (s.applyEnter what).cursor := by
  have hswitch (next : Style) : AlongLine s.cursor (s.switchTo next).cursor :=
    AlongLine.refl.switchTo hc next
  have hadvance (next : Style) : AlongLine s.cursor (s.switchTo next).advance.cursor :=
    (hswitch next).advance hs hb
  cases what with
  | verbatim | blockComment => exact hadvance _
  | literal literal =>
    cases literal with
    | string close => exact hswitch .string
    | character => exact hswitch .character
  | directive => exact alongLine_openDirective hc hs hb
  | _ => exact hswitch _

theorem alongLine_beginLine (hc : Covers s.cursor) : AlongLine s.cursor s.beginLine.cursor := by
  unfold beginLine
  split
  · dsimp only
    split
    · exact AlongLine.refl.switchTo hc s.style
    · exact .refl
  · exact .refl

/-! ## Steps -/

/-- **A step passes a backslash with the line end behind it**, or it moves on within
    the line and passes one character more, or it opens a directive within the
    line. -/
theorem step_cases (d : Dialect) (hm : s.Tidy) (hc : Covers s.cursor) (hs : s.cursor.Sees) :
    (s.beginLine.atContinuation = true ∧ s.step d = s.beginLine.passContinuation) ∨
      (∃ c, AlongLine s.cursor c ∧ (s.step d).cursor = c.advance) ∨
      (AlongLine s.cursor (s.step d).cursor ∧
        ∃ x : Scan, Reaches s.cursor x.cursor ∧ s.step d = x.openDirective) := by
  cases hover : s.beginLine.atContinuation with
  | true =>
    refine .inl ⟨rfl, ?_⟩
    rw [step, if_pos hover]
  | false =>
    have hbegin := alongLine_beginLine hc
    have hleft : AlongLine s.cursor (s.beginLine.leaveStyle d).cursor :=
      hbegin.trans (alongLine_applyLeave (hbegin.reaches.covers hc) (hbegin.reaches.sees hs)
        (leave_fits hm.beginLine.sane))
    have hc' := hleft.reaches.covers hc
    have hs' := hleft.reaches.sees hs
    rw [step_of_not_atContinuation hover]
    refine .inr ?_
    cases hwhat : (s.beginLine.leaveStyle d).entering? d with
    | none =>
      refine .inl ⟨_, hleft, ?_⟩
      rw [enterAndPass_of_none hwhat, cursor_passChar]
    | some what =>
      have hb := not_isLineBreak_of_entering? hwhat
      have hentered := hleft.trans (alongLine_applyEnter hc' hs' hb what)
      by_cases hw : what = .directive
      · subst hw
        rw [enterAndPass_of_directive hwhat]
        exact .inr ⟨hentered, _, hleft.reaches, rfl⟩
      · refine .inl ⟨_, hentered, ?_⟩
        rw [enterAndPass_of_some hwhat hw, cursor_passChar]

theorem shown_passContinuation : s.passContinuation.cursor.shown q = s.cursor.shown q := by
  unfold passContinuation
  dsimp only
  split <;> simp [remember, advance]

/-- Behind the cursor, a step changes no directive. -/
theorem directive_iff_step (hm : s.Tidy) (hc : Covers s.cursor) (hs : s.cursor.Sees)
    (hq : s.cursor.window.start ≤ q) (hlt : q < s.cursor.pos) :
    (s.step d).cursor.shown q = Style.directive.code ↔
      s.cursor.shown q = Style.directive.code := by
  rcases step_cases d hm hc hs with ⟨-, hstep⟩ | ⟨c, halong, hstep⟩ | ⟨halong, -⟩
  · rw [hstep, shown_passContinuation]
    exact (alongLine_beginLine hc).directive_iff q hq hlt
  · rw [hstep, Cursor.shown_advance]
    exact halong.directive_iff q hq hlt
  · exact halong.directive_iff q hq hlt

/-- A backslash is passed with one line end, be it one character or two, within the window. -/
theorem pos_passContinuation (hs : s.cursor.Sees) (inside : s.cursor.pos < s.cursor.window.stop) :
    s.passContinuation.cursor.pos =
      min (if s.cursor.window.charOrSpace (s.cursor.pos + 1) = '\r' ∧
          s.cursor.window.charOrSpace (s.cursor.pos + 2) = '\n' then s.cursor.pos + 3
        else s.cursor.pos + 2) s.cursor.window.stop := by
  have hcursor : s.advance.cursor = s.cursor.advance := rfl
  have hch : s.cursor.advance.ch = s.cursor.window.charOrSpace (s.cursor.pos + 1) :=
    ch_advance hs inside
  have hnext : s.cursor.advance.next = s.cursor.window.charOrSpace (s.cursor.pos + 2) := by
    rw [Cursor.advance_of_lt inside]
  unfold passContinuation
  dsimp only
  rw [hcursor, hch, hnext]
  by_cases hpair : s.cursor.window.charOrSpace (s.cursor.pos + 1) = '\r' ∧
      s.cursor.window.charOrSpace (s.cursor.pos + 2) = '\n'
  · rw [if_pos hpair, if_pos (by simpa using hpair)]
    show s.cursor.advance.advance.advance.pos = _
    simp only [Cursor.pos_advance, Cursor.window_advance, if_pos inside]
    split_ifs <;> omega
  · rw [if_neg hpair, if_neg (by simpa using hpair)]
    show s.cursor.advance.advance.pos = _
    simp only [Cursor.pos_advance, Cursor.window_advance, if_pos inside]
    split_ifs <;> omega

/-- **A step does not pass beyond the end of the line.** -/
theorem pos_step_le (hm : s.Tidy) (hc : Covers s.cursor) (hs : s.cursor.Sees)
    (hends : s.cursor.window.EndsLine q) (hle : s.cursor.pos ≤ q) :
    (s.step d).cursor.pos ≤ q + 1 := by
  obtain ⟨hstop, hend, hb⟩ := hends
  rcases step_cases d hm hc hs with ⟨hover, hstep⟩ | ⟨c, halong, hstep⟩ | ⟨halong, -⟩
  · have hbegin := reaches_beginLine s
    have hs' := hbegin.sees hs
    have inside : s.beginLine.cursor.pos < s.beginLine.cursor.window.stop := by
      rw [pos_beginLine, hbegin.stop_eq]
      omega
    rw [atContinuation, Bool.and_eq_true, beq_iff_eq, hs'.ch_eq inside, hbegin.charOrSpace_eq,
      pos_beginLine] at hover
    -- The backslash itself does not end the line.
    have hne : s.cursor.pos ≠ q := by
      rintro rfl
      rw [hover.1] at hb
      cases hb
    -- Nor does the carriage return of a pair.
    have hpair : s.cursor.window.charOrSpace (s.cursor.pos + 1) = '\r' ∧
        s.cursor.window.charOrSpace (s.cursor.pos + 2) = '\n' → s.cursor.pos + 1 ≠ q := by
      rintro ⟨hcr, hlf⟩ rfl
      rw [hcr, hlf, Cursor.endsLine, decide_eq_false (by omega)] at hend
      cases hend
    have hpos := pos_passContinuation hs' inside
    simp only [pos_beginLine, hbegin.stop_eq, hbegin.charOrSpace_eq] at hpos
    rw [hstep, hpos]
    split
    · rename_i h
      have := hpair h
      omega
    · omega
  · have hpos := halong.pos_le hle hb
    rw [hstep, Cursor.pos_advance]
    split <;> omega
  · have hpos := halong.pos_le hle hb
    omega

/-! ## Scans of a whole text -/

/-- **The scan reads the text `t`**, through whichever window, and is in order. -/
structure Reads (t : Text) (s : Scan) : Prop where
  tidy : s.Tidy
  covers : Covers s.cursor
  sees : s.cursor.Sees
  char_eq : ∀ q, s.cursor.window.charOrSpace q = t.chars[q]?.getD ' '

/-- **The scan is on its way through the whole of `t`.** -/
structure Through (t : Text) (s : Scan) : Prop extends Reads t s where
  looksBack : s.cursor.LooksBack
  start_eq : s.cursor.window.start = 0
  stop_eq : s.cursor.window.stop = t.length

/-- The scan that opens on the whole text. -/
def whole (t : Text) : Scan := .ofWindow (.ofBuffer (.ofText t) 0 t.length) .plain

theorem through_whole (t : Text) : Through t (whole t) where
  tidy := .ofWindow _ _
  covers := covers_ofWindow rfl (Window.fresh_ofBuffer _ _ _).start_le .plain
  sees := sees_ofWindow _ _
  looksBack := looksBack_ofWindow _ _
  start_eq := Window.start_ofBuffer (Nat.zero_le _)
  stop_eq := Dialect.stop_whole t
  char_eq := (Window.fresh_ofBuffer (.ofText t) 0 t.length).charOrSpace_eq

variable {t : Text} {u : Scan}

namespace Reads

/-- A move keeps to the text if it keeps what is remembered in order. -/
theorem move (h : Reads t s) (hr : Reaches s.cursor u.cursor) (hm : u.Tidy) : Reads t u where
  tidy := hm
  covers := hr.covers h.covers
  sees := hr.sees h.sees
  char_eq q := (hr.charOrSpace_eq q).trans (h.char_eq q)

theorem beginLine (h : Reads t s) : Reads t s.beginLine :=
  h.move (reaches_beginLine s) h.tidy.beginLine

theorem step (h : Reads t s) (inside : s.cursor.pos < s.cursor.window.stop) :
    Reads t (s.step d) :=
  h.move (reaches_step d s) (h.tidy.step inside)

/-- The scan when it has left the style before. -/
theorem left (h : Reads t s) (inside : s.cursor.pos < s.cursor.window.stop) :
    Reads t (s.beginLine.leaveStyle d) := by
  have inside' := inside_beginLine inside
  exact h.beginLine.move (reaches_applyLeave d _ _ _) (h.tidy.beginLine.leaveStyle inside')

theorem charOrSpace_eq_charAt (h : Reads t s) (hq : q < t.length) :
    s.cursor.window.charOrSpace q = t.charAt q := by
  rw [h.char_eq, Text.charAt, Array.getElem?_eq_getElem hq]
  rfl

/-- A character other than the two fillers is where it is in the text. -/
theorem charOrSpace_eq_iff (h : Reads t s) {ch : Char} (hspace : ch ≠ ' ') (hnul : ch ≠ nul) :
    s.cursor.window.charOrSpace q = ch ↔ t.charAt q = ch := by
  rcases Nat.lt_or_ge q t.length with hlt | hge
  · rw [h.charOrSpace_eq_charAt hlt]
  · rw [h.char_eq, Array.getElem?_eq_none hge, Text.charAt_of_length_le hge]
    exact iff_of_false hspace.symm hnul.symm

/-- What holds of a space as of what stands for the end of a text, holds of the character that
    a scan sees as of the one of the text. -/
theorem apply_charOrSpace {α : Type} (h : Reads t s) (p : Char → α) (hp : p ' ' = p nul) :
    p (s.cursor.window.charOrSpace q) = p (t.charAt q) := by
  rcases Nat.lt_or_ge q t.length with hlt | hge
  · rw [h.charOrSpace_eq_charAt hlt]
  · rw [h.char_eq, Array.getElem?_eq_none hge, Text.charAt_of_length_le hge]
    exact hp

theorem isLineBreak_charOrSpace (h : Reads t s) (q : Nat) :
    isLineBreak (s.cursor.window.charOrSpace q) = isLineBreak (t.charAt q) :=
  h.apply_charOrSpace isLineBreak rfl

end Reads

namespace Through

/-- A move keeps the scan on its way if it keeps what is remembered in order. -/
theorem move (h : Through t s) (hr : Reaches s.cursor u.cursor) (hm : u.Tidy) : Through t u where
  toReads := h.toReads.move hr hm
  looksBack := hr.looksBack h.looksBack h.sees
  start_eq := hr.start_eq.trans h.start_eq
  stop_eq := hr.stop_eq.trans h.stop_eq

theorem beginLine (h : Through t s) : Through t s.beginLine :=
  h.move (reaches_beginLine s) h.tidy.beginLine

theorem step (h : Through t s) (inside : s.cursor.pos < s.cursor.window.stop) :
    Through t (s.step d) :=
  h.move (reaches_step d s) (h.tidy.step inside)

/-- The scan when it has left the style before. -/
theorem left (h : Through t s) (inside : s.cursor.pos < s.cursor.window.stop) :
    Through t (s.beginLine.leaveStyle d) :=
  h.move (reaches_leaveStyle d s) (h.toReads.left inside).tidy

theorem visits (h : Through t s) (hv : Visits d s u) : Through t u := by
  induction hv with
  | refl => exact h
  | step _ inside ih => exact ih.step inside

/-- A line end is in the text. -/
theorem lt_length_of_isLineBreak (hb : isLineBreak (t.charAt q) = true) : q < t.length := by
  by_contra hge
  rw [Text.charAt_of_length_le (Nat.le_of_not_lt hge)] at hb
  exact nomatch hb

/-- The window ends its lines where the text does. -/
theorem endsLine (h : Through t s) (hstart : t.isLineStart (q + 1) = true) (hq : q < t.length) :
    s.cursor.window.EndsLine q := by
  obtain ⟨-, hends⟩ := Text.isLineStart_iff.1 hstart
  rw [Nat.add_sub_cancel] at hends
  refine ⟨h.stop_eq ▸ hq, ?_, ?_⟩
  · simp only [Cursor.endsLine, Bool.or_eq_true, Bool.and_eq_true, beq_iff_eq, bne_iff_ne, ne_eq,
      h.charOrSpace_eq_iff (show '\n' ≠ ' ' by decide) (by decide),
      h.charOrSpace_eq_iff (show '\r' ≠ ' ' by decide) (by decide)]
    refine .inl (hends.symm.imp_left fun hcr => ⟨hcr.1, fun hlf => hcr.2 ⟨?_, hlf⟩⟩)
    exact lt_length_of_isLineBreak (hlf ▸ rfl)
  · rw [h.isLineBreak_charOrSpace, isLineBreak_iff]
    exact hends.imp_right And.left

/-- **The scan stops at the start of each line.** -/
theorem pos_runTo (h : Through t s) (hstart : t.isLineStart p = true) (hp : p ≤ t.length)
    (hle : s.cursor.pos ≤ p) : (s.runTo d p).cursor.pos = p := by
  have hpos : 0 < p := (Text.isLineStart_iff.1 hstart).1
  fun_induction runTo d p s with
  | case1 s inside ih =>
    refine ih (h.step inside.2) ?_
    have hends : s.cursor.window.EndsLine (p - 1) :=
      h.endsLine (by rwa [Nat.sub_add_cancel hpos]) (by omega)
    have hstep := pos_step_le (d := d) h.tidy h.covers h.sees hends (by omega)
    omega
  | case2 s outside =>
    rw [h.stop_eq] at outside
    omega

theorem run (h : Through t s) : Through t (s.run d) := by
  fun_induction Scan.run d s with
  | case1 s inside ih => exact ih (h.step inside)
  | case2 => exact h

theorem directive_iff_run (h : Through t s) (hlt : q < s.cursor.pos) :
    (s.run d).cursor.shown q = Style.directive.code ↔
      s.cursor.shown q = Style.directive.code := by
  fun_induction Scan.run d s with
  | case1 s inside ih =>
    rw [ih (h.step inside) (Nat.lt_trans hlt (pos_lt_step d inside))]
    exact directive_iff_step h.tidy h.covers h.sees (h.start_eq ▸ Nat.zero_le q) hlt
  | case2 => exact .rfl

/-- A word that is closed at the end of the text leaves directives as they are. -/
theorem alongLine_closeWord (h : Through t s) : AlongLine s.cursor (s.closeWord d).cursor := by
  have hf : (s.leaving d).Fits s.style s.cursor.surroundings := leave_fits h.tidy.sane
  unfold closeWord
  split
  · rename_i hhow
    rw [hhow] at hf
    exact alongLine_endWord h.covers hf
  · rename_i hhow
    rw [hhow] at hf
    exact alongLine_closeDocKeyword h.covers hf
  · exact .refl

/-- **What the scan shows behind it as a directive is committed as one**, and nothing
    else there. -/
theorem directive_iff (h : Through t s) (hlt : q < s.cursor.pos) :
    (s.complete d).cursor.window.committed? q = some Style.directive.code ↔
      s.cursor.shown q = Style.directive.code := by
  have hrun : Through t (s.run d) := h.run
  have hq : (s.run d).cursor.window.start ≤ q := hrun.start_eq ▸ Nat.zero_le q
  have hpos : q < (s.run d).cursor.pos := Nat.lt_of_lt_of_le hlt (reaches_run d s).pos_le
  have hclosed := hrun.alongLine_closeWord (d := d)
  rw [complete, committed?_finish (hclosed.reaches.covers hrun.covers)
    (hclosed.reaches.start_eq ▸ hq) (Nat.lt_of_lt_of_le hpos hclosed.reaches.pos_le),
    Option.some.injEq, hclosed.directive_iff q hq hpos, h.directive_iff_run hlt]

end Through

end StyledText.CFamily.Scan
