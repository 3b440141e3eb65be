/-
  In which style a step passes a character.

  A run can turn out to be in another style than the one that it has been passed in, but
  only within its family: a word is of a list or of none, a keyword is known or not, and a
  literal is closed or not.  So the family of a character is settled by the step that
  passes it.

  * `Style.family`: what a style cannot turn out to be outside of;
  * `SameRun` and `EndsRun`: a cursor that is further on in the run that was open, and one
    that has closed it then, as the end of a style does (`endsRun_applyLeave`);
  * `Visits.family_eq`: what a scan of a whole text shows behind it keeps its family;
  * `Passes`: how a step passes a character, and in which style, and
    `Visits.passes`, that there is no other way.
-/
import StyledText.Proofs.Lasting

namespace StyledText.CFamily

/-! ## Families of styles -/

/-- The styles that a run can turn out to be in when it ends stand for one another: each is
    given by the style in which the run is open, and a literal by the unclosed one. -/
def Style.family : Style → Style
  | keyword | keyword2 | globalClass => identifier
  | docKeywordError => docKeyword
  | string | character => unclosed
  | style => style

@[simp] theorem Style.isComment_family (style : Style) :
    style.family.isComment = style.isComment := by
  cases style <;> rfl

/-- No other style is in the family. -/
def Style.isAlone : Style → Bool
  | identifier | keyword | keyword2 | globalClass | docKeyword | docKeywordError | string
  | character | unclosed => false
  | _ => true

theorem Style.eq_of_isAlone {style other : Style} (h : style.isAlone = true)
    (hf : other.family = style.family) : other = style := by
  cases style with
  | identifier | keyword | keyword2 | globalClass | docKeyword | docKeywordError | string
  | character | unclosed => cases h
  | _ => cases other <;> first | rfl | cases hf

/-- A literal is a string or a character literal, or it is not closed. -/
theorem Style.eq_of_family_unclosed {style : Style} (hf : style.family = .unclosed) :
    style = .string ∨ style = .character ∨ style = .unclosed := by
  cases style <;> simp_all [Style.family]

/-- A word of a list is still a word. -/
theorem family_of_classify? {v : Vocabulary} {word : List Char} {found : Style}
    (h : v.classify? word = some found) : found.family = .identifier := by
  unfold Vocabulary.classify? at h
  split_ifs at h <;> cases h <;> rfl

/-! ## What an answer has met -/

section Answers

variable {style : Style} {here : Surroundings} {memory : Memory} {settings : Settings}

/-- The character opens the literal: a quote one that the same quote closes, an angle
    bracket one that its counterpart closes. -/
def Literal.OpensWith : Literal → Char → Prop
  | string close, c => c = '"' ∧ close = '"' ∨ c = '<' ∧ close = '>'
  | character, c => c = '\''

/-- **In which style, and at which characters, an answer is given** that passes some of them,
    recolours the run or opens a literal. -/
def Leave.Meets (style : Style) (here : Surroundings) (memory : Memory) : Leave → Prop
  | .switchAfter _ => style = .verbatim ∧ here.ch = '"'
  | .switchAfterPair _ => style = .blockComment ∨ style = .docComment
  | .recolour _ => style = .string ∨ style = .character
  | .skipNext =>
    (style = .string ∨ style = .character) ∧ here.ch = '\\' ∨
      style = .verbatim ∧ here.ch = '"' ∧ here.next = '"' ∨
      style = .regex ∧ here.ch = '\\' ∧ (here.next = '\\' ∨ here.next = '/')
  | .breakDocKeyword => style = .docKeyword ∧ memory.docStyle = .docComment
  | .openLiteral l => style = .directive ∧ l.OpensWith here.ch
  | .closeLiteral =>
    style = .string ∧ here.ch = memory.stringClose ∨ style = .character ∧ here.ch = '\''
  | .closeRegex => style = .regex ∧ here.ch = '/'
  | _ => True

theorem leaveLiteral_meets {close : Char} (hs : style = .string ∨ style = .character)
    (hc : style = .string ∧ close = memory.stringClose ∨ style = .character ∧ close = '\'') :
    (leaveLiteral here close).Meets style here memory := by
  unfold leaveLiteral
  split_ifs with hend hmark hclose
  · exact hs
  · simp only [Bool.and_eq_true, beq_iff_eq] at hmark
    exact .inl ⟨hs, hmark.1⟩
  · have hch : here.ch = close := beq_iff_eq.1 hclose
    rw [← hch] at hc
    exact hc
  · trivial

/-- **Every answer has met what it stands for.** -/
theorem leave_meets : (leave style here memory settings).Meets style here memory := by
  cases style with
  | plain | operator | keyword | keyword2 | globalClass | docKeywordError => trivial
  | string => exact leaveLiteral_meets (.inl rfl) (.inl ⟨rfl, rfl⟩)
  | character => exact leaveLiteral_meets (.inr rfl) (.inr ⟨rfl, rfl⟩)
  | directive =>
    simp only [leave, leaveDirective]
    split_ifs with _ _ _ _ hdouble hangle hsingle <;>
      simp_all [Leave.Meets, Literal.OpensWith]
  | docKeyword =>
    simp only [leave]
    split_ifs with hbreak
    · exact ⟨rfl, hbreak.1⟩
    · trivial
    · trivial
  | verbatim =>
    simp only [leave]
    split_ifs with hquote hpair
    · exact .inr (.inl ⟨rfl, by simpa using hquote, by simpa using hpair⟩)
    · exact ⟨rfl, by simpa using hquote⟩
    · trivial
  | regex =>
    simp only [leave]
    split_ifs with hline hslash hmark
    · trivial
    · exact ⟨rfl, by simpa using hslash⟩
    · simp only [Bool.and_eq_true, Bool.or_eq_true, beq_iff_eq] at hmark
      exact .inr (.inr ⟨rfl, hmark⟩)
    · trivial
  | _ =>
    simp only [leave]
    split_ifs <;> simp [Leave.Meets]

end Answers

/-- The style in which a text that is lexed as a whole shows a character. -/
def Dialect.styleAt (d : Dialect) (t : Text) (q : Nat) : Style :=
  .ofCode (((Scan.whole t).complete d).cursor.shown q)

namespace Scan

variable {d : Dialect} {t : Text} {s u : Scan} {c c' : Cursor} {style next : Style} {q : Nat}

/-- What a style ends with has been met, at the start of a line as elsewhere. -/
theorem leaving_meets : (s.beginLine.leaving d).Meets s.style s.beginLine.cursor.surroundings
    s.beginLine.memory := by
  rw [leaving, style_beginLine]
  exact leave_meets

/-! ## Within the open run -/

/-- **The cursor is further on in the run that was open at `c`**, and the run has been
    recoloured within its family at most. -/
structure SameRun (c c' : Cursor) : Prop where
  reaches : Reaches c c'
  window_eq : c'.window = c.window
  family_eq : (Style.ofCode c'.state).family = (Style.ofCode c.state).family

namespace SameRun

theorem refl : SameRun c c := ⟨.refl, rfl, rfl⟩

theorem advance (h : SameRun c c') : SameRun c c'.advance where
  reaches := h.reaches.advance
  window_eq := by rw [Cursor.window_advance, h.window_eq]
  family_eq := by rw [Cursor.state_advance, h.family_eq]

theorem recolour (h : SameRun c c') (hn : next.family = (Style.ofCode c.state).family) :
    SameRun c (c'.recolour next.code) where
  reaches := h.reaches.recolour next
  window_eq := h.window_eq
  family_eq := by rw [← hn]; exact congrArg Style.family (Style.ofCode_code next)

theorem skipWhile (h : SameRun c c') (accepts : Char → Bool) :
    SameRun c (c'.skipWhile accepts) := by
  fun_induction Cursor.skipWhile accepts c' with
  | case1 c' _ _ ih => exact ih h.advance
  | case2 => exact h
  | case3 => exact h

/-- What the run has passed, and what was committed before, keeps its family. -/
theorem family_shown (h : SameRun c c') (q : Nat) :
    (Style.ofCode (c'.shown q)).family = (Style.ofCode (c.shown q)).family := by
  rw [Cursor.shown, Cursor.shown, h.window_eq]
  cases c.window.committed? q with
  | none => exact h.family_eq
  | some code => rfl

/-- So it does when the run is closed. -/
theorem family_switchTo (h : SameRun c c') (hc : Covers c) (hs : c.window.start ≤ q)
    (hq : q < c'.pos) (next : Style) :
    (Style.ofCode ((c'.switchTo next.code).shown q)).family =
      (Style.ofCode (c.shown q)).family := by
  rw [Cursor.shown_switchTo (h.reaches.start_eq ▸ hs) hq (h.reaches.covers hc).pos_le]
  exact h.family_shown q

end SameRun

/-- The cursor has come from `c` within its open run, which it may then have closed. -/
def EndsRun (c c' : Cursor) : Prop :=
  SameRun c c' ∨ ∃ e, SameRun c e ∧ ∃ next : Style, c' = e.switchTo next.code

namespace EndsRun

theorem closed {e : Cursor} (h : SameRun c e) (next : Style) :
    EndsRun c (e.switchTo next.code) := .inr ⟨e, h, next, rfl⟩

theorem family_shown (h : EndsRun c c') (hc : Covers c) (hs : c.window.start ≤ q)
    (hq : q < c'.pos) :
    (Style.ofCode (c'.shown q)).family = (Style.ofCode (c.shown q)).family := by
  rcases h with h | ⟨e, h, next, rfl⟩
  · exact h.family_shown q
  · exact h.family_switchTo hc hs hq next

end EndsRun

theorem endsRun_endWord (hs : s.style = .identifier) :
    EndsRun s.cursor (s.endWord d).cursor := by
  rw [cursor_endWord]
  cases hclass : d.vocabulary.classify? s.cursor.openRun with
  | none => exact .closed .refl .plain
  | some found =>
    have hfound : found.family = s.style.family := by
      rw [family_of_classify? hclass, hs]
      rfl
    exact .closed (SameRun.refl.recolour hfound) .plain

theorem endsRun_closeDocKeyword (hs : s.style = .docKeyword) :
    EndsRun s.cursor (s.closeDocKeyword d).cursor := by
  rw [cursor_closeDocKeyword]
  split
  · exact .closed .refl _
  · have hunknown : Style.docKeywordError.family = s.style.family := by
      rw [hs]
      rfl
    exact .closed (SameRun.refl.recolour hunknown) _

/-- **A style ends within its run**, which is then closed or goes on. -/
theorem endsRun_applyLeave {how : Leave} (hf : how.Fits s.style s.cursor.surroundings)
    (hm : how.Meets s.style s.cursor.surroundings s.memory) :
    EndsRun s.cursor (s.applyLeave d s.style how).cursor := by
  have hopen : SameRun s.cursor s.cursor := .refl
  cases how with
  | stay => exact .inl hopen
  | switch next => exact .closed hopen next
  | switchAfter next => exact .closed hopen.advance next
  | switchAfterPair next => exact .closed hopen.advance.advance next
  | recolour next =>
    have hcut : next.family = s.style.family := by
      rcases hm with hs | hs <;> rw [hs, hf.1] <;> rfl
    exact .inl (hopen.recolour hcut)
  | skipNext => exact .inl hopen.advance
  | endWord => exact endsRun_endWord hf
  | openDocKeyword => exact .closed hopen .docKeyword
  | closeDocKeyword => exact endsRun_closeDocKeyword hf
  | breakDocKeyword =>
    have hbroken : Style.docKeywordError.family = s.style.family := by
      rw [hf.1]
      rfl
    exact .closed (hopen.recolour hbroken).advance.advance .plain
  | openLiteral literal => exact .closed hopen literal.style
  | closeLiteral =>
    rw [applyLeave, cursor_closeLiteral]
    exact .closed hopen.advance _
  | closeRegex => exact .closed (hopen.advance.skipWhile isSmallLetter) .plain

theorem endsRun_leaveStyle (hm : s.memory.Sane) :
    EndsRun s.cursor (s.leaveStyle d).cursor := endsRun_applyLeave (leave_fits hm) leave_meets

/-! ## What is shown behind a scan keeps its family -/

/-- The start of a line closes a run at most, and goes on in its style. -/
theorem shown_beginLine (hc : Covers s.cursor) (hs : s.cursor.window.start ≤ q) :
    s.beginLine.cursor.shown q = s.cursor.shown q := by
  rcases Nat.lt_or_ge q s.cursor.pos with hbehind | hahead
  · exact (steady_beginLine s).shown_eq hc hs hbehind
  · have hbegin := (reaches_beginLine s).covers hc
    have hle := hbegin.boundary_le
    rw [pos_beginLine] at hle
    rw [Cursor.shown_of_boundary_le (Nat.le_trans hle hahead),
      Cursor.shown_of_boundary_le (Nat.le_trans hc.boundary_le hahead), ← hbegin.code_ofCode,
      ← hc.code_ofCode]
    exact congrArg Style.code style_beginLine

namespace Through

theorem start_le (h : Through t s) (q : Nat) : s.cursor.window.start ≤ q :=
  h.start_eq ▸ Nat.zero_le q

/-- What has been passed when the style before has been left. -/
theorem family_leaveStyle (h : Through t s) (hq : q < (s.beginLine.leaveStyle d).cursor.pos) :
    (Style.ofCode ((s.beginLine.leaveStyle d).cursor.shown q)).family =
      (Style.ofCode (s.cursor.shown q)).family := by
  have hends : EndsRun s.beginLine.cursor (s.beginLine.leaveStyle d).cursor :=
    endsRun_leaveStyle h.beginLine.tidy.sane
  rw [hends.family_shown h.beginLine.covers (h.beginLine.start_le q) hq,
    shown_beginLine h.covers (h.start_le q)]

theorem family_step (h : Through t s) (hq : q < s.cursor.pos) :
    (Style.ofCode ((s.step d).cursor.shown q)).family =
      (Style.ofCode (s.cursor.shown q)).family := by
  cases hover : s.beginLine.atContinuation with
  | true =>
    rw [Scan.step, if_pos hover, shown_passContinuation, shown_beginLine h.covers (h.start_le q)]
  | false =>
    have hreach := reaches_leaveStyle d s
    have hleft : q < (s.beginLine.leaveStyle d).cursor.pos := Nat.lt_of_lt_of_le hq hreach.pos_le
    rw [step_of_not_atContinuation hover, (steady_enterAndPass d _).shown_eq
      (hreach.covers h.covers) (hreach.start_eq ▸ h.start_le q) hleft, h.family_leaveStyle hleft]

theorem family_run (h : Through t s) (hq : q < s.cursor.pos) :
    (Style.ofCode ((s.run d).cursor.shown q)).family =
      (Style.ofCode (s.cursor.shown q)).family := by
  fun_induction Scan.run d s with
  | case1 s inside ih =>
    rw [ih (h.step inside) (Nat.lt_trans hq (pos_lt_step d inside)), h.family_step hq]
  | case2 => rfl

/-- A word at the end of the text is closed within its run. -/
theorem endsRun_closeWord (h : Through t s) : EndsRun s.cursor (s.closeWord d).cursor := by
  have hf : (s.leaving d).Fits s.style s.cursor.surroundings := leave_fits h.tidy.sane
  unfold closeWord
  split
  · rename_i hhow
    rw [hhow] at hf
    exact endsRun_endWord hf
  · rename_i hhow
    rw [hhow] at hf
    exact endsRun_closeDocKeyword hf
  · exact .inl .refl

theorem family_complete (h : Through t s) (hq : q < s.cursor.pos) :
    (Style.ofCode ((s.complete d).cursor.shown q)).family =
      (Style.ofCode (s.cursor.shown q)).family := by
  have hrun : Through t (s.run d) := h.run
  have hclosed := reaches_closeWord d (s.run d)
  have hpos : q < (s.run d).cursor.pos := Nat.lt_of_lt_of_le hq (reaches_run d s).pos_le
  have hpos' : q < ((s.run d).closeWord d).cursor.pos := Nat.lt_of_lt_of_le hpos hclosed.pos_le
  have hfinish : (s.complete d).cursor.shown q = ((s.run d).closeWord d).cursor.shown q := by
    rw [complete, Cursor.shown, committed?_finish (hclosed.covers hrun.covers)
      (hclosed.start_eq ▸ hrun.start_le q) hpos']
    rfl
  rw [hfinish, hrun.endsRun_closeWord.family_shown hrun.covers (hrun.start_le q) hpos',
    h.family_run hq]

end Through

namespace Visits

/-- **What a scan shows behind it is in the family of what the text shows in the end.** -/
theorem family_eq (hv : Visits d (whole t) u) (hq : q < u.cursor.pos) :
    (d.styleAt t q).family = (Style.ofCode (u.cursor.shown q)).family := by
  rw [Dialect.styleAt, ← hv.complete_eq, hv.through.family_complete hq]

/-- Within the text, a scan that is not in plain text has passed a character in its
    style. -/
theorem family_before (hv : Visits d (whole t) u) (inside : u.cursor.pos < u.cursor.window.stop)
    (hs : u.style ≠ .plain) :
    0 < u.cursor.pos ∧ (d.styleAt t (u.cursor.pos - 1)).family = u.style.family := by
  have hopen : u.cursor.window.boundary < u.cursor.pos := by
    cases hv with
    | refl => exact absurd (Style.ofCode_code .plain) hs
    | step hr hin => exact hr.through.boundary_lt_step hin inside (.inl hs)
  refine ⟨Nat.zero_lt_of_lt hopen, ?_⟩
  rw [hv.family_eq (by omega), Cursor.shown_of_boundary_le (by omega)]
  rfl

/-- A scan comes to the end of its window. -/
theorem of_run (d : Dialect) (s : Scan) : Visits d s (s.run d) := by
  fun_induction Scan.run d s with
  | case1 s inside ih => exact (Visits.refl.step inside).trans ih
  | case2 => exact .refl

end Visits

/-- The scan of a text comes behind each of its characters. -/
theorem lt_pos_run (hq : q < t.length) : q < ((whole t).run d).cursor.pos := by
  have hstop := stop_le_pos_run d (whole t)
  rw [(through_whole t).stop_eq] at hstop
  exact Nat.lt_of_lt_of_le hq hstop

/-! ## How a step passes a character -/

/-- **How a step of a scan of the whole of `t` passes the character at `q`, and in which
    style.** -/
inductive Passes (d : Dialect) (t : Text) (q : Nat) (s : Scan) : Style → Prop where
  /-- It belongs to a line end with a backslash before it. -/
  | joined (hjoin : t.JoinsAt s.cursor.pos) (hlt : q < t.behindJoin s.cursor.pos) :
      Passes d t q s s.style
  /-- It is the last of what ends there. -/
  | left (hover : s.beginLine.atContinuation = false)
      (hlt : q < (s.beginLine.leaveStyle d).cursor.pos) : Passes d t q s s.style
  /-- The style that the scan is in then goes on. -/
  | kept (hover : s.beginLine.atContinuation = false)
      (hnone : (s.beginLine.leaveStyle d).entering? d = none)
      (hpos : (s.beginLine.leaveStyle d).cursor.pos = q) :
      Passes d t q s (s.beginLine.leaveStyle d).style
  /-- Something begins there or right before. -/
  | entered {what : Enter} {p : Nat} (h : s.Enters d t what p) (hle : p ≤ q) :
      Passes d t q s what.style

/-- What begins, begins at its mark. -/
theorem meets_of_entering? {what : Enter} (h : s.entering? d = some what) :
    what.Meets s.cursor.surroundings s.memory := by
  unfold entering? at h
  split at h
  · exact enter?_meets h
  · cases h

theorem Enters.meets {what : Enter} {p : Nat} (h : s.Enters d t what p) :
    what.Meets (s.beginLine.leaveStyle d).cursor.surroundings
      (s.beginLine.leaveStyle d).memory := meets_of_entering? h.entering?_eq

/-- What begins without a mark of its own is passed by one character. -/
theorem Enters.pos_step_le {what : Enter} {p : Nat} (h : s.Enters d t what p)
    (hw : what ≠ .directive)
    (hmark : ((s.beginLine.leaveStyle d).applyEnter what).cursor.pos =
      (s.beginLine.leaveStyle d).cursor.pos) : (s.step d).cursor.pos ≤ p + 1 := by
  rw [h.step_eq hw, cursor_passChar, Cursor.pos_advance, hmark, h.pos_eq]
  split <;> omega

/-- What has begun is shown from its first character on. -/
theorem Enters.shown_eq {what : Enter} {p : Nat} (h : s.Enters d t what p) (hle : p ≤ q)
    (hlt : q < (s.step d).cursor.pos) :
    (s.step d).cursor.shown q = what.style.code := by
  by_cases hw : what = .directive
  · subst hw
    have hstep : s.step d = (s.beginLine.leaveStyle d).openDirective := by
      rw [step_of_not_atContinuation h.hover, enterAndPass_of_directive h.entering?_eq]
    rw [hstep] at hlt ⊢
    exact shown_openDirective h.through_left.covers (h.pos_eq ▸ hle) hlt
  · have hboundary : (s.step d).cursor.window.boundary ≤ q := (h.boundary_step hw).symm ▸ hle
    exact (shown_eq_iff (h.through.step h.inside).covers hboundary).2 (h.style_step hw)

/-- **A step passes a character in one of these ways**, and in a style of its family. -/
theorem Visits.passes (hv : Visits d (whole t) s) (inside : s.cursor.pos < s.cursor.window.stop)
    (hle : s.cursor.pos ≤ q) (hlt : q < (s.step d).cursor.pos) :
    ∃ style, s.Passes d t q style ∧
      (Style.ofCode ((s.step d).cursor.shown q)).family = style.family := by
  have h := hv.through
  have hopen : Style.ofCode (s.cursor.shown q) = s.style := by
    rw [Cursor.shown_of_boundary_le (Nat.le_trans h.covers.boundary_le hle)]
    rfl
  by_cases hjoin : t.JoinsAt s.cursor.pos
  · have hstep := h.step_of_joinsAt (d := d) inside hjoin
    refine ⟨s.style, .joined hjoin (h.pos_step_of_joinsAt inside hjoin ▸ hlt), ?_⟩
    rw [hstep, shown_passContinuation, shown_beginLine h.covers (h.start_le q), hopen]
  · have hover := h.not_atContinuation inside hjoin
    have hreach := reaches_leaveStyle d s
    have hstep := step_of_not_atContinuation (d := d) hover
    rcases Nat.lt_or_ge q (s.beginLine.leaveStyle d).cursor.pos with hleft | hahead
    · refine ⟨s.style, .left hover hleft, ?_⟩
      rw [hstep, (steady_enterAndPass d _).shown_eq (hreach.covers h.covers)
        (hreach.start_eq ▸ h.start_le q) hleft, h.family_leaveStyle hleft, hopen]
    · cases hwhat : (s.beginLine.leaveStyle d).entering? d with
      | none =>
        rw [hstep, enterAndPass_of_none hwhat, cursor_passChar, Cursor.pos_advance] at hlt
        have hpos : (s.beginLine.leaveStyle d).cursor.pos = q := by
          split at hlt <;> omega
        refine ⟨_, .kept hover hwhat hpos, ?_⟩
        rw [hstep, enterAndPass_of_none hwhat, cursor_passChar, Cursor.shown_advance,
          Cursor.shown_of_boundary_le (Nat.le_trans (hreach.covers h.covers).boundary_le hahead)]
        rfl
      | some what =>
        have hbegins : s.Enters d t what (s.beginLine.leaveStyle d).cursor.pos :=
          ⟨hv, inside, hover, hwhat, rfl⟩
        refine ⟨_, .entered hbegins hahead, ?_⟩
        rw [hbegins.shown_eq hahead hlt, Style.ofCode_code]

/-- So each character of the text is in the family of the style that it has been passed in. -/
theorem Visits.exists_passes (hv : Visits d (whole t) s)
    (inside : s.cursor.pos < s.cursor.window.stop) (hle : s.cursor.pos ≤ q)
    (hlt : q < (s.step d).cursor.pos) :
    ∃ style, s.Passes d t q style ∧ (d.styleAt t q).family = style.family := by
  obtain ⟨style, hpasses, hfamily⟩ := hv.passes inside hle hlt
  exact ⟨style, hpasses, ((hv.step inside).family_eq hlt).trans hfamily⟩

/-- What is passed when a style is left is in its family. -/
theorem Visits.family_of_left (hv : Visits d (whole t) s)
    (inside : s.cursor.pos < s.cursor.window.stop) (hle : s.cursor.pos ≤ q)
    (hlt : q < (s.beginLine.leaveStyle d).cursor.pos)
    (hover : s.beginLine.atContinuation = false) :
    (d.styleAt t q).family = s.style.family := by
  have hbehind : q < (s.step d).cursor.pos := by
    rw [step_of_not_atContinuation hover]
    exact Nat.lt_of_lt_of_le hlt (reaches_enterAndPass d _).pos_le
  obtain ⟨style, hpasses, hfamily⟩ := hv.exists_passes inside hle hbehind
  cases hpasses with
  | joined | left => exact hfamily
  | kept _ _ hpos => exact absurd hlt (Nat.not_lt.2 (Nat.le_of_eq hpos))
  | entered h hle' =>
    rw [h.pos_eq] at hlt
    exact absurd hlt (Nat.not_lt.2 hle')

end Scan

namespace Dialect

variable {d : Dialect} {t : Text} {q : Nat}

/-- Each character of a text has a style. -/
theorem getElem?_lexText_eq (hq : q < t.length) :
    (d.lexer.lexText t 0 t.length 0)[q]? = some (d.styleAt t q).code := by
  have hcovers : Scan.Covers ((((Scan.whole t).run d).closeWord d).cursor.switchTo
      Style.plain.code) :=
    ((d.reaches_closed (Scan.whole t)).covers (Scan.through_whole t).covers).switchTo .plain
  have hcommitted := (Scan.Visits.refl (d := d) (s := Scan.whole t)).getElem?_lexText q
  have hsize : (d.lexer.lexText t 0 t.length 0).size = t.length := by
    rw [size_lexText]
    omega
  obtain ⟨code, hcode⟩ : ∃ code, (d.lexer.lexText t 0 t.length 0)[q]? = some code :=
    ⟨_, Array.getElem?_eq_getElem (by rw [hsize]; exact hq)⟩
  rw [hcode] at hcommitted
  have hstyle : IsStyle code := by
    refine hcovers.pending code ?_
    have hmem := hcommitted.symm
    unfold Window.committed? at hmem
    split at hmem
    · exact Array.mem_of_getElem? hmem
    · exact nomatch hmem
  obtain ⟨style, rfl⟩ := hstyle
  have hshown : ((Scan.whole t).complete d).cursor.shown q = style.code := by
    rw [Cursor.shown, ← hcommitted]
    rfl
  rw [hcode, styleAt, hshown, Style.ofCode_code]

theorem getElem?_lexText_iff {style : Style} :
    (d.lexer.lexText t 0 t.length 0)[q]? = some style.code ↔
      q < t.length ∧ d.styleAt t q = style := by
  by_cases hq : q < t.length
  · rw [getElem?_lexText_eq hq, Option.some.injEq, Style.code_inj]
    simp [hq]
  · have hsize : (d.lexer.lexText t 0 t.length 0).size ≤ q := by
      rw [size_lexText]
      omega
    rw [Array.getElem?_eq_none hsize]
    simp [hq]

end Dialect

end StyledText.CFamily
