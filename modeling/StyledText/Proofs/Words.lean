/-
  Words that are looked up when they end.

  The words of the code, and the keywords of documenting comments, are looked up when
  they end.  Until then their run is open, and a scan within it does nothing but pass
  characters.  So what becomes of a word does not hang on how the scan has come to
  its beginning.

  * `Visits`: the scans that a scan comes to;
  * `Within` and `Begins`: a scan within the run of a word, and one whose next step
    begins it; `begins_of_within`: each such run has been begun by a step;
  * `run_of_goesOn`: a word goes on with its characters;
  * `SameWord`: two scans within the same word of the same text, and
    `SameWord.committed?_complete`: they end it in the same style.
-/
import StyledText.Proofs.OtherWindow

namespace StyledText

namespace Cursor

variable {c c' : Cursor} {q : Nat} {state code : UInt8}

theorem committed?_switchTo (hb : c.window.boundary ≤ q) (hq : q < c.pos)
    (hp : c.pos ≤ c.window.stop) : (c.switchTo state).window.committed? q = some c.state := by
  rw [switchTo, committed?_close (Nat.le_trans (Nat.le_add_right _ _) hb) hq hp,
    shown_of_boundary_le hb]

theorem recolour_eq (h : c.state = state) : c.recolour state = c := by
  subst h
  rfl

/-- **Two cursors of the same text are at the same place in the same open run.** -/
structure InStep (c c' : Cursor) : Prop where
  char_eq : ∀ q, c'.window.charOrSpace q = c.window.charOrSpace q
  stop_eq : c'.window.stop = c.window.stop
  stop_le : c.window.stop ≤ c.window.length
  stop_le' : c'.window.stop ≤ c'.window.length
  boundary_eq : c'.window.boundary = c.window.boundary
  pos_eq : c'.pos = c.pos
  state_eq : c'.state = c.state
  ch_eq : c'.ch = c.ch
  next_eq : c'.next = c.next

namespace InStep

theorem inside_iff (h : c.InStep c') : c'.pos < c'.window.stop ↔ c.pos < c.window.stop := by
  rw [h.pos_eq, h.stop_eq]

theorem advance (h : c.InStep c') : c.advance.InStep c'.advance := by
  by_cases inside : c.pos < c.window.stop
  · rw [advance_of_lt inside, advance_of_lt (h.inside_iff.2 inside)]
    exact
      { h with
        pos_eq := congrArg (· + 1) h.pos_eq
        ch_eq := h.next_eq
        next_eq := by rw [h.pos_eq, h.char_eq] }
  · rw [advance_of_not_lt inside, advance_of_not_lt (mt h.inside_iff.1 inside)]
    exact
      { h with
        ch_eq := rfl
        next_eq := rfl }

/-- The state of a run can be changed without a look at the text. -/
theorem recolour (h : c.InStep c') (state : UInt8) :
    (c.recolour state).InStep (c'.recolour state) :=
  { h with state_eq := rfl }

theorem openRun_eq (h : c.InStep c') (hp : c.pos ≤ c.window.stop) : c'.openRun = c.openRun := by
  refine openRun_congr h.boundary_eq h.pos_eq (Nat.le_trans hp h.stop_le) ?_ fun q _ => h.char_eq q
  rw [h.pos_eq]
  exact Nat.le_trans (h.stop_eq ▸ hp) h.stop_le'

end InStep

end Cursor

namespace CFamily

/-- The styles of what is looked up when it ends. -/
def Style.isLookedUp : Style → Bool
  | identifier | docKeyword => true
  | _ => false

/-- The style in which something begins. -/
def Enter.style : Enter → Style
  | verbatim => .verbatim
  | number => .number
  | identifier => .identifier
  | uuid => .uuid
  | blockComment doc => if doc then .docComment else .blockComment
  | lineComment doc => if doc then .docLineComment else .lineComment
  | regex => .regex
  | literal l => l.style
  | directive => .directive
  | operator => .operator

theorem Enter.eq_identifier_of_isLookedUp {what : Enter} (h : what.style.isLookedUp = true) :
    what = .identifier := by
  cases what with
  | identifier => rfl
  | blockComment doc | lineComment doc => cases doc <;> exact nomatch h
  | literal literal => cases literal <;> exact nomatch h
  | _ => exact nomatch h

namespace Scan

variable {d : Dialect} {s t r : Scan} {style : Style} {a k : Nat}

/-! ## Scans on the way -/

theorem complete_step (inside : s.cursor.pos < s.cursor.window.stop) :
    s.complete d = (s.step d).complete d := by
  rw [complete, complete, run_of_inside inside]

/-- The scan `s` comes to `t`. -/
inductive Visits (d : Dialect) (s : Scan) : Scan → Prop where
  | refl : Visits d s s
  | step {t : Scan} (h : Visits d s t) (inside : t.cursor.pos < t.cursor.window.stop) :
      Visits d s (t.step d)

namespace Visits

theorem trans (h : Visits d s t) (h' : Visits d t r) : Visits d s r := by
  induction h' with
  | refl => exact h
  | step _ inside ih => exact ih.step inside

/-- A scan that comes further takes a step first. -/
theorem eq_or_step (h : Visits d s t) :
    t = s ∨ s.cursor.pos < s.cursor.window.stop ∧ Visits d (s.step d) t := by
  induction h with
  | refl => exact .inl rfl
  | step _ inside ih =>
    rcases ih with rfl | ⟨first, ih⟩
    · exact .inr ⟨inside, .refl⟩
    · exact .inr ⟨first, ih.step inside⟩

theorem reaches (h : Visits d s t) : Reaches s.cursor t.cursor := by
  induction h with
  | refl => exact .refl
  | step _ _ ih => exact ih.trans (reaches_step d _)

theorem tidy (h : Visits d s t) (hm : s.Tidy) : t.Tidy := by
  induction h with
  | refl => exact hm
  | step _ inside ih => exact ih.step inside

theorem complete_eq (h : Visits d s t) : t.complete d = s.complete d := by
  induction h with
  | refl => rfl
  | step _ inside ih => rw [← ih, ← complete_step inside]

theorem of_runTo (d : Dialect) (p : Nat) (s : Scan) : Visits d s (s.runTo d p) := by
  fun_induction runTo d p s with
  | case1 s inside ih => exact (Visits.refl.step inside.2).trans ih
  | case2 => exact .refl

end Visits

/-! ## How a word begins -/

/-- The scan is within a run of `style` that is open from `a` on. -/
structure Within (style : Style) (a : Nat) (s : Scan) : Prop where
  style_eq : s.style = style
  boundary_eq : s.cursor.window.boundary = a

/-- **The next step of the scan begins a word at `a`**, or a keyword in a comment. -/
inductive Begins (d : Dialect) (a : Nat) (s : Scan) : Style → Prop where
  | word (hpos : (s.beginLine.leaveStyle d).cursor.pos = a)
      (hover : s.beginLine.atContinuation = false)
      (hwhat : (s.beginLine.leaveStyle d).entering? d = some .identifier) :
      Begins d a s .identifier
  | docKeyword (hpos : s.cursor.pos = a) (hover : s.beginLine.atContinuation = false)
      (hhow : s.beginLine.leaving d = .openDocKeyword) : Begins d a s .docKeyword

theorem style_beginLine : s.beginLine.style = s.style := by
  unfold beginLine
  split
  · dsimp only
    split
    · exact style_switchTo
    · rfl
  · rfl

/-- Only an open literal is closed at the start of a line. -/
theorem cursor_beginLine (h : s.style ≠ .string) (h' : s.style ≠ .character) :
    s.beginLine.cursor = s.cursor := by
  unfold beginLine
  split
  · dsimp only
    rw [if_neg (not_or.2 ⟨h, h'⟩)]
    rfl
  · rfl

theorem cursor_beginLine_of_isLookedUp (h : s.style.isLookedUp = true) :
    s.beginLine.cursor = s.cursor := by
  refine cursor_beginLine ?_ ?_
  · intro hs
    rw [hs] at h
    exact nomatch h
  · intro hs
    rw [hs] at h
    exact nomatch h

theorem docStyle_beginLine : s.beginLine.memory.docStyle = s.memory.docStyle := by
  unfold beginLine
  split
  · dsimp only
    split <;> rfl
  · rfl

theorem cursor_passContinuation_window :
    s.passContinuation.cursor.window = s.cursor.window := by
  unfold passContinuation
  dsimp only [remember]
  split <;> simp [advance]

theorem style_passContinuation : s.passContinuation.style = s.style := by
  unfold passContinuation
  dsimp only
  split <;> simp [remember, style, advance]

/-- What begins leaves nothing open before it. -/
theorem boundary_applyEnter {what : Enter} (hc : Covers s.cursor) (hw : what ≠ .directive) :
    (s.applyEnter what).cursor.window.boundary = s.cursor.pos := by
  have hswitch (next : Style) : (s.switchTo next).cursor.window.boundary = s.cursor.pos :=
    hc.boundary_switchTo next.code
  have hadvance (next : Style) :
      (s.switchTo next).advance.cursor.window.boundary = s.cursor.pos := by
    rw [advance, Cursor.window_advance, hswitch]
  cases what with
  | verbatim | blockComment => exact hadvance _
  | literal literal =>
    cases literal with
    | string close => exact hswitch _
    | character => exact hswitch _
  | directive => exact absurd rfl hw
  | _ => exact hswitch _

theorem style_applyEnter {what : Enter} (hw : what ≠ .directive) :
    (s.applyEnter what).style = what.style := by
  have hadvance (next : Style) : (s.switchTo next).advance.style = next := by
    rw [style_advance, style_switchTo]
  cases what with
  | verbatim | blockComment => exact hadvance _
  | literal literal =>
    cases literal with
    | string close => exact style_switchTo
    | character => exact style_switchTo
  | directive => exact absurd rfl hw
  | _ => exact style_switchTo

theorem style_openDirective :
    s.openDirective.style = .directive ∨ s.openDirective.style = .plain := by
  have hword : s.directiveWord.style = .directive := by
    rw [directiveWord, style_skipWhile, style_advance, style_switchTo]
  rw [openDirective_eq]
  split
  · exact .inr style_switchTo
  · split
    · exact .inl hword
    · exact .inl hword

theorem pos_lt_of_entering? {what : Enter} (hw : s.entering? d = some what) :
    s.cursor.pos < s.cursor.window.stop := by
  unfold entering? at hw
  split at hw
  · rename_i hmore
    simp only [Cursor.more, Bool.and_eq_true, decide_eq_true_eq] at hmore
    exact hmore.1
  · cases hw

/-- The style that a scan is in when it has acted on the end of a style. -/
def styleAfter (s : Scan) : Leave → Style
  | .stay | .skipNext => s.style
  | .switch next | .switchAfter next | .switchAfterPair next | .recolour next => next
  | .endWord | .breakDocKeyword | .closeRegex => .plain
  | .openDocKeyword => .docKeyword
  | .closeDocKeyword => s.memory.docStyle
  | .openLiteral l => l.style
  | .closeLiteral => if s.memory.inDirective then .directive else .plain

theorem style_applyLeave (how : Leave) : (s.applyLeave d style how).style = s.styleAfter how := by
  cases how with
  | stay => rfl
  | skipNext => exact style_advance
  | recolour next => exact style_recolour
  | endWord => exact style_endWord
  | closeLiteral =>
    rw [applyLeave, closeLiteral]
    dsimp only
    split
    · exact style_switchTo
    · exact style_switchTo
  | _ => exact style_switchTo

/-- **The style in which a scan is when it has acted on the end of a style**, and the answer
    that has led to it. -/
theorem style_leaveStyle_cases (hm : s.memory.Sane) :
    (s.leaveStyle d).style = s.style ∧ (s.leaving d = .stay ∨ s.leaving d = .skipNext) ∨
      (s.leaveStyle d).style = .plain ∨
      (s.leaveStyle d).style = .unclosed ∧ s.leaving d = .recolour .unclosed ∨
      (s.leaveStyle d).style = .docKeyword ∧ s.leaving d = .openDocKeyword ∨
      (s.leaveStyle d).style = s.memory.docStyle ∧ s.leaving d = .closeDocKeyword ∨
      (∃ l, (s.leaveStyle d).style = l.style ∧ s.leaving d = .openLiteral l) ∨
      (s.leaveStyle d).style = .directive ∧ s.leaving d = .closeLiteral := by
  have hf : (s.leaving d).Fits s.style s.cursor.surroundings := leave_fits hm
  rw [leaveStyle, style_applyLeave]
  cases hhow : s.leaving d with
  | stay => simp [styleAfter]
  | skipNext => simp [styleAfter]
  | switch next =>
    rw [hhow] at hf
    exact .inr (.inl hf)
  | switchAfter next | switchAfterPair next =>
    rw [hhow] at hf
    exact .inr (.inl hf.1)
  | recolour next =>
    rw [hhow] at hf
    rw [styleAfter, hf.1]
    simp
  | openLiteral l =>
    refine .inr (.inr (.inr (.inr (.inr (.inl ⟨l, rfl, rfl⟩)))))
  | closeLiteral =>
    rw [styleAfter]
    split <;> simp
  | endWord | breakDocKeyword | closeRegex => exact .inr (.inl rfl)
  | openDocKeyword | closeDocKeyword => simp [styleAfter]

/-- In a style that is looked up, the end of the style at the cursor is nothing or the
    beginning of a keyword. -/
theorem within_of_leaveStyle (hm : s.Tidy) (hc : Covers s.cursor) (hl : style.isLookedUp = true)
    (h : (s.leaveStyle d).Within style a) :
    s.Within style a ∨
      style = .docKeyword ∧ s.leaving d = .openDocKeyword ∧ s.cursor.pos = a := by
  obtain ⟨hstyle, hboundary⟩ := h
  rw [leaveStyle] at hboundary
  rcases style_leaveStyle_cases (d := d) hm.sane with ⟨hs, hhow⟩ | hs | ⟨hs, -⟩ | ⟨hs, hhow⟩ |
    ⟨hs, -⟩ | ⟨l, hs, -⟩ | ⟨hs, -⟩ <;> rw [hstyle] at hs
  · refine .inl ⟨hs.symm, ?_⟩
    rcases hhow with hhow | hhow <;> rw [hhow] at hboundary
    · exact hboundary
    · rwa [applyLeave, advance, Cursor.window_advance] at hboundary
  -- All other styles but one are not looked up.
  · rw [hs] at hl
    cases hl
  · rw [hs] at hl
    cases hl
  · rw [hhow, applyLeave] at hboundary
    exact .inr ⟨hs, hhow, (hc.boundary_switchTo Style.docKeyword.code).symm.trans hboundary⟩
  · rw [hs] at hl
    rcases hm.sane.docStyle with hd | hd <;> rw [hd] at hl <;> cases hl
  · rw [hs] at hl
    cases l <;> cases hl
  · rw [hs] at hl
    cases hl

/-- **A scan is within a word after a step if it was so before**, or if the step has
    begun the word. -/
theorem within_of_step (hm : s.Tidy) (hc : Covers s.cursor) (hl : style.isLookedUp = true)
    (h : (s.step d).Within style a) : s.Within style a ∨ s.Begins d a style := by
  have hbegin (hw : s.beginLine.Within style a) : s.Within style a := by
    have hstyle : s.style = style := style_beginLine.symm.trans hw.style_eq
    refine ⟨hstyle, ?_⟩
    rw [← hw.boundary_eq, cursor_beginLine_of_isLookedUp (hstyle ▸ hl)]
  by_cases hover : s.beginLine.atContinuation = true
  · rw [step, if_pos hover] at h
    refine .inl (hbegin ⟨?_, ?_⟩)
    · rw [← style_passContinuation, h.style_eq]
    · rw [← cursor_passContinuation_window, h.boundary_eq]
  · rw [step, if_neg hover] at h
    rw [Bool.not_eq_true] at hover
    have hcovers : Covers (s.beginLine.leaveStyle d).cursor :=
      ((reaches_beginLine s).trans (reaches_applyLeave d _ _ _)).covers hc
    unfold enterAndPass at h
    split at h
    · rcases style_openDirective (s := s.beginLine.leaveStyle d) with hs | hs
      · rw [← h.style_eq, show (applyEnter _ .directive).style = .directive from hs] at hl
        cases hl
      · rw [← h.style_eq, show (applyEnter _ .directive).style = .plain from hs] at hl
        cases hl
    · rename_i what hne hwhat
      obtain ⟨hstyle, hboundary⟩ := h
      rw [style_passChar, style_applyEnter hne] at hstyle
      rw [cursor_passChar, Cursor.window_advance, boundary_applyEnter hcovers hne] at hboundary
      have hword : what = .identifier := by
        rw [← hstyle] at hl
        exact Enter.eq_identifier_of_isLookedUp hl
      rw [hword] at hwhat hstyle
      subst hstyle
      exact .inr (.word hboundary hover hwhat)
    · obtain ⟨hstyle, hboundary⟩ := h
      rw [style_passChar] at hstyle
      rw [cursor_passChar, Cursor.window_advance] at hboundary
      rcases within_of_leaveStyle hm.beginLine ((reaches_beginLine s).covers hc) hl
          ⟨hstyle, hboundary⟩ with hw | ⟨rfl, hhow, hpos⟩
      · exact .inl (hbegin hw)
      · exact .inr (.docKeyword (pos_beginLine.symm.trans hpos) hover hhow)

/-- **Every word has been begun by a step.** -/
theorem Visits.begins_of_within (h : Visits d s t) (hm : s.Tidy) (hc : Covers s.cursor)
    (hl : style.isLookedUp = true) (hs : ¬ s.Within style a) (ht : t.Within style a) :
    ∃ u, Visits d s u ∧ u.cursor.pos < u.cursor.window.stop ∧ u.Begins d a style ∧
      Visits d (u.step d) t := by
  induction h with
  | refl => exact absurd ht hs
  | step hr inside ih =>
    rcases within_of_step (hr.tidy hm) (hr.reaches.covers hc) hl ht with hw | hb
    · obtain ⟨u, hu, hin, hbegins, hrest⟩ := ih hw
      exact ⟨u, hu, hin, hbegins, hrest.step inside⟩
    · exact ⟨_, hr, inside, hb, .refl⟩

/-- A cursor that moves on has the character before it that it was on. -/
theorem ch_advance (hs : s.cursor.Sees) (inside : s.cursor.pos < s.cursor.window.stop) :
    s.cursor.advance.ch = s.cursor.window.charOrSpace (s.cursor.pos + 1) := by
  rw [Cursor.advance_of_lt inside, ← hs.next_eq inside]

/-! ## What a step does -/

theorem step_of_not_atContinuation (hover : s.beginLine.atContinuation = false) :
    s.step d = (s.beginLine.leaveStyle d).enterAndPass d := by
  rw [step, hover]
  rfl

theorem leaveStyle_of_stay (hhow : s.leaving d = .stay) : s.leaveStyle d = s := by
  rw [leaveStyle, hhow, applyLeave]

theorem leaveStyle_of_switch {next : Style} (hhow : s.leaving d = .switch next) :
    s.leaveStyle d = s.switchTo next := by
  rw [leaveStyle, hhow, applyLeave]

theorem leaveStyle_of_openDocKeyword (hhow : s.leaving d = .openDocKeyword) :
    s.leaveStyle d =
      (s.remember fun m => { m with docStyle := s.style }).switchTo .docKeyword := by
  rw [leaveStyle, hhow]
  rfl

theorem enterAndPass_of_none (hwhat : s.entering? d = none) : s.enterAndPass d = s.passChar := by
  rw [enterAndPass, hwhat]

theorem enterAndPass_of_directive (hwhat : s.entering? d = some .directive) :
    s.enterAndPass d = s.openDirective := by
  rw [enterAndPass, hwhat]
  rfl

theorem enterAndPass_of_some {what : Enter} (hwhat : s.entering? d = some what)
    (hw : what ≠ .directive) :
    s.enterAndPass d = (s.applyEnter what).passChar := by
  rw [enterAndPass, hwhat]
  cases what with
  | directive => exact absurd rfl hw
  | _ => rfl

theorem reaches_leaveStyle (d : Dialect) (s : Scan) :
    Reaches s.cursor (s.beginLine.leaveStyle d).cursor :=
  (reaches_beginLine s).trans (reaches_applyLeave d s.beginLine s.beginLine.style _)

theorem step_of_openDocKeyword (hover : s.beginLine.atContinuation = false)
    (hhow : s.beginLine.leaving d = .openDocKeyword) :
    s.step d = (s.beginLine.leaveStyle d).passChar := by
  have hnone : (s.beginLine.leaveStyle d).entering? d = none := by
    rw [entering?, leaveStyle_of_openDocKeyword hhow, style_switchTo, if_neg]
    simp
  rw [step_of_not_atContinuation hover, enterAndPass_of_none hnone]

/-- A scan that passes the first character of a run. -/
theorem Within.passChar (h : s.Within style a) (hs : s.cursor.Sees) (hpos : s.cursor.pos = a)
    (inside : s.cursor.pos < s.cursor.window.stop) :
    s.passChar.Within style a ∧ s.passChar.cursor.pos = a + 1 ∧
      s.passChar.cursor.ch = s.passChar.cursor.window.charOrSpace (a + 1) := by
  rw [cursor_passChar, Cursor.window_advance, Cursor.pos_advance, if_pos inside, hpos,
    ch_advance hs inside, hpos]
  refine ⟨⟨style_passChar.trans h.style_eq, ?_⟩, rfl, rfl⟩
  rw [cursor_passChar, Cursor.window_advance, h.boundary_eq]

/-- **The step that begins a word passes its first character.** -/
theorem Begins.step (h : s.Begins d a style) (hs : s.cursor.Sees) (hc : Covers s.cursor)
    (inside : s.cursor.pos < s.cursor.window.stop) :
    (s.step d).Within style a ∧ (s.step d).cursor.pos = a + 1 ∧
      (s.step d).cursor.ch = (s.step d).cursor.window.charOrSpace (a + 1) := by
  have hreach := reaches_leaveStyle d s
  cases h with
  | word hpos hover hwhat =>
    rw [step_of_not_atContinuation hover, enterAndPass_of_some hwhat (by decide)]
    generalize s.beginLine.leaveStyle d = u at hreach hpos hwhat
    have hbegun : (u.applyEnter .identifier).Within .identifier a :=
      ⟨style_applyEnter (by decide),
        (boundary_applyEnter (hreach.covers hc) (by decide)).trans hpos⟩
    have hin : u.cursor.pos < u.cursor.window.stop := pos_lt_of_entering? hwhat
    exact hbegun.passChar ((hreach.switchTo .identifier).sees hs) hpos hin
  | docKeyword hpos hover hhow =>
    have hpos' : (s.beginLine.leaveStyle d).cursor.pos = a := by
      rw [leaveStyle_of_openDocKeyword hhow]
      exact pos_beginLine.trans hpos
    have hbegun : (s.beginLine.leaveStyle d).Within .docKeyword a := by
      rw [leaveStyle_of_openDocKeyword hhow]
      exact ⟨style_switchTo, (((reaches_beginLine s).covers hc).boundary_switchTo _).trans
        (pos_beginLine.trans hpos)⟩
    rw [step_of_openDocKeyword hover hhow]
    refine hbegun.passChar (hreach.sees hs) hpos' ?_
    rw [hpos', ← hpos]
    exact Nat.lt_of_lt_of_eq inside hreach.stop_eq.symm

theorem docStyle_passChar : s.passChar.memory.docStyle = s.memory.docStyle := by
  unfold passChar
  dsimp only
  split <;> rfl

theorem docStyle_passContinuation :
    s.passContinuation.memory.docStyle = s.memory.docStyle := by
  unfold passContinuation
  dsimp only
  split <;> rfl

/-- A keyword remembers the style of the comment that it is in. -/
theorem Begins.docStyle_eq (h : s.Begins d a .docKeyword) :
    (s.step d).memory.docStyle = s.style := by
  cases h with
  | docKeyword hpos hover hhow =>
    rw [step_of_openDocKeyword hover hhow, docStyle_passChar, leaveStyle_of_openDocKeyword hhow]
    exact style_beginLine

/-! ## How a word goes on -/

/-- Whether `ch` can be part of a word in `style`, behind its first character. -/
def goesOn (settings : Settings) (style : Style) (ch : Char) : Bool :=
  match style with
  | .identifier => isIdentifierChar settings ch
  | .docKeyword => isSmallLetter ch
  | _ => false

theorem not_backslash_of_goesOn {settings : Settings} {ch : Char}
    (h : goesOn settings style ch = true) : ch ≠ '\\' := by
  rintro rfl
  cases style with
  | identifier =>
    simp only [goesOn, isIdentifierChar, Bool.or_eq_true, Bool.and_eq_true] at h
    rcases h with h | h
    · exact absurd h (by decide)
    · exact absurd h.1 (by decide)
  | docKeyword => exact absurd (show isSmallLetter '\\' = true from h) (by decide)
  | _ => cases h

theorem leaving_of_goesOn (h : goesOn d.settings s.style s.cursor.ch = true) :
    s.leaving d = .stay := by
  rw [leaving]
  generalize s.style = style at h
  cases style with
  | identifier => exact if_pos h
  | docKeyword =>
    have hclose : closesComment s.cursor.surroundings = false := by
      rw [closesComment, Bool.and_eq_false_iff]
      refine .inl (beq_eq_false_iff_ne.2 fun hch => ?_)
      rw [goesOn, show s.cursor.ch = '*' from hch] at h
      exact absurd h (by decide)
    rw [leave, hclose, if_neg (fun hboth => Bool.false_ne_true hboth.2)]
    exact if_pos h
  | _ => cases h

/-- A keyword goes on with a small letter, and else it ends. -/
theorem leaving_of_docKeyword (hs : s.style = .docKeyword) :
    s.leaving d = .stay ∧ isSmallLetter s.cursor.ch = true ∨
      s.leaving d = .breakDocKeyword ∨ s.leaving d = .closeDocKeyword := by
  rw [leaving, hs, leave]
  split_ifs with hbreak hletter
  · exact .inr (.inl rfl)
  · exact .inl ⟨rfl, hletter⟩
  · exact .inr (.inr rfl)

theorem isLookedUp_of_goesOn {settings : Settings} {ch : Char}
    (h : goesOn settings style ch = true) : style.isLookedUp = true := by
  cases style with
  | identifier | docKeyword => rfl
  | _ => exact nomatch h

/-- A step within a word passes a character of it. -/
theorem step_of_goesOn (h : goesOn d.settings s.style s.cursor.ch = true) :
    s.step d = s.beginLine.passChar := by
  have hl := isLookedUp_of_goesOn h
  have hcursor : s.beginLine.cursor = s.cursor := cursor_beginLine_of_isLookedUp hl
  have h' : goesOn d.settings s.beginLine.style s.beginLine.cursor.ch = true := by
    rwa [style_beginLine, hcursor]
  have hcont : s.beginLine.atContinuation = false := by
    rw [atContinuation, beq_false_of_ne (not_backslash_of_goesOn h'), Bool.false_and]
  have hleft : s.beginLine.leaveStyle d = s.beginLine :=
    leaveStyle_of_stay (leaving_of_goesOn h')
  have hnone : s.beginLine.entering? d = none := by
    rw [entering?, if_neg]
    rw [style_beginLine, Bool.and_eq_true, beq_iff_eq]
    rintro ⟨-, hs⟩
    rw [hs] at hl
    cases hl
  rw [step_of_not_atContinuation hcont, hleft, enterAndPass_of_none hnone]

/-- **A word goes on with its characters**: a scan within it comes to each place
    before which it can go on. -/
theorem run_of_goesOn (h : s.Within style a) (hs : s.cursor.Sees)
    (hch : s.cursor.ch = s.cursor.window.charOrSpace s.cursor.pos)
    (hgo : ∀ q, s.cursor.pos ≤ q → q < k →
      goesOn d.settings style (s.cursor.window.charOrSpace q) = true)
    (hk : s.cursor.pos ≤ k) (hstop : k ≤ s.cursor.window.stop) :
    (s.runTo d k).Within style a ∧ (s.runTo d k).cursor.pos = k ∧
      (s.runTo d k).cursor.ch = (s.runTo d k).cursor.window.charOrSpace k := by
  fun_induction runTo d k s with
  | case1 s inside ih =>
    have hthis : goesOn d.settings s.style s.cursor.ch = true := by
      rw [h.style_eq, hch]
      exact hgo _ (Nat.le_refl _) inside.1
    have hl := isLookedUp_of_goesOn hthis
    have hcursor : (s.step d).cursor = s.cursor.advance := by
      rw [step_of_goesOn hthis, cursor_passChar, cursor_beginLine_of_isLookedUp hl]
    have hstyle : (s.step d).style = style := by
      rw [step_of_goesOn hthis, style_passChar, style_beginLine, h.style_eq]
    have hpos : (s.step d).cursor.pos = s.cursor.pos + 1 := by
      rw [hcursor, Cursor.pos_advance, if_pos inside.2]
    have hwindow : (s.step d).cursor.window = s.cursor.window := by
      rw [hcursor, Cursor.window_advance]
    rw [hwindow, hpos] at ih
    refine ih ⟨hstyle, ?_⟩ ?_ ?_ ?_ inside.1 hstop
    · rw [hwindow, h.boundary_eq]
    · rw [hcursor]
      exact hs.advance
    · rw [hcursor, ch_advance hs inside.2]
    · exact fun q hq => hgo q (Nat.le_of_succ_le hq)
  | case2 s outside =>
    have hpos : s.cursor.pos = k := by omega
    exact ⟨h, hpos, hpos ▸ hch⟩

/-! ## How a word ends -/

theorem cursor_endWord : (s.endWord d).cursor =
    (s.cursor.recolour (((d.vocabulary.classify? s.cursor.openRun).map Style.code).getD
      s.cursor.state)).switchTo Style.plain.code := by
  unfold endWord
  dsimp only
  split
  · rename_i found hfound
    rw [hfound]
    split <;> rfl
  · rename_i hnone
    rw [hnone]
    split <;> rfl

theorem cursor_closeDocKeyword : (s.closeDocKeyword d).cursor =
    (s.cursor.recolour (if isSpace s.cursor.ch && d.vocabulary.doc.contains
      (s.cursor.openRun.drop 1) then s.cursor.state else Style.docKeywordError.code)).switchTo
        s.memory.docStyle.code := by
  unfold closeDocKeyword
  dsimp only
  split <;> rfl

/-- The characters of `[a, e)` are committed in one style, the same in both windows. -/
def CommitAlike (a e : Nat) (w w' : Window) : Prop :=
  ∃ code, ∀ q, a ≤ q → q < e → w.committed? q = some code ∧ w'.committed? q = some code

theorem CommitAlike.of_le {a e e' : Nat} {w w' : Window} (h : CommitAlike a e w w')
    (he : e' ≤ e) : CommitAlike a e' w w' := by
  obtain ⟨code, hcode⟩ := h
  exact ⟨code, fun q ha hq => hcode q ha (Nat.lt_of_lt_of_le hq he)⟩

/-- What is committed stays. -/
theorem CommitAlike.mono {a e : Nat} {w w' v v' : Window} (h : CommitAlike a e w w')
    (hw : ∀ q code, w.committed? q = some code → v.committed? q = some code)
    (hw' : ∀ q code, w'.committed? q = some code → v'.committed? q = some code) :
    CommitAlike a e v v' := by
  obtain ⟨code, hcode⟩ := h
  exact ⟨code, fun q ha he => ⟨hw q code (hcode q ha he).1, hw' q code (hcode q ha he).2⟩⟩

/-- Runs that are given the same style and closed are committed alike. -/
theorem commitAlike_switchTo {c c' : Cursor} (h : c.InStep c') (hp : c.pos ≤ c.window.stop)
    (code next next' : UInt8) :
    CommitAlike c.window.boundary c.pos ((c.recolour code).switchTo next).window
      ((c'.recolour code).switchTo next').window := by
  refine ⟨code, fun q hb hq => ⟨Cursor.committed?_switchTo hb hq hp, ?_⟩⟩
  refine Cursor.committed?_switchTo (c := c'.recolour code) ?_ ?_ ?_
  · exact Nat.le_trans (Nat.le_of_eq h.boundary_eq) hb
  · exact Nat.lt_of_lt_of_eq hq h.pos_eq.symm
  · exact Nat.le_trans (Nat.le_of_eq h.pos_eq) (Nat.le_trans hp (Nat.le_of_eq h.stop_eq.symm))

/-- Where a word ends that ends at the cursor.  The closing mark of a comment is styled
    together with a keyword right before it. -/
def wordEnd (d : Dialect) (s : Scan) : Nat :=
  if s.leaving d = .breakDocKeyword then min (s.cursor.pos + 2) s.cursor.window.stop
  else s.cursor.pos

theorem pos_le_wordEnd (hp : s.cursor.pos ≤ s.cursor.window.stop) :
    s.cursor.pos ≤ s.wordEnd d := by
  unfold wordEnd
  split
  · omega
  · exact Nat.le_refl _

theorem wordEnd_le_stop (hp : s.cursor.pos ≤ s.cursor.window.stop) :
    s.wordEnd d ≤ s.cursor.window.stop := by
  unfold wordEnd
  split
  · exact Nat.min_le_right _ _
  · exact hp

theorem wordEnd_of_outside (hp : s.cursor.pos ≤ s.cursor.window.stop)
    (outside : ¬ s.cursor.pos < s.cursor.window.stop) : s.wordEnd d = s.cursor.pos := by
  unfold wordEnd
  split
  · omega
  · rfl

theorem reaches_enterAndPass (d : Dialect) (s : Scan) :
    Reaches s.cursor (s.enterAndPass d).cursor := by
  obtain ⟨c, hbefore, hbehind⟩ := enterAndPass_moves d s
  exact hbefore.advance.trans hbehind

/-- **Two scans are within the same word of the same text.** -/
structure SameWord (s t : Scan) : Prop where
  inStep : s.cursor.InStep t.cursor
  covers : Covers s.cursor
  covers' : Covers t.cursor
  isLookedUp : s.style.isLookedUp = true
  docStyle_eq : s.style = .docKeyword → t.memory.docStyle = s.memory.docStyle

namespace SameWord

theorem style_eq (h : s.SameWord t) : t.style = s.style := by
  rw [style, h.inStep.state_eq, style]

/-- A move keeps scans within their word if it keeps their styles. -/
theorem move {s' t' : Scan} (h : s.SameWord t) (hi : s'.cursor.InStep t'.cursor)
    (hs : Reaches s.cursor s'.cursor) (ht : Reaches t.cursor t'.cursor)
    (hstyle : s'.style = s.style) (hdoc : s'.memory.docStyle = s.memory.docStyle)
    (hdoc' : t'.memory.docStyle = t.memory.docStyle) : s'.SameWord t' where
  inStep := hi
  covers := hs.covers h.covers
  covers' := ht.covers h.covers'
  isLookedUp := hstyle ▸ h.isLookedUp
  docStyle_eq hk := by rw [hdoc, hdoc', h.docStyle_eq (hstyle ▸ hk)]

theorem beginLine (h : s.SameWord t) : s.beginLine.SameWord t.beginLine := by
  refine h.move ?_ (reaches_beginLine s) (reaches_beginLine t) style_beginLine
    docStyle_beginLine docStyle_beginLine
  rw [cursor_beginLine_of_isLookedUp h.isLookedUp,
    cursor_beginLine_of_isLookedUp (h.style_eq ▸ h.isLookedUp)]
  exact h.inStep

theorem passChar (h : s.SameWord t) : s.passChar.SameWord t.passChar := by
  refine h.move ?_ ?_ ?_ style_passChar docStyle_passChar docStyle_passChar
  · rw [cursor_passChar, cursor_passChar]
    exact h.inStep.advance
  · rw [cursor_passChar]
    exact Reaches.refl.advance
  · rw [cursor_passChar]
    exact Reaches.refl.advance

theorem passContinuation (h : s.SameWord t) :
    s.passContinuation.SameWord t.passContinuation := by
  refine h.move ?_ (Reaches.refl.advance.trans (reaches_passContinuation s))
    (Reaches.refl.advance.trans (reaches_passContinuation t)) style_passContinuation
    docStyle_passContinuation docStyle_passContinuation
  have hfirst : s.advance.cursor.InStep t.advance.cursor := h.inStep.advance
  unfold Scan.passContinuation
  dsimp only
  rw [hfirst.ch_eq, hfirst.next_eq]
  split
  · exact hfirst.advance.advance
  · exact hfirst.advance

theorem atContinuation_eq (h : s.SameWord t) : t.atContinuation = s.atContinuation := by
  rw [atContinuation, atContinuation, h.inStep.ch_eq, h.inStep.next_eq]

/-- Both go on with the word, or end it, alike. -/
theorem leaving_eq (h : s.SameWord t) : t.leaving d = s.leaving d := by
  have hclose : closesComment t.cursor.surroundings = closesComment s.cursor.surroundings := by
    show (t.cursor.ch == '*' && t.cursor.next == '/') = _
    rw [h.inStep.ch_eq, h.inStep.next_eq]
    rfl
  have hch : t.cursor.surroundings.ch = s.cursor.surroundings.ch := h.inStep.ch_eq
  have hl := h.isLookedUp
  have hdoc := h.docStyle_eq
  rw [leaving, leaving, h.style_eq]
  generalize s.style = style at hl hdoc
  cases style with
  | identifier => rw [leave, leave, hch]
  | docKeyword => simp only [leave, hclose, hch, hdoc rfl]
  | _ => cases hl

/-- How a word ends is not changed by the start of a line. -/
theorem leaving_beginLine (h : s.SameWord t) : s.beginLine.leaving d = s.leaving d := by
  have hcursor : s.beginLine.cursor = s.cursor := cursor_beginLine_of_isLookedUp h.isLookedUp
  have hl := h.isLookedUp
  rw [leaving, leaving, style_beginLine, hcursor]
  generalize s.style = style at hl
  cases style with
  | identifier => rfl
  | docKeyword => simp only [leave, docStyle_beginLine]
  | _ => cases hl

theorem wordEnd_beginLine (h : s.SameWord t) : s.beginLine.wordEnd d = s.wordEnd d := by
  rw [wordEnd, wordEnd, h.leaving_beginLine, cursor_beginLine_of_isLookedUp h.isLookedUp]

theorem leaving_cases (h : s.SameWord t) :
    s.leaving d = .stay ∨ s.leaving d = .endWord ∨ s.leaving d = .closeDocKeyword ∨
      s.leaving d = .breakDocKeyword := by
  have hl := h.isLookedUp
  rw [leaving]
  generalize s.style = style at hl
  cases style with
  | identifier =>
    rw [leave]
    split
    · exact .inl rfl
    · exact .inr (.inl rfl)
  | docKeyword =>
    rw [leave]
    split
    · exact .inr (.inr (.inr rfl))
    · split
      · exact .inl rfl
      · exact .inr (.inr (.inl rfl))
  | _ => cases hl

/-- A keyword is broken off where the comment is closed. -/
theorem ch_of_breakDocKeyword (h : s.SameWord t) (hbreak : s.leaving d = .breakDocKeyword) :
    s.cursor.ch = '*' := by
  have hl := h.isLookedUp
  rw [leaving] at hbreak
  generalize s.style = style at hl hbreak
  cases style with
  | identifier =>
    rw [leave] at hbreak
    split at hbreak <;> cases hbreak
  | docKeyword =>
    rw [leave] at hbreak
    split at hbreak
    · rename_i hclose
      exact (closesComment_iff.1 hclose.2).1
    · split at hbreak <;> cases hbreak
  | _ => cases hl

/-- **A word that ends is committed alike** by both scans. -/
theorem commitAlike_leaveStyle (h : s.SameWord t) (hends : s.leaving d ≠ .stay) :
    CommitAlike s.cursor.window.boundary (s.wordEnd d) (s.leaveStyle d).cursor.window
      (t.leaveStyle d).cursor.window := by
  have hrun : t.cursor.openRun = s.cursor.openRun := h.inStep.openRun_eq h.covers.pos_le
  rw [leaveStyle, leaveStyle, h.leaving_eq, wordEnd]
  rcases h.leaving_cases (d := d) with hhow | hhow | hhow | hhow
  · exact absurd hhow hends
  · rw [hhow, applyLeave, applyLeave, cursor_endWord, cursor_endWord, hrun, h.inStep.state_eq]
    exact commitAlike_switchTo h.inStep h.covers.pos_le _ _ _
  · rw [hhow, applyLeave, applyLeave, cursor_closeDocKeyword, cursor_closeDocKeyword, hrun,
      h.inStep.state_eq, h.inStep.ch_eq]
    exact commitAlike_switchTo h.inStep h.covers.pos_le _ _ _
  · rw [hhow, if_pos rfl]
    have hreach : Reaches s.cursor
        (s.cursor.recolour Style.docKeywordError.code).advance.advance :=
      (Reaches.refl.recolour .docKeywordError).advance.advance
    have hmoved : (s.cursor.recolour Style.docKeywordError.code).advance.advance.InStep
        (t.cursor.recolour Style.docKeywordError.code).advance.advance :=
      (h.inStep.recolour _).advance.advance
    have hpos : min (s.cursor.pos + 2) s.cursor.window.stop ≤
        (s.cursor.recolour Style.docKeywordError.code).advance.advance.pos := by
      rw [Cursor.pos_advance, Cursor.pos_advance, Cursor.stop_advance, Cursor.pos_recolour,
        Cursor.stop_recolour]
      split_ifs <;> omega
    have halike := commitAlike_switchTo hmoved (hreach.covers h.covers).pos_le
      Style.docKeywordError.code Style.plain.code Style.plain.code
    have hstate (c : Cursor) : (c.recolour Style.docKeywordError.code).advance.advance.state =
        Style.docKeywordError.code := by
      rw [Cursor.state_advance, Cursor.state_advance]
      rfl
    rw [Cursor.recolour_eq (hstate _), Cursor.recolour_eq (hstate _), Cursor.window_advance,
      Cursor.window_advance] at halike
    exact halike.of_le hpos

/-- So it is at the end of the window. -/
theorem commitAlike_finish (h : s.SameWord t) :
    CommitAlike s.cursor.window.boundary s.cursor.pos (s.closeWord d).finish.cursor.window
      (t.closeWord d).finish.cursor.window := by
  have hcommits {u : Scan} (q : Nat) (code : UInt8)
      (hq : u.cursor.window.committed? q = some code) :
      u.finish.cursor.window.committed? q = some code :=
    (Reaches.refl.switchTo (c := u.cursor) .plain).committed?_eq hq
  have hopen : CommitAlike s.cursor.window.boundary s.cursor.pos s.finish.cursor.window
      t.finish.cursor.window := by
    have halike := commitAlike_switchTo h.inStep h.covers.pos_le s.cursor.state 0 0
    rw [Cursor.recolour_eq rfl, Cursor.recolour_eq h.inStep.state_eq] at halike
    exact halike
  have hclose (hends : s.leaving d ≠ .stay) :=
    ((h.commitAlike_leaveStyle hends).of_le (pos_le_wordEnd h.covers.pos_le)).mono hcommits
      hcommits
  unfold closeWord
  rw [h.leaving_eq]
  rcases h.leaving_cases (d := d) with hhow | hhow | hhow | hhow
  · rw [hhow]
    exact hopen
  · have hclose := hclose (by rw [hhow]; exact Leave.noConfusion)
    rw [leaveStyle, leaveStyle, h.leaving_eq] at hclose
    rw [hhow] at hclose ⊢
    exact hclose
  · have hclose := hclose (by rw [hhow]; exact Leave.noConfusion)
    rw [leaveStyle, leaveStyle, h.leaving_eq] at hclose
    rw [hhow] at hclose ⊢
    exact hclose
  · rw [hhow]
    exact hopen

/-- **A step keeps both scans within the word, or ends it.** -/
theorem step (h : s.SameWord t) :
    ((s.step d).SameWord (t.step d) ∧
        (s.step d).cursor.window.boundary = s.cursor.window.boundary ∧
        s.wordEnd d = s.cursor.pos) ∨
      CommitAlike s.cursor.window.boundary (s.wordEnd d) (s.step d).cursor.window
        (t.step d).cursor.window := by
  have hbegin := h.beginLine
  have hcursor : s.beginLine.cursor = s.cursor := cursor_beginLine_of_isLookedUp h.isLookedUp
  unfold Scan.step
  dsimp only
  rw [hbegin.atContinuation_eq]
  split
  · rename_i hover
    refine .inl ⟨hbegin.passContinuation, ?_, if_neg fun hbreak => ?_⟩
    · rw [cursor_passContinuation_window, hcursor]
    · -- A backslash does not close a comment.
      have hmark := h.ch_of_breakDocKeyword hbreak
      rw [atContinuation, hcursor, Bool.and_eq_true, beq_iff_eq, hmark] at hover
      exact absurd hover.1 (by decide)
  · by_cases hstay : s.beginLine.leaving d = .stay
    · have hpass {u : Scan} (hl : u.style.isLookedUp = true) (hu : u.leaving d = .stay) :
          (u.leaveStyle d).enterAndPass d = u.passChar := by
        have hnone : u.entering? d = none := by
          rw [entering?, if_neg]
          rw [Bool.and_eq_true, beq_iff_eq]
          rintro ⟨-, hs⟩
          rw [hs] at hl
          cases hl
        rw [leaveStyle, hu, applyLeave, enterAndPass, hnone]
      rw [hpass hbegin.isLookedUp hstay,
        hpass (hbegin.style_eq ▸ hbegin.isLookedUp) (hbegin.leaving_eq.trans hstay)]
      refine .inl ⟨hbegin.passChar, ?_, if_neg ?_⟩
      · rw [cursor_passChar, Cursor.window_advance, hcursor]
      · rw [← h.leaving_beginLine, hstay]
        exact Leave.noConfusion
    · refine .inr ?_
      have hends := hbegin.commitAlike_leaveStyle hstay
      rw [hcursor, h.wordEnd_beginLine] at hends
      exact hends.mono (fun _ _ => (reaches_enterAndPass d _).committed?_eq)
        fun _ _ => (reaches_enterAndPass d _).committed?_eq

/-- **Scans within the same word end it in the same style**, and what the first of them
    comes to before the end of the word, is within it. -/
theorem committed?_complete {s t : Scan} (h : s.SameWord t)
    (hlt : s.cursor.window.boundary < s.cursor.pos) :
    ∃ e, CommitAlike s.cursor.window.boundary e (s.complete d).cursor.window
        (t.complete d).cursor.window ∧
      ∀ r, Visits d s r → r.cursor.window.boundary = s.cursor.window.boundary →
        r.wordEnd d ≤ e := by
  by_cases inside : s.cursor.pos < s.cursor.window.stop
  · have inside' : t.cursor.pos < t.cursor.window.stop := h.inStep.inside_iff.2 inside
    have moved := pos_lt_step d inside
    have hcomplete : s.complete d = (s.step d).complete d := by
      rw [complete, complete, run_of_inside inside]
    have hcomplete' : t.complete d = (t.step d).complete d := by
      rw [complete, complete, run_of_inside inside']
    rw [hcomplete, hcomplete']
    rcases h.step (d := d) with ⟨hword, hboundary, hend⟩ | hends
    · obtain ⟨e, halike, hvisits⟩ := committed?_complete hword (by omega)
      rw [hboundary] at halike hvisits
      refine ⟨e, halike, fun r hr hrb => ?_⟩
      rcases hr.eq_or_step with rfl | ⟨-, hr⟩
      · have hnext := pos_le_wordEnd (d := d) hword.covers.pos_le
        have hlast := hvisits _ .refl hboundary
        omega
      · exact hvisits r hr hrb
    · refine ⟨s.wordEnd d, hends.mono (fun _ _ => Scan.committed?_complete .refl)
        (fun _ _ => Scan.committed?_complete .refl), fun r hr hrb => ?_⟩
      rcases hr.eq_or_step with rfl | ⟨-, hr⟩
      · exact Nat.le_refl _
      · -- Behind the end of the word its first character is committed.
        obtain ⟨code, hcode⟩ := hends
        have hpos := pos_le_wordEnd (d := d) h.covers.pos_le
        have hfirst := hr.reaches.committed?_eq (hcode _ (Nat.le_refl _) (by omega)).1
        rw [Window.committed?_of_boundary_le (Nat.le_of_eq hrb)] at hfirst
        cases hfirst
  · have outside' : ¬ t.cursor.pos < t.cursor.window.stop := mt h.inStep.inside_iff.1 inside
    refine ⟨s.cursor.pos, ?_, fun r hr _ => ?_⟩
    · rw [complete, complete, run_of_outside inside, run_of_outside outside']
      exact h.commitAlike_finish
    · rcases hr.eq_or_step with rfl | ⟨hin, -⟩
      · exact Nat.le_of_eq (wordEnd_of_outside h.covers.pos_le inside)
      · exact absurd hin inside
termination_by s.cursor.window.stop - s.cursor.pos
decreasing_by
  rw [stop_step]
  omega

end SameWord

end Scan

end CFamily

end StyledText
