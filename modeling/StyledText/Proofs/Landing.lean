/-
  Where a scan lands when it passes the end of a line.

  Whatever the line holds, a scan passes its last character in a style that a
  line can end in, and lands on the start of the next line knowing no more than
  that style and what a scan that opened there would see.

  * `Tidy`: what a scan remembers is in order, and each step keeps it so;
  * `MayPass`: the style at the cursor is settled if the line ends there, as it is
    after `applyLeave` and after `applyEnter`;
  * `Landed`: the scan is on the start of a line, and `landed_passChar` says that
    passing the last character of a line leads there.
-/
import StyledText.Proofs.Shown

namespace StyledText.CFamily.Scan

variable {d : Dialect} {s s' : Scan} {next : Style} {how : Leave} {what : Enter}

/-! ## Styles after the moves -/

@[simp] theorem style_advance : s.advance.style = s.style := by
  simp [style, advance]

@[simp] theorem style_switchTo : (s.switchTo next).style = next := Style.ofCode_code next

@[simp] theorem style_recolour : (s.recolour next).style = next := Style.ofCode_code next

theorem style_skipWhile (p : Char → Bool) (s : Scan) : (s.skipWhile p).style = s.style := by
  have hstate (c : Cursor) : (c.skipWhile p).state = c.state := by
    fun_induction Cursor.skipWhile p c with
    | case1 c _ _ ih => rw [ih, Cursor.state_advance]
    | case2 => rfl
    | case3 => rfl
  exact congrArg Style.ofCode (hstate s.cursor)

theorem style_endWord : (s.endWord d).style = .plain := by
  unfold endWord
  dsimp only
  split
  · exact style_switchTo
  · exact style_switchTo

theorem style_passChar : s.passChar.style = s.style := by
  rw [style, cursor_passChar, Cursor.state_advance, style]

theorem pos_beginLine : s.beginLine.cursor.pos = s.cursor.pos := by
  unfold beginLine
  split
  · dsimp only
    split <;> rfl
  · rfl

theorem inside_beginLine (inside : s.cursor.pos < s.cursor.window.stop) :
    s.beginLine.cursor.pos < s.beginLine.cursor.window.stop := by
  rwa [pos_beginLine, (reaches_beginLine s).stop_eq]

/-! ## What is remembered is in order -/

/-- **What a scan remembers is in order**, and what it remembers to have met lies
    behind it, in its window. -/
structure Tidy (s : Scan) : Prop where
  sane : s.memory.Sane
  start_le : s.cursor.window.start ≤ s.cursor.pos
  literalStart : ∀ l ∈ s.literalStart, s.cursor.window.start ≤ l ∧ l ≤ s.cursor.pos
  includes : ∀ span ∈ s.includes, s.cursor.window.start ≤ span.start ∧ span.start < s.cursor.pos

namespace Tidy

theorem ofWindow (w : Window) (style : Style) : (Scan.ofWindow w style).Tidy where
  sane := ⟨Or.inl rfl, Or.inl rfl⟩
  start_le := Nat.le_refl _
  literalStart := by
    intro l hl
    exact absurd hl (Option.not_mem_none l)
  includes := by
    intro span hspan
    exact absurd hspan List.not_mem_nil

/-- A move keeps things in order unless it opens or closes a literal. -/
theorem move (h : s.Tidy) (hr : Reaches s.cursor s'.cursor) (hm : s'.memory.Sane)
    (hl : s'.literalStart = s.literalStart) (hi : s'.includes = s.includes) : s'.Tidy where
  sane := hm
  start_le := by
    rw [hr.start_eq]
    exact Nat.le_trans h.start_le hr.pos_le
  literalStart := by
    rw [hl, hr.start_eq]
    intro l hl
    exact ⟨(h.literalStart l hl).1, Nat.le_trans (h.literalStart l hl).2 hr.pos_le⟩
  includes := by
    rw [hi, hr.start_eq]
    intro span hspan
    exact ⟨(h.includes span hspan).1, Nat.lt_of_lt_of_le (h.includes span hspan).2 hr.pos_le⟩

theorem beginLine (h : s.Tidy) : s.beginLine.Tidy := by
  unfold Scan.beginLine
  split
  · dsimp only
    split
    · exact h.move (Reaches.refl.switchTo _) ⟨h.sane.1, h.sane.2⟩ rfl rfl
    · exact h.move .refl ⟨h.sane.1, h.sane.2⟩ rfl rfl
  · exact h

theorem passChar (h : s.Tidy) : s.passChar.Tidy := by
  unfold Scan.passChar
  dsimp only
  split
  · exact h.move Reaches.refl.advance ⟨h.sane.1, h.sane.2⟩ rfl rfl
  · exact h.move Reaches.refl.advance ⟨h.sane.1, h.sane.2⟩ rfl rfl

theorem passContinuation (h : s.Tidy) : s.passContinuation.Tidy := by
  unfold Scan.passContinuation
  dsimp only
  split
  · exact h.move Reaches.refl.advance.advance.advance ⟨h.sane.1, h.sane.2⟩ rfl rfl
  · exact h.move Reaches.refl.advance.advance ⟨h.sane.1, h.sane.2⟩ rfl rfl

theorem endWord (h : s.Tidy) : (s.endWord d).Tidy := by
  unfold Scan.endWord
  dsimp only
  split
  · split <;>
      exact h.move ((Reaches.refl.recolour _).switchTo _) ⟨h.sane.1, h.sane.2⟩ rfl rfl
  · split <;> exact h.move (Reaches.refl.switchTo _) ⟨h.sane.1, h.sane.2⟩ rfl rfl

theorem closeDocKeyword (h : s.Tidy) : (s.closeDocKeyword d).Tidy := by
  unfold Scan.closeDocKeyword
  dsimp only
  split
  · exact h.move (Reaches.refl.switchTo _) h.sane rfl rfl
  · exact h.move ((Reaches.refl.recolour _).switchTo _) h.sane rfl rfl

theorem openLiteral (h : s.Tidy) {literal : Literal} {inDirective keepPlace : Bool}
    (hl : ∀ close, literal = .string close → close = '"' ∨ close = '>') :
    (s.openLiteral literal inDirective keepPlace).Tidy where
  sane := by
    refine ⟨?_, h.sane.docStyle⟩
    cases literal with
    | string close => exact hl close rfl
    | character => exact h.sane.stringClose
  start_le := h.start_le
  literalStart := by
    intro l hl
    simp only [Scan.openLiteral] at hl
    split at hl
    · cases hl
      exact ⟨h.start_le, Nat.le_refl _⟩
    · exact absurd hl (Option.not_mem_none l)
  includes := h.includes

/-- The path of an including line begins before the character that closes it. -/
theorem closeLiteral (h : s.Tidy) (inside : s.cursor.pos < s.cursor.window.stop) :
    (s.closeLiteral d).Tidy := by
  have hclosed : (s.advance.switchTo (if s.memory.inDirective then .directive else .plain)).Tidy :=
    h.move (Reaches.refl.advance.switchTo _) h.sane rfl rfl
  have hstart : s.advance.cursor.window.start = s.cursor.window.start :=
    congrArg Window.start (Cursor.window_advance _)
  have hpos : s.advance.cursor.pos = s.cursor.pos + 1 :=
    (Cursor.pos_advance _).trans (if_pos inside)
  unfold Scan.closeLiteral
  dsimp only
  split
  · exact hclosed
  · rename_i l hl
    refine ⟨⟨h.sane.1, h.sane.2⟩, hclosed.start_le,
      fun l hl => absurd hl (Option.not_mem_none l), fun span hspan => ?_⟩
    dsimp only at hspan
    split at hspan
    · rcases List.mem_append.1 hspan with hspan | hspan
      · exact hclosed.includes span hspan
      · have hplace := h.literalStart l hl
        rw [List.mem_singleton.1 hspan]
        refine ⟨?_, ?_⟩
        · exact Nat.le_trans (Nat.le_of_eq hstart) hplace.1
        · exact Nat.lt_of_lt_of_eq (Nat.lt_succ_of_le hplace.2) hpos.symm
    · exact hclosed.includes span hspan

theorem applyLeave (h : s.Tidy) (hf : how.Fits s.style s.cursor.surroundings)
    (inside : s.cursor.pos < s.cursor.window.stop) : (s.applyLeave d s.style how).Tidy := by
  have hr := reaches_applyLeave d s s.style how
  cases how with
  | endWord => exact h.endWord
  | openDocKeyword => exact h.move hr ⟨h.sane.stringClose, hf.1⟩ rfl rfl
  | closeDocKeyword => exact h.closeDocKeyword
  | openLiteral literal => exact h.openLiteral hf.2
  | closeLiteral => exact h.closeLiteral inside
  | _ => exact h.move hr h.sane rfl rfl

theorem leaveStyle (h : s.Tidy) (inside : s.cursor.pos < s.cursor.window.stop) :
    (s.leaveStyle d).Tidy := h.applyLeave (leave_fits h.sane) inside

theorem openDirective (h : s.Tidy) : s.openDirective.Tidy := by
  have passed : Reaches s.cursor ((s.switchTo .directive).advance.skipWhile isBlank).cursor :=
    (Reaches.refl.switchTo _).advance.skipWhile _
  unfold Scan.openDirective
  dsimp only
  split
  · exact h.move (passed.switchTo _) h.sane rfl rfl
  · split
    · exact h.move passed ⟨h.sane.1, h.sane.2⟩ rfl rfl
    · exact h.move passed h.sane rfl rfl

theorem applyEnter (h : s.Tidy)
    (hl : ∀ close, what = .literal (.string close) → close = '"' ∨ close = '>') :
    (s.applyEnter what).Tidy := by
  have hr := reaches_applyEnter s what
  cases what with
  | literal literal =>
    cases literal with
    | string close => exact h.openLiteral fun _ hclose => hl _ (by rw [hclose])
    | character => exact h.openLiteral fun _ hclose => nomatch hclose
  | directive => exact h.openDirective
  | uuid => exact h.move hr ⟨h.sane.1, h.sane.2⟩ rfl rfl
  | _ => exact h.move hr h.sane rfl rfl

theorem close_of_entering? (hw : s.entering? d = some what) :
    ∀ close, what = .literal (.string close) → close = '"' ∨ close = '>' := by
  rintro close rfl
  unfold Scan.entering? at hw
  split at hw
  · exact close_of_enter? hw
  · exact nomatch hw

theorem enterAndPass (h : s.Tidy) : (s.enterAndPass d).Tidy := by
  unfold Scan.enterAndPass
  split
  · exact h.openDirective
  · rename_i what _ hw
    exact (h.applyEnter (close_of_entering? hw)).passChar
  · exact h.passChar

/-- **Each step keeps what is remembered in order.** -/
theorem step (h : s.Tidy) (inside : s.cursor.pos < s.cursor.window.stop) : (s.step d).Tidy := by
  have inside' := inside_beginLine inside
  unfold Scan.step
  dsimp only
  split
  · exact h.beginLine.passContinuation
  · exact (h.beginLine.leaveStyle inside').enterAndPass

end Tidy

/-! ## Passing the last character of a line -/

/-- The style at the cursor is settled if a line ends there, so that the scan may
    pass its last character. -/
def MayPass (s : Scan) : Prop :=
  s.cursor.atLineEnd = true → isLineBreak s.cursor.ch = true → s.style.isSettled = true

theorem MayPass.of_settled (h : s.style.isSettled = true) : s.MayPass := fun _ _ => h

theorem MayPass.of_not_isLineBreak (h : isLineBreak s.cursor.ch = false) : s.MayPass :=
  fun _ hb => absurd hb (by rw [h]; exact Bool.false_ne_true)

/-- A cursor that moves on sees what it has seen ahead. -/
theorem not_isLineBreak_advance (h : isLineBreak s.cursor.next = false) :
    isLineBreak s.advance.cursor.ch = false := by
  simp only [advance]
  by_cases inside : s.cursor.pos < s.cursor.window.stop
  · rwa [Cursor.advance_of_lt inside]
  · rw [Cursor.advance_of_not_lt inside]
    rfl

/-- **A scan that has acted on the end of a style may pass.** -/
theorem mayPass_applyLeave (h : s.Tidy) (hf : how.Fits s.style s.cursor.surroundings)
    (hcont : s.atContinuation = false) : (s.applyLeave d s.style how).MayPass := by
  cases how with
  | stay => exact hf
  | switch next =>
    rw [show next = .plain from hf]
    exact .of_settled (by rw [applyLeave, style_switchTo]; rfl)
  | switchAfter next =>
    rw [show next = .plain from hf.1]
    exact .of_settled (by rw [applyLeave, style_switchTo]; rfl)
  | switchAfterPair next =>
    rw [show next = .plain from hf.1]
    exact .of_settled (by rw [applyLeave, style_switchTo]; rfl)
  | recolour next =>
    rw [show next = .unclosed from hf.1]
    exact .of_settled (by rw [applyLeave, style_recolour]; rfl)
  | skipNext =>
    refine .of_not_isLineBreak (not_isLineBreak_advance ?_)
    rcases hf.2 with hch | hnext
    · have hch : s.cursor.ch = '\\' := hch
      simpa [atContinuation, hch] using hcont
    · exact hnext
  | endWord => exact .of_settled (by rw [applyLeave, style_endWord]; rfl)
  | openDocKeyword => exact .of_not_isLineBreak hf.2
  | closeDocKeyword =>
    refine .of_settled ?_
    rw [applyLeave, closeDocKeyword, style_switchTo]
    rcases h.sane.docStyle with hd | hd <;> rw [hd] <;> rfl
  | breakDocKeyword => exact .of_settled (by rw [applyLeave, style_switchTo]; rfl)
  | openLiteral literal => exact .of_not_isLineBreak hf.1
  | closeLiteral =>
    refine .of_settled ?_
    have hs : (s.closeLiteral d).style = if s.memory.inDirective then .directive else .plain := by
      unfold closeLiteral
      dsimp only
      split
      · exact style_switchTo
      · exact style_switchTo
    rw [applyLeave, hs]
    split <;> rfl
  | closeRegex => exact .of_settled (by rw [applyLeave, style_switchTo]; rfl)

/-- What begins at a character begins before the end of the line. -/
theorem mayPass_applyEnter (hc : isLineBreak s.cursor.ch = false) (hw : what ≠ .directive) :
    (s.applyEnter what).MayPass := by
  cases what with
  | verbatim => exact .of_settled (by rw [applyEnter, style_advance, style_switchTo]; rfl)
  | blockComment doc =>
    refine .of_settled ?_
    rw [applyEnter, style_advance, style_switchTo]
    split <;> rfl
  | directive => exact absurd rfl hw
  | literal literal =>
    cases literal with
    | string close => exact .of_not_isLineBreak hc
    | character => exact .of_not_isLineBreak hc
  | _ => exact .of_not_isLineBreak hc

theorem not_isLineBreak_of_entering? (hw : s.entering? d = some what) :
    isLineBreak s.cursor.ch = false := by
  unfold entering? at hw
  split at hw
  · by_contra hb
    rw [Bool.not_eq_false] at hb
    have hnone : enter? s.cursor.surroundings s.memory d.settings = none := enter?_of_isLineBreak hb
    exact nomatch hnone.symm.trans hw
  · exact nomatch hw

/-! ## The start of the next line -/

/-- **The scan is on the start of the line at `b`**, which it has reached in a
    settled style that the character before shows too. -/
structure Landed (b : Nat) (s : Scan) : Prop where
  pos_eq : s.cursor.pos = b
  prev_eq : s.cursor.prev = if b = 0 then ' ' else s.cursor.window.charOrSpace (b - 1)
  ch_eq : s.cursor.ch = s.cursor.window.charOrSpace b
  next_eq : s.cursor.next = s.cursor.window.charOrSpace (b + 1)
  atLineStart : s.cursor.atLineStart = true
  atLineEnd_eq : s.cursor.atLineEnd = Cursor.endsLine (s.cursor.window.charOrSpace b)
    (s.cursor.window.charOrSpace (b + 1)) b s.cursor.window.stop
  settled : s.style.isSettled = true
  shown_eq : s.cursor.shown (b - 1) = s.cursor.state
  continued : s.memory.continued = false

/-- **A scan that passes the last character of a line lands on the next one.** -/
theorem landed_passChar (hs : s.cursor.Sees) (hc : Covers s.cursor)
    (hends : s.cursor.window.EndsLine s.cursor.pos) (hset : s.style.isSettled = true) :
    Landed (s.cursor.pos + 1) s.passChar := by
  have inside := hends.1
  have hcursor : s.passChar.cursor = s.cursor.advance := cursor_passChar s
  have hadvance := Cursor.advance_of_lt inside
  constructor
  case settled => rwa [style_passChar]
  case shown_eq =>
    rw [hcursor, Cursor.shown_advance, Cursor.state_advance]
    exact Cursor.shown_of_boundary_le hc.boundary_le
  case continued =>
    unfold passChar
    dsimp only
    split <;> rfl
  all_goals rw [hcursor, hadvance]
  case prev_eq => exact hs.ch_eq inside
  case ch_eq => exact hs.next_eq inside
  case atLineStart => exact (hs.atLineEnd_eq inside).trans hends.2.1
  case atLineEnd_eq =>
    dsimp only
    rw [hs.next_eq inside]

/-! ## Runs -/

/-- Takes steps until `p` or the end of the window is reached. -/
def runTo (d : Dialect) (p : Nat) (s : Scan) : Scan :=
  if _ : s.cursor.pos < p ∧ s.cursor.pos < s.cursor.window.stop then runTo d p (s.step d) else s
termination_by s.cursor.window.stop - s.cursor.pos
decreasing_by
  have moved := pos_lt_step d (‹_ ∧ _› : _ ∧ _).2
  rw [stop_step]
  omega

/-- The scan of the whole window, of which the last run is committed. -/
def complete (d : Dialect) (s : Scan) : Scan := ((s.run d).closeWord d).finish

theorem run_of_inside (inside : s.cursor.pos < s.cursor.window.stop) :
    s.run d = (s.step d).run d := by
  rw [run, dif_pos inside]

theorem run_of_outside (outside : ¬ s.cursor.pos < s.cursor.window.stop) : s.run d = s := by
  rw [run, dif_neg outside]

theorem runTo_of_le {p : Nat} (h : p ≤ s.cursor.pos) : s.runTo d p = s := by
  rw [runTo, dif_neg (by omega)]

theorem runTo_runTo {p x : Nat} (h : p ≤ x) (s : Scan) :
    (s.runTo d p).runTo d x = s.runTo d x := by
  fun_induction runTo d p s with
  | case1 s inside ih =>
    rw [ih, runTo.eq_def d x s, dif_pos ⟨Nat.lt_of_lt_of_le inside.1 h, inside.2⟩]
  | case2 => rfl

/-- A run goes through every place at which it may be stopped. -/
theorem run_runTo (d : Dialect) (p : Nat) (s : Scan) : (s.runTo d p).run d = s.run d := by
  fun_induction runTo d p s with
  | case1 s inside ih => rw [ih, run_of_inside inside.2]
  | case2 => rfl

theorem complete_runTo (d : Dialect) (p : Nat) (s : Scan) :
    (s.runTo d p).complete d = s.complete d := by
  rw [complete, run_runTo, complete]

theorem reaches_runTo (d : Dialect) (p : Nat) (s : Scan) :
    Reaches s.cursor (s.runTo d p).cursor := by
  fun_induction runTo d p s with
  | case1 s _ ih => exact (reaches_step d s).trans ih
  | case2 => exact .refl

theorem Tidy.runTo {p : Nat} (h : s.Tidy) : (s.runTo d p).Tidy := by
  fun_induction Scan.runTo d p s with
  | case1 s inside ih => exact ih (h.step inside.2)
  | case2 => exact h

theorem Tidy.run (h : s.Tidy) : (s.run d).Tidy := by
  fun_induction Scan.run d s with
  | case1 s inside ih => exact ih (h.step inside)
  | case2 => exact h

theorem Tidy.closeWord (h : s.Tidy) : (s.closeWord d).Tidy := by
  unfold Scan.closeWord
  split
  · exact h.endWord
  · exact h.closeDocKeyword
  · exact h

theorem Tidy.complete (h : s.Tidy) : (s.complete d).Tidy :=
  { h.run.closeWord with }

/-- No word is open in a settled style. -/
theorem closeWord_of_settled (hm : s.Tidy) (hset : s.style.isSettled = true) :
    s.closeWord d = s := by
  have hf : (s.leaving d).Fits s.style s.cursor.surroundings := leave_fits hm.sane
  unfold closeWord
  split
  · rename_i hl
    rw [hl] at hf
    rw [show s.style = .identifier from hf] at hset
    exact nomatch hset
  · rename_i hl
    rw [hl] at hf
    rw [show s.style = .docKeyword from hf] at hset
    exact nomatch hset
  · rfl

/-- Everything from the start of the window on that the last cursor has passed is
    committed as it was shown. -/
theorem committed?_finish (hc : Covers s.cursor) {q : Nat} (hs : s.cursor.window.start ≤ q)
    (hq : q < s.cursor.pos) :
    s.finish.cursor.window.committed? q = some (s.cursor.shown q) :=
  Cursor.committed?_close hs hq hc.pos_le

theorem committed?_complete {c : Cursor} {q : Nat} {style : UInt8} (h : Reaches c s.cursor)
    (hq : c.window.committed? q = some style) :
    (s.complete d).cursor.window.committed? q = some style :=
  (((h.trans (reaches_run d s)).trans (reaches_closeWord d _)).switchTo .plain).committed?_eq hq

theorem stop_complete (d : Dialect) (s : Scan) :
    (s.complete d).cursor.window.stop = s.cursor.window.stop :=
  ((reaches_run d s).trans (reaches_closeWord d _)).stop_eq

theorem start_complete (d : Dialect) (s : Scan) :
    (s.complete d).cursor.window.start = s.cursor.window.start :=
  ((reaches_run d s).trans (reaches_closeWord d _)).start_eq

theorem stop_le_pos_run (d : Dialect) (s : Scan) : s.cursor.window.stop ≤ (s.run d).cursor.pos := by
  obtain ⟨-, -, -, hstop⟩ := exists_run_eq d s
  exact hstop

end StyledText.CFamily.Scan
