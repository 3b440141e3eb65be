/-
  What holds of a scan between its steps.

  A step may close a run, begin another one, take the cursor over several characters and
  change what is remembered.  Between two steps all of this fits together, whatever the
  text, the settings and the words.  The styles that a look-up finds are given to runs
  that are closed at once, so no run is open in them.  A place that is kept of a literal is
  that of a character passed.  And a keyword of a comment is open from its mark on, which
  is one byte, so that the run without its first byte is the keyword.

  * `Style.isFound`: the styles that a look-up finds, and `isFound_step`: no run is open in
    them after a step;
  * `literalStart_lt_step`: a step passes the character at the place that it keeps;
  * `InKeyword`: a keyword is open at its mark, as far as its letters have been read, and
    `InKeyword.of_step`: so it is after a step;
  * `Coherent`: what holds between two steps, and `Coherent.step`: a step keeps it;
  * `Visits.coherent`: it holds at every place that a scan comes to, by induction on its
    steps;
  * `Dialect.lex_coherent`: so it does for every window on every buffer, up to the end.
-/
import StyledText.Proofs.IncludeLines
import StyledText.Proofs.Operators
import StyledText.Proofs.WholeWords

namespace StyledText.CFamily

/-- The styles that a look-up finds when a run ends: those of the words of a list, and the
    one of a keyword that is not known. -/
def Style.isFound : Style → Bool
  | keyword | keyword2 | globalClass | docKeywordError => true
  | _ => false

theorem Enter.isFound_style (what : Enter) : what.style.isFound = false := by
  cases what with
  | blockComment doc | lineComment doc => cases doc <;> rfl
  | literal l => cases l <;> rfl
  | _ => rfl

theorem Enter.style_ne_docKeyword (what : Enter) : what.style ≠ .docKeyword := by
  intro hs
  have hword : what = .identifier := Enter.eq_identifier_of_isLookedUp (by rw [hs]; rfl)
  rw [hword] at hs
  cases hs

namespace Scan

variable {d : Dialect} {t : Text} {s u : Scan} {a q : Nat}

/-! ## The style of the open run -/

/-- The run goes on, or it is one of what has begun; a directive without a word is over at
    once. -/
theorem style_enterAndPass_cases :
    (s.enterAndPass d).style = s.style ∨ (s.enterAndPass d).style = .plain ∨
      ∃ what : Enter, (s.enterAndPass d).style = what.style := by
  cases hwhat : s.entering? d with
  | none =>
    rw [enterAndPass_of_none hwhat]
    exact .inl style_passChar
  | some what =>
    by_cases hw : what = .directive
    · subst hw
      rw [enterAndPass_of_directive hwhat]
      rcases style_openDirective (s := s) with hs | hs
      · exact .inr (.inr ⟨.directive, hs⟩)
      · exact .inr (.inl hs)
    · rw [enterAndPass_of_some hwhat hw, style_passChar, style_applyEnter hw]
      exact .inr (.inr ⟨what, rfl⟩)

theorem isFound_leaveStyle (hm : s.memory.Sane) (hs : s.style.isFound = false) :
    (s.leaveStyle d).style.isFound = false := by
  rcases style_leaveStyle_cases (d := d) hm with
    ⟨h, -⟩ | h | ⟨h, -⟩ | ⟨h, -⟩ | ⟨h, -⟩ | ⟨l, h, -⟩ | ⟨h, -⟩ <;> rw [h]
  · exact hs
  · rfl
  · rfl
  · rfl
  · -- A keyword gives way to the comment that it is in.
    rcases hm.docStyle with hd | hd <;> rw [hd] <;> rfl
  · cases l <;> rfl
  · rfl

/-- **After a step no run is open in a style that a look-up finds.** -/
theorem isFound_step (hm : s.Tidy) (hs : s.style.isFound = false) :
    (s.step d).style.isFound = false := by
  cases hover : s.beginLine.atContinuation with
  | true => rw [step, if_pos hover, style_passContinuation, style_beginLine, hs]
  | false =>
    have hleft : (s.beginLine.leaveStyle d).style.isFound = false :=
      isFound_leaveStyle hm.beginLine.sane (by rw [style_beginLine, hs])
    rw [step_of_not_atContinuation hover]
    rcases style_enterAndPass_cases (d := d) (s := s.beginLine.leaveStyle d) with
      h | h | ⟨what, h⟩ <;> rw [h]
    · exact hleft
    · rfl
    · exact what.isFound_style

/-! ## The place that is kept of a literal -/

theorem mem_literalStart_openLiteral {l : Literal} {inDirective keepPlace : Bool}
    (ha : a ∈ (s.openLiteral l inDirective keepPlace).literalStart) : a = s.cursor.pos := by
  unfold openLiteral at ha
  dsimp only at ha
  split at ha
  · exact (Option.mem_some_iff.1 ha).symm
  · cases ha

/-- When a style has been left, a place is kept that was so before, or the one of the
    cursor. -/
theorem mem_literalStart_applyLeave {style : Style} {how : Leave}
    (ha : a ∈ (s.applyLeave d style how).literalStart) :
    a ∈ s.literalStart ∨ a = s.cursor.pos := by
  by_cases hopen : ∃ l, how = .openLiteral l
  · obtain ⟨l, rfl⟩ := hopen
    exact .inr (mem_literalStart_openLiteral ha)
  by_cases hclose : how = .closeLiteral
  · subst hclose
    rw [applyLeave, closeLiteral] at ha
    dsimp only at ha
    split at ha
    · exact .inl ha
    · cases ha
  · have hsame : (s.applyLeave d style how).literalStart = s.literalStart :=
      congrArg Prod.fst (paths_applyLeave (fun l hl => hopen ⟨l, hl⟩) hclose)
    exact .inl (hsame ▸ ha)

/-- So it is with what begins. -/
theorem mem_literalStart_applyEnter {what : Enter} (ha : a ∈ (s.applyEnter what).literalStart) :
    a ∈ s.literalStart ∨ a = s.cursor.pos := by
  by_cases hw : ∃ l, what = .literal l
  · obtain ⟨l, rfl⟩ := hw
    cases l with
    | string close => exact .inr (mem_literalStart_openLiteral ha)
    | character => exact .inr (mem_literalStart_openLiteral ha)
  · have hsame : (s.applyEnter what).literalStart = s.literalStart :=
      congrArg Prod.fst (paths_applyEnter fun l hl => hw ⟨l, hl⟩)
    exact .inl (hsame ▸ ha)

theorem literalStart_passChar : s.passChar.literalStart = s.literalStart :=
  congrArg Prod.fst paths_passChar

/-- What begins is passed, and with it the place that is kept of it. -/
theorem mem_literalStart_enterAndPass (ha : a ∈ (s.enterAndPass d).literalStart) :
    a ∈ s.literalStart ∨ a < (s.enterAndPass d).cursor.pos := by
  cases hwhat : s.entering? d with
  | none =>
    rw [enterAndPass_of_none hwhat, literalStart_passChar] at ha
    exact .inl ha
  | some what =>
    have hpassed : s.cursor.pos < (s.enterAndPass d).cursor.pos := pos_lt_enterAndPass hwhat
    have hplace : a ∈ s.literalStart ∨ a = s.cursor.pos := by
      by_cases hw : what = .directive
      · subst hw
        rw [enterAndPass_of_directive hwhat] at ha
        change a ∈ (s.applyEnter .directive).literalStart at ha
        exact mem_literalStart_applyEnter ha
      · rw [enterAndPass_of_some hwhat hw, literalStart_passChar] at ha
        exact mem_literalStart_applyEnter ha
    exact hplace.imp_right fun (hsame : a = s.cursor.pos) => hsame ▸ hpassed

/-- **A step passes the character at the place that it keeps of a literal.** -/
theorem literalStart_lt_step (h : ∀ a ∈ s.literalStart, a < s.cursor.pos)
    (inside : s.cursor.pos < s.cursor.window.stop) (ha : a ∈ (s.step d).literalStart) :
    a < (s.step d).cursor.pos := by
  have hmoved := pos_lt_step d inside
  have hbegin : s.beginLine.literalStart = s.literalStart := congrArg Prod.fst paths_beginLine
  cases hover : s.beginLine.atContinuation with
  | true =>
    have hjoined : s.beginLine.passContinuation.literalStart = s.beginLine.literalStart :=
      congrArg Prod.fst paths_passContinuation
    rw [step, if_pos hover, hjoined, hbegin] at ha
    exact Nat.lt_trans (h a ha) hmoved
  | false =>
    rw [step_of_not_atContinuation hover] at ha hmoved ⊢
    rcases mem_literalStart_enterAndPass ha with hleft | hpassed
    · rcases mem_literalStart_applyLeave hleft with hold | rfl
      · exact Nat.lt_trans (h a (hbegin ▸ hold)) hmoved
      · rwa [pos_beginLine]
    · exact hpassed

/-! ## Keywords that are open -/

/-- **A keyword of a comment is open**: the run begins with the mark, and what has been
    passed behind it are small letters, and the line ends that lines are joined at. -/
structure InKeyword (t : Text) (s : Scan) : Prop where
  boundary_lt : s.cursor.window.boundary < s.cursor.pos
  mark : t.charAt s.cursor.window.boundary = '@' ∨ t.charAt s.cursor.window.boundary = '\\'
  letters : ∀ q, s.cursor.window.boundary < q → q < s.cursor.pos →
    isSmallLetter (t.charAt q) = true ∨ t.InJoin q

/-- What has been read of the keyword that is open: the text behind its mark. -/
def keywordRead (t : Text) (s : Scan) : List Char :=
  (t.extract (s.cursor.window.boundary + 1) s.cursor.pos).toList

/-- Where a keyword ends, no other one begins in the same step. -/
theorem isSmallLetter_of_docKeyword_step (hm : s.Tidy) (hs : s.style = .docKeyword)
    (hover : s.beginLine.atContinuation = false) (hstep : (s.step d).style = .docKeyword) :
    isSmallLetter s.cursor.ch = true := by
  have hbegin : s.beginLine.style = .docKeyword := style_beginLine.trans hs
  have hcursor : s.beginLine.cursor = s.cursor :=
    cursor_beginLine_of_isLookedUp (by rw [hs]; rfl)
  rw [step_of_not_atContinuation hover] at hstep
  have hafter : (s.beginLine.leaveStyle d).style = s.beginLine.styleAfter (s.beginLine.leaving d) :=
    style_applyLeave _
  have hleft : s.beginLine.styleAfter (s.beginLine.leaving d) = .docKeyword := by
    rw [← hafter]
    rcases style_enterAndPass_cases (d := d) (s := s.beginLine.leaveStyle d) with
      h | h | ⟨what, h⟩ <;> rw [h] at hstep
    · exact hstep
    · cases hstep
    · exact absurd hstep what.style_ne_docKeyword
  rcases leaving_of_docKeyword (d := d) hbegin with ⟨-, hletter⟩ | hhow | hhow
  · rwa [hcursor] at hletter
  · rw [hhow] at hleft
    cases hleft
  · rw [hhow, styleAfter] at hleft
    rcases hm.beginLine.sane.docStyle with hd | hd <;> rw [hd] at hleft <;> cases hleft

namespace InKeyword

/-- A keyword that begins is open at its mark. -/
theorem of_begins (hr : Reads t s) (inside : s.cursor.pos < s.cursor.window.stop)
    (hb : s.Begins d a .docKeyword) : (s.step d).InKeyword t := by
  obtain ⟨hwithin, hpos, -⟩ := hb.step hr.sees hr.covers inside
  have hmark : t.charAt a = '@' ∨ t.charAt a = '\\' := by
    cases hb with
    | docKeyword hplace hover hhow =>
      have hfits : (s.beginLine.leaving d).Fits s.beginLine.style
          s.beginLine.cursor.surroundings := leave_fits hr.tidy.beginLine.sane
      rw [hhow] at hfits
      have hch : s.beginLine.cursor.ch = '@' ∨ s.beginLine.cursor.ch = '\\' :=
        mark_of_openDocKeyword hhow hfits.1
      have inside' := inside_beginLine inside
      rwa [hr.beginLine.ch_eq_iff inside' (by decide) (by decide),
        hr.beginLine.ch_eq_iff inside' (by decide) (by decide), pos_beginLine, hplace] at hch
  refine ⟨?_, ?_, fun q hq hlt => ?_⟩
  · rw [hwithin.boundary_eq, hpos]
    exact Nat.lt_succ_self a
  · rwa [hwithin.boundary_eq]
  · rw [hwithin.boundary_eq] at hq
    omega

/-- A step within a keyword passes a small letter or a joined line end. -/
theorem letters_of_step (hr : Reads t s) (inside : s.cursor.pos < s.cursor.window.stop)
    (hs : s.style = .docKeyword) (hstep : (s.step d).style = .docKeyword)
    (hle : s.cursor.pos ≤ q) (hlt : q < (s.step d).cursor.pos) :
    isSmallLetter (t.charAt q) = true ∨ t.InJoin q := by
  by_cases hjoin : t.JoinsAt s.cursor.pos
  · rw [hr.step_of_joinsAt inside hjoin, hr.beginLine.pos_passContinuation
      (inside_beginLine inside), pos_beginLine] at hlt
    exact .inr ⟨_, hjoin, hle, Nat.lt_of_lt_of_le hlt (Nat.min_le_left _ _)⟩
  · have hletter := isSmallLetter_of_docKeyword_step hr.tidy hs
      (hr.not_atContinuation inside hjoin) hstep
    have hgo : goesOn d.settings s.style s.cursor.ch = true := by rwa [hs]
    rw [step_of_goesOn hgo, cursor_passChar, Cursor.pos_advance, pos_beginLine] at hlt
    obtain rfl : q = s.cursor.pos := by
      split at hlt <;> omega
    rw [hr.sees.ch_eq inside, hr.apply_charOrSpace isSmallLetter (by decide)] at hletter
    exact .inl hletter

/-- **A keyword that is open after a step has been open before, or its mark has been
    passed.** -/
theorem of_step (h : s.style = .docKeyword → s.InKeyword t) (hr : Reads t s)
    (inside : s.cursor.pos < s.cursor.window.stop) (hstep : (s.step d).style = .docKeyword) :
    (s.step d).InKeyword t := by
  have hwithin : (s.step d).Within .docKeyword (s.step d).cursor.window.boundary := ⟨hstep, rfl⟩
  rcases within_of_step hr.tidy hr.covers rfl hwithin with hold | hbegins
  · have hopen := h hold.style_eq
    have hboundary := hold.boundary_eq
    refine ⟨?_, hboundary ▸ hopen.mark, fun q hq hlt => ?_⟩
    · rw [← hboundary]
      exact Nat.lt_trans hopen.boundary_lt (pos_lt_step d inside)
    · rcases Nat.lt_or_ge q s.cursor.pos with hbefore | hle
      · exact hopen.letters q (hboundary ▸ hq) hbefore
      · exact letters_of_step hr inside hold.style_eq hstep hle hlt
  · exact of_begins hr inside hbegins

/-- **The run without its first byte is the keyword.** -/
theorem bytes_tail (h : s.InKeyword t)
    (hrun : s.cursor.openRun = (t.extract s.cursor.window.boundary s.cursor.pos).toList)
    (hpos : s.cursor.pos ≤ t.length) :
    (s.cursor.openRun.flatMap String.utf8EncodeChar).tail =
      (s.keywordRead t).flatMap String.utf8EncodeChar := by
  have hlt := h.boundary_lt
  have hspelled : s.cursor.openRun =
      t.charAt s.cursor.window.boundary :: s.keywordRead t := by
    rw [hrun, keywordRead, Text.toList_extract_eq_map hpos, Text.toList_extract_eq_map hpos,
      show s.cursor.pos - s.cursor.window.boundary =
        s.cursor.pos - (s.cursor.window.boundary + 1) + 1 by omega, List.range'_succ,
      List.map_cons]
  rw [hspelled, List.flatMap_cons]
  rcases h.mark with hmark | hmark <;> rw [hmark] <;> rfl

end InKeyword

/-! ## Between two steps -/

/-- **What holds of a scan of `t` between two steps.** -/
structure Coherent (t : Text) (s : Scan) : Prop where
  /-- No run is open in a style that a look-up finds. -/
  isFound : s.style.isFound = false
  /-- A string is closed by one of its two marks, and a keyword is in a comment that
      documents. -/
  sane : s.memory.Sane
  /-- The open run lies before the cursor. -/
  boundary_le : s.cursor.window.boundary ≤ s.cursor.pos
  /-- The cursor is in the window or at its end. -/
  pos_le : s.cursor.pos ≤ s.cursor.window.stop
  /-- The place that is kept of a literal has been passed. -/
  literalStart_lt : ∀ a ∈ s.literalStart, a < s.cursor.pos
  /-- A keyword is open from its mark on. -/
  inKeyword : s.style = .docKeyword → s.InKeyword t

/-- A word that is ended at the end of the window gives way to plain text, and a keyword to its
    comment. -/
theorem closeWord_cases : s.closeWord d = s ∨ (s.closeWord d).style = .plain ∨
    (s.closeWord d).style = s.memory.docStyle := by
  unfold closeWord
  split
  · exact .inr (.inl style_endWord)
  · exact .inr (.inr style_switchTo)
  · exact .inl rfl

namespace Coherent

/-- A scan that opens in plain text has nothing open and keeps no place. -/
theorem of_plain (hr : Reads t s) (hs : s.style = .plain) (hl : s.literalStart = none) :
    s.Coherent t where
  isFound := by
    rw [hs]
    rfl
  sane := hr.tidy.sane
  boundary_le := hr.covers.boundary_le
  pos_le := hr.covers.pos_le
  literalStart_lt := by
    rw [hl]
    exact nofun
  inKeyword := by
    rw [hs]
    exact nofun

/-- **A step keeps it.** -/
theorem step (h : s.Coherent t) (hr : Reads t s) (inside : s.cursor.pos < s.cursor.window.stop) :
    (s.step d).Coherent t where
  isFound := isFound_step hr.tidy h.isFound
  sane := (hr.step inside).tidy.sane
  boundary_le := (hr.step inside).covers.boundary_le
  pos_le := (hr.step inside).covers.pos_le
  literalStart_lt := fun _ => literalStart_lt_step h.literalStart_lt inside
  inKeyword := InKeyword.of_step h.inKeyword hr inside

/-- So does ending the word at the end of the window. -/
theorem closeWord (h : s.Coherent t) (hr : Reads t s) : (s.closeWord d).Coherent t := by
  have hreach := reaches_closeWord d s
  have hcovers := hreach.covers hr.covers
  have hplace : (s.closeWord d).literalStart = s.literalStart := congrArg Prod.fst paths_closeWord
  have hstyle : (s.closeWord d).style.isFound = false ∧
      ((s.closeWord d).style = .docKeyword → s.closeWord d = s) := by
    rcases closeWord_cases (d := d) (s := s) with hsame | hs | hs
    · rw [hsame]
      exact ⟨h.isFound, fun _ => rfl⟩
    · rw [hs]
      exact ⟨rfl, nofun⟩
    · rcases h.sane.docStyle with hd | hd <;> rw [hs, hd] <;> exact ⟨rfl, nofun⟩
  refine ⟨hstyle.1, hr.tidy.closeWord.sane, hcovers.boundary_le, hcovers.pos_le,
    fun a ha => ?_, fun hs => ?_⟩
  · exact Nat.lt_of_lt_of_le (h.literalStart_lt a (hplace ▸ ha)) hreach.pos_le
  · have hsame := hstyle.2 hs
    rw [hsame] at hs ⊢
    exact h.inKeyword hs

end Coherent

/-- What a scan reads, it reads at each place that it comes to. -/
theorem Visits.reads (hv : Visits d s u) (hr : Reads t s) : Reads t u :=
  hr.move hv.reaches (hv.tidy hr.tidy)

/-- **It holds at each place that the scan comes to**, by induction on its steps. -/
theorem Visits.coherent (hv : Visits d s u) (hr : Reads t s) (h : s.Coherent t) : u.Coherent t := by
  induction hv with
  | refl => exact h
  | step hv inside ih => exact ih.step (hv.reads hr) inside

end Scan

namespace Dialect

/-- **What holds of a scan between its steps**, for every window on every buffer that is read
    from plain text on: before each step, at the end of the window, and when the word that
    is open there has been ended.  So the style byte to go on with is never one that a
    look-up finds, and of a keyword that is open at any of these places, the run without
    its first byte is what has been read of it. -/
theorem lex_coherent (d : Dialect) (b : Buffer) (start n : Nat) :
    let w := Window.ofBuffer b start n
    let s := d.opening w 0
    let e := (s.run d).closeWord d
    (Scan.Visits d s (s.run d) ∧ e.cursor.pos = w.stop ∧ d.scan w 0 = e.finish) ∧
      (∀ u, Scan.Visits d s u ∨ u = e → u.Coherent b.text ∧ (u.style = .docKeyword →
        (u.cursor.openRun.flatMap String.utf8EncodeChar).tail =
          (u.keywordRead b.text).flatMap String.utf8EncodeChar)) ∧
      ∀ style : Style, style.isFound = true → (d.lex w 0).endStyle ≠ style.code := by
  intro w s e
  have hw : w.Fresh := Window.fresh_ofBuffer b start n
  have hreads : Scan.Reads b.text s := d.reads_opening hw 0
  have hopening : s = Scan.ofWindow w .plain := d.opening_zero w
  have hopen : s.Coherent b.text := by
    rw [hopening] at hreads ⊢
    exact .of_plain hreads (Style.ofCode_code .plain) rfl
  have hrun : Scan.Visits d s (s.run d) := .of_run d s
  have hend : e.Coherent b.text := (hrun.coherent hreads hopen).closeWord (hrun.reads hreads)
  have hreach : Scan.Reaches s.cursor e.cursor := d.reaches_closed s
  have hstop : s.cursor.window.stop = w.stop := by rw [hopening]; rfl
  refine ⟨⟨hrun, ?_, rfl⟩, fun u hu => ?_, fun style hs hcode => ?_⟩
  · have hlast : s.cursor.window.stop ≤ e.cursor.pos :=
      Nat.le_trans (Scan.stop_le_pos_run d s) (Scan.reaches_closeWord d _).pos_le
    have hle := hend.pos_le
    rw [hreach.stop_eq] at hle
    omega
  · have hcoherent : u.Coherent b.text := by
      rcases hu with hv | rfl
      · exact hv.coherent hreads hopen
      · exact hend
    have hcome : Scan.Reaches s.cursor u.cursor := by
      rcases hu with hv | rfl
      · exact hv.reaches
      · exact hreach
    have hpos : u.cursor.pos ≤ b.text.length := by
      have hle := hcoherent.pos_le
      rw [hcome.stop_eq, hstop] at hle
      exact Nat.le_trans hle hw.stop_le
    refine ⟨hcoherent, fun hs => (hcoherent.inKeyword hs).bytes_tail ?_ hpos⟩
    rw [hopening] at hcome
    exact hcome.textRange_eq_extract hw hpos
  · -- The last commit leaves the style as it is.
    have hstyle : e.style = style := by
      rw [Scan.style, show e.cursor.state = style.code from hcode, Style.ofCode_code]
    rw [← hstyle, hend.isFound] at hs
    cases hs

section Examples

/-- An include path that is not closed, and a keyword in a comment on the next line. -/
def openKeyword : Text := .ofString "#include \"a\n/// @bc"

/-- A window that ends within the keyword: the keyword is open from its mark on, and the
    place of the path is still kept. -/
theorem lex_coherent_openKeyword :
    let b := Buffer.ofText openKeyword
    let s := standard.opening (.ofBuffer b 0 18) 0
    let u := s.run standard
    Scan.Visits standard s u ∧ u.style = .docKeyword ∧ u.cursor.window.boundary = 16 ∧
      u.cursor.pos = 18 ∧ u.literalStart = some 9 ∧ u.keywordRead openKeyword = ['b'] ∧
      u.Coherent openKeyword ∧
      (u.cursor.openRun.flatMap String.utf8EncodeChar).tail =
        ['b'].flatMap String.utf8EncodeChar ∧
      (standard.lex (.ofBuffer b 0 18) 0).endStyle ≠ Style.docKeywordError.code := by
  intro b s u
  obtain ⟨⟨hv, -, -⟩, hall, hend⟩ := lex_coherent standard b 0 18
  have hs : u.style = .docKeyword := by decide +kernel
  have hread : u.keywordRead openKeyword = ['b'] := by decide +kernel
  obtain ⟨hcoherent, hbytes⟩ := hall u (.inl hv)
  exact ⟨hv, hs, by decide +kernel, by decide +kernel, by decide +kernel, hread, hcoherent,
    hread ▸ hbytes hs, hend _ rfl⟩

-- Where lines are joined within a keyword, the line end is read as a part of it.
example :
    let text := Text.ofString "/** @a\\\nbc"
    let u := (standard.opening (.ofBuffer (.ofText text) 0 9) 0).run standard
    u.style = .docKeyword ∧ u.keywordRead text = ['a', '\\', '\n', 'b'] := by
  decide +kernel

end Examples

end Dialect

end StyledText.CFamily
