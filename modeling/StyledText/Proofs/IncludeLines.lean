/-
  The lines on which include paths stand.

  Whether a line includes a file is remembered from its directive on, through everything
  else that the line holds, and forgotten where the next line starts.  A literal whose place
  is kept opens on such a line, so each include path has an including directive before it.

  * `Text.IncludingLine`: a line on which an including directive stands before a position;
  * `Dialect.OpensPath`: where the place of a literal may be kept;
  * `Vouched`: what a scan remembers of include paths is in order, as each way to end a style
    (`Vouched.applyLeave`) and to begin one (`Vouched.enterAndPass`) leaves it;
  * `Warranted.step` and `Visits.warranted`: so it is between the steps of a whole scan;
  * `Dialect.lex_includes_opens`: how each include path of a text opens;
  * `Dialect.lex_includes_character`: it may be a character literal.
-/
import StyledText.Proofs.IncludePaths

namespace StyledText

/-! ## Including lines -/

namespace Text

variable {t : Text} {a k p p' : Nat}

/-- **The line of `p` includes a file**: its directive begins at `a` and its word, which is
    `include`, at `k`, both of them up to `p` and on the same line. -/
structure IncludingLine (t : Text) (a k p : Nat) : Prop where
  mark : t.charAt a = '#'
  lt : a < k
  blanks : ∀ q, a < q → q < k → isBlank (t.charAt q) = true
  word : (t.extract k (k + 7)).toList = ['i', 'n', 'c', 'l', 'u', 'd', 'e']
  le : k ≤ p
  sameLine : ∀ x, a < x → x ≤ p → t.isLineStart x = false

/-- It does so up to the end of the line. -/
theorem IncludingLine.mono (h : t.IncludingLine a k p) (hle : p ≤ p')
    (hline : ∀ x, p < x → x ≤ p' → t.isLineStart x = false) : t.IncludingLine a k p' where
  mark := h.mark
  lt := h.lt
  blanks := h.blanks
  word := h.word
  le := Nat.le_trans h.le hle
  sameLine := by
    intro x hx hxp
    rcases Nat.lt_or_ge p x with hnew | hold
    · exact hline x hnew hxp
    · exact h.sameLine x hx hold

/-- The word has ended where there is no letter. -/
theorem IncludingLine.word_le (h : t.IncludingLine a k p)
    (hp : isSmallLetter (t.charAt p) = false) : k + 7 ≤ p := by
  by_contra hlt
  have hsize : (t.extract k (k + 7)).length = 7 := by
    rw [← length_toList, h.word]
    rfl
  rw [length_extract] at hsize
  have hin : p - k < (t.extract k (k + 7)).toList.length := by
    rw [length_toList, length_extract]
    have := h.le
    omega
  have hchar : (t.extract k (k + 7)).toList[p - k] = t.charAt p := by
    simp only [toList_extract, List.getElem_take, List.getElem_drop, Nat.add_sub_cancel' h.le]
    rw [charAt_eq, List.getElem?_eq_getElem]
    rfl
  have hletters : ∀ c ∈ (t.extract k (k + 7)).toList, isSmallLetter c = true := by
    rw [h.word, ← List.all_eq_true]
    rfl
  have hletter := hletters _ (List.getElem_mem hin)
  rw [hchar, hp] at hletter
  cases hletter

/-- The line of `p` includes a file. -/
def Including (t : Text) (p : Nat) : Prop := ∃ a k, t.IncludingLine a k p

theorem Including.mono (h : t.Including p) (hle : p ≤ p')
    (hline : ∀ x, p < x → x ≤ p' → t.isLineStart x = false) : t.Including p' := by
  obtain ⟨a, k, h⟩ := h
  exact ⟨a, k, h.mono hle hline⟩

/-- A text has a word where it has the characters of the word. -/
theorem toList_extract_eq (cs : List Char)
    (hcs : ∀ c n, (c, n) ∈ cs.zipIdx → c ≠ nul ∧ t.charAt (k + n) = c) :
    (t.extract k (k + cs.length)).toList = cs := by
  refine List.ext_getElem? fun n => ?_
  rw [toList_extract, Nat.add_sub_cancel_left, List.getElem?_take]
  rcases Nat.lt_or_ge n cs.length with hn | hn
  · obtain ⟨hnul, hchar⟩ := hcs cs[n] n (List.mk_mem_zipIdx_iff_getElem?.2
      (List.getElem?_eq_getElem hn))
    rw [if_pos hn, List.getElem?_drop, List.getElem?_eq_getElem hn]
    rw [charAt_eq] at hchar
    cases hat : t.toList[k + n]? with
    | none =>
      rw [hat] at hchar
      exact absurd hchar.symm hnul
    | some c =>
      rw [hat] at hchar
      exact congrArg some hchar
  · rw [if_neg (Nat.not_lt.2 hn), List.getElem?_eq_none hn]

end Text

namespace CFamily

/-- **A literal whose place is kept may open at `a`**: on a line that includes a file, with a
    double quote or an angle bracket, or within a directive with a single quote. -/
structure Dialect.OpensPath (d : Dialect) (t : Text) (a : Nat) : Prop where
  including : t.Including a
  opening : t.charAt a = '"' ∨ t.charAt a = '<' ∨
    t.charAt a = '\'' ∧ 0 < a ∧ d.styleAt t (a - 1) = .directive

theorem Literal.OpensWith.string_cases {close c : Char} (h : (Literal.string close).OpensWith c) :
    c = '"' ∨ c = '<' := h.imp And.left And.left

namespace Scan

variable {d : Dialect} {t : Text} {s u : Scan} {p x : Nat}

/-! ## The word of a directive -/

/-- **A directive that includes a file makes its line an including one.** -/
theorem Through.including_directiveWord (h : Through t s)
    (hwhat : s.entering? d = some .directive)
    (hword : s.directiveWord.cursor.lookingAt ['i', 'n', 'c', 'l', 'u', 'd', 'e'] = true) :
    t.Including s.directiveWord.cursor.pos := by
  obtain ⟨⟨inside, -⟩, hch, -⟩ := entering?_eq_directive_iff.1 hwhat
  have hmark : t.charAt s.cursor.pos = '#' := (h.ch_eq_iff inside (by decide) (by decide)).1 hch
  obtain ⟨c, hc⟩ : ∃ c, c = (s.switchTo .directive).cursor.advance := ⟨_, rfl⟩
  have hskip : s.directiveWord.cursor = c.skipWhile isBlank := hc ▸ rfl
  have hreach : Reaches s.cursor c := hc ▸ (Reaches.refl.switchTo .directive).advance
  have hskipped : Reaches s.cursor (c.skipWhile isBlank) := hreach.skipWhile isBlank
  have hpos : c.pos = s.cursor.pos + 1 := by
    rw [hc]
    exact (Cursor.pos_advance _).trans (if_pos inside)
  have hle : c.pos ≤ (c.skipWhile isBlank).pos := (Reaches.refl.skipWhile isBlank).pos_le
  have hstop : (c.skipWhile isBlank).pos ≤ t.length := by
    rw [← h.stop_eq, ← hskipped.stop_eq]
    exact (hskipped.covers h.covers).pos_le
  have hblank : ∀ q, s.cursor.pos < q → q < (c.skipWhile isBlank).pos →
      isBlank (t.charAt q) = true := by
    intro q hq hlt
    have hskips := Cursor.accepts_of_skipWhile isBlank (hreach.sees h.sees) (by omega) hlt
    rwa [hreach.charOrSpace_eq, h.charOrSpace_eq_charAt (by omega)] at hskips
  rw [hskip] at hword ⊢
  refine ⟨s.cursor.pos, _, hmark, by omega, hblank, ?_, Nat.le_refl _, ?_⟩
  · refine Text.toList_extract_eq ['i', 'n', 'c', 'l', 'u', 'd', 'e'] fun ch n hmem => ?_
    rw [Cursor.lookingAt, List.all_eq_true] at hword
    have hpeek := beq_iff_eq.1 (hword (ch, n) hmem)
    have hletter : ch ≠ ' ' ∧ ch ≠ nul := by
      have hall : ∀ pair ∈ ['i', 'n', 'c', 'l', 'u', 'd', 'e'].zipIdx,
          pair.1 ≠ ' ' ∧ pair.1 ≠ nul := by decide
      exact hall (ch, n) hmem
    rw [Cursor.peek, hskipped.charOrSpace_eq, h.charOrSpace_eq_iff hletter.1 hletter.2] at hpeek
    exact ⟨hletter.2, hpeek⟩
  · intro x hx hxp
    by_contra hstart
    -- What stands before the start of a line is neither the mark nor a blank.
    have hbreak := Text.isLineBreak_before (Bool.not_eq_false _ ▸ hstart)
    rcases Nat.lt_or_eq_of_le (Nat.le_sub_one_of_lt hx) with hlt | heq
    · have hspace := hblank (x - 1) hlt (by omega)
      rw [isBlank, Bool.or_eq_true, beq_iff_eq, beq_iff_eq] at hspace
      rcases hspace with hspace | hspace <;> rw [hspace] at hbreak <;> cases hbreak
    · rw [← heq, hmark] at hbreak
      cases hbreak

/-! ## What the moves of a step leave -/

/-- No end of a style makes a line an including one. -/
theorem inInclude_applyLeave {style : Style} {how : Leave}
    (h : (s.applyLeave d style how).memory.inInclude = true) : s.memory.inInclude = true := by
  cases how with
  | endWord =>
    rw [applyLeave, endWord] at h
    split at h <;> split at h <;> exact h
  | closeDocKeyword =>
    rw [applyLeave, closeDocKeyword] at h
    split at h <;> exact h
  | closeLiteral =>
    rw [applyLeave, closeLiteral] at h
    dsimp only at h
    split at h
    · exact h
    · cases h
  | _ => exact h

theorem inInclude_passChar : s.passChar.memory.inInclude = s.memory.inInclude := by
  rw [passChar_eq]
  split <;> rfl

theorem inInclude_passContinuation :
    s.passContinuation.memory.inInclude = s.memory.inInclude := by
  unfold passContinuation
  dsimp only
  split <;> rfl

/-- A directive that begins makes its line an including one if it includes a file. -/
theorem inInclude_openDirective (h : s.openDirective.memory.inInclude = true) :
    s.memory.inInclude = true ∨
      s.openDirective.cursor = s.directiveWord.cursor ∧
        s.directiveWord.cursor.lookingAt ['i', 'n', 'c', 'l', 'u', 'd', 'e'] = true := by
  rw [openDirective_eq] at h ⊢
  split_ifs at h ⊢ with hend hword
  · exact .inl h
  · exact .inr ⟨rfl, hword⟩
  · exact .inl h

/-- **What is remembered of include paths is in order**: `here` holds if the line includes a
    file, and each place that has been kept may be one where a path opens. -/
structure Vouched (d : Dialect) (t : Text) (here : Prop) (s : Scan) : Prop where
  line : s.memory.inInclude = true → here
  place : ∀ a, s.literalStart = some a → d.OpensPath t a
  spans : ∀ span ∈ s.includes, d.OpensPath t span.start

namespace Vouched

variable {here there : Prop}

theorem move (h : Vouched d t here s) (hp : u.paths = s.paths)
    (hline : u.memory.inInclude = true → there) : Vouched d t there u := by
  obtain ⟨hstart, hincludes⟩ := Prod.mk.inj hp
  exact ⟨hline, hstart ▸ h.place, hincludes ▸ h.spans⟩

/-- A literal that opens is in order if its place may be kept. -/
theorem openLiteral (h : Vouched d t here s) {l : Literal} {inDirective keepPlace : Bool}
    (hopens : here → keepPlace = true → d.OpensPath t s.cursor.pos) :
    Vouched d t here (s.openLiteral l inDirective keepPlace) where
  line := h.line
  place := by
    intro a ha
    rw [show (s.openLiteral l inDirective keepPlace).literalStart =
      if s.memory.inInclude && keepPlace then some s.cursor.pos else none from rfl] at ha
    split at ha
    · rename_i hkept
      obtain ⟨hflag, hkeep⟩ := Bool.and_eq_true_iff.1 hkept
      obtain rfl := Option.some.inj ha
      exact hopens (h.line hflag) hkeep
    · cases ha
  spans := h.spans

/-- A literal that is closed is a path that opens where its place has been kept. -/
theorem closeLiteral (h : Vouched d t here s) : Vouched d t here (s.closeLiteral d) where
  line hflag := h.line (inInclude_applyLeave
    (show (s.applyLeave d s.style .closeLiteral).memory.inInclude = true from hflag))
  place := by
    intro a ha
    unfold Scan.closeLiteral at ha
    dsimp only at ha
    split at ha
    · exact h.place a ha
    · cases ha
  spans := by
    rcases includes_closeLiteral (d := d) (s := s) with hsame | ⟨a, ha, hnew⟩
    · rw [hsame]
      exact h.spans
    · rw [hnew]
      intro span hspan
      rcases List.mem_append.1 hspan with hspan | hspan
      · exact h.spans span hspan
      · rw [List.mem_singleton.1 hspan]
        exact h.place a ha

/-- **The end of a style keeps it in order**, if a literal opens there in a directive as one
    may. -/
theorem applyLeave {style : Style} {how : Leave} (h : Vouched d t here s)
    (hopens : ∀ l, how = .openLiteral l → here → d.OpensPath t s.cursor.pos) :
    Vouched d t here (s.applyLeave d style how) := by
  by_cases hopen : ∃ l, how = .openLiteral l
  · obtain ⟨l, rfl⟩ := hopen
    exact h.openLiteral fun hhere _ => hopens l rfl hhere
  · by_cases hclose : how = .closeLiteral
    · subst hclose
      exact h.closeLiteral
    · exact h.move (paths_applyLeave (fun l hl => hopen ⟨l, hl⟩) hclose)
        fun hflag => h.line (inInclude_applyLeave hflag)

/-- **So does what begins in plain text.** -/
theorem enterAndPass (h : Vouched d t here s) (hthere : here → there)
    (hopens : ∀ close, s.entering? d = some (.literal (.string close)) → here →
      d.OpensPath t s.cursor.pos)
    (hdirective : s.entering? d = some .directive →
      s.openDirective.memory.inInclude = true → there) :
    Vouched d t there (s.enterAndPass d) := by
  have hpass (u : Scan) (hu : Vouched d t here u) : Vouched d t there u.passChar :=
    hu.move paths_passChar fun hflag => hthere (hu.line (inInclude_passChar ▸ hflag))
  cases hwhat : s.entering? d with
  | none =>
    rw [enterAndPass_of_none hwhat]
    exact hpass s h
  | some what =>
    by_cases hw : what = .directive
    · subst hw
      rw [enterAndPass_of_directive hwhat]
      exact h.move paths_openDirective (hdirective hwhat)
    · rw [enterAndPass_of_some hwhat hw]
      refine hpass _ ?_
      cases what with
      | literal l =>
        cases l with
        | string close => exact h.openLiteral fun hhere _ => hopens close hwhat hhere
        | character => exact h.openLiteral fun _ hkeep => absurd hkeep Bool.false_ne_true
      | directive => exact absurd rfl hw
      | _ => exact h.move rfl h.line

end Vouched

/-! ## Steps -/

/-- **A step passes no line start on its way**, though it may end at one. -/
theorem Through.not_isLineStart_of_step (h : Through t s)
    (inside : s.cursor.pos < s.cursor.window.stop) (hx : s.cursor.pos < x)
    (hlt : x < (s.step d).cursor.pos) : t.isLineStart x = false := by
  by_contra hstart
  have hstart : t.isLineStart x = true := Bool.not_eq_false _ ▸ hstart
  have hstop := (h.step (d := d) inside).covers.pos_le
  rw [stop_step, h.stop_eq] at hstop
  have hends : s.cursor.window.EndsLine (x - 1) :=
    h.endsLine (by rwa [Nat.sub_add_cancel (by omega)]) (by omega)
  have hle := pos_step_le (d := d) h.tidy h.covers h.sees hends (by omega)
  omega

/-- What begins at the cursor is passed by the step. -/
theorem pos_lt_enterAndPass {what : Enter} (hwhat : s.entering? d = some what) :
    s.cursor.pos < (s.enterAndPass d).cursor.pos := by
  obtain ⟨c, h, h'⟩ := enterAndPass_moves d s
  exact h.pos_lt h' (pos_lt_of_entering? hwhat)

/-- **Between two steps**, the line that the scan is on includes a file if the scan remembers
    it to, unless the line has only started. -/
def Warranted (d : Dialect) (t : Text) (s : Scan) : Prop :=
  Vouched d t (t.isLineStart s.cursor.pos = false → t.Including s.cursor.pos) s

/-- Where a line starts, it is forgotten that the line before includes a file. -/
theorem Warranted.beginLine (h : Warranted d t s) (hr : Through t s)
    (inside : s.cursor.pos < s.cursor.window.stop) :
    Vouched d t (t.Including s.cursor.pos) s.beginLine := by
  refine h.move paths_beginLine fun hflag => ?_
  unfold Scan.beginLine at hflag
  split at hflag
  · cases hflag
  · rename_i hline
    refine h.line hflag ?_
    by_contra hstart
    have hstart : t.isLineStart s.cursor.pos = true := Bool.not_eq_false _ ▸ hstart
    exact hline (hr.atLineStart_eq hstart (hr.stop_eq ▸ inside))

/-- **Each step leaves what is remembered in order.** -/
theorem Warranted.step (h : Warranted d t s) (hv : Visits d (whole t) s)
    (inside : s.cursor.pos < s.cursor.window.stop) : Warranted d t (s.step d) := by
  have hr := hv.through
  have inside' := inside_beginLine inside
  have hbegin := h.beginLine hr inside
  have moved := pos_lt_step d inside
  have hclear : ∀ x, s.cursor.pos < x → x < (s.step d).cursor.pos → t.isLineStart x = false :=
    fun x hx hlt => hr.not_isLineStart_of_step inside hx hlt
  -- The line goes on up to where the step ends, unless the next one starts there.
  have hthere (hin : t.Including s.cursor.pos)
      (hend : t.isLineStart (s.step d).cursor.pos = false) :
      t.Including (s.step d).cursor.pos := by
    refine hin.mono (Nat.le_of_lt moved) fun x hx hle => ?_
    rcases Nat.lt_or_eq_of_le hle with hlt | rfl
    · exact hclear x hx hlt
    · exact hend
  by_cases hjoin : t.JoinsAt s.cursor.pos
  · have hstep := hr.step_of_joinsAt (d := d) inside hjoin
    refine hbegin.move (by rw [hstep, paths_passContinuation]) fun hflag => hthere ?_
    rw [hstep, inInclude_passContinuation] at hflag
    exact hbegin.line hflag
  · have hstep := hr.step_of_not_joinsAt (d := d) inside hjoin
    have hleft : Vouched d t (t.Including s.cursor.pos) (s.beginLine.leaveStyle d) := by
      refine hbegin.applyLeave fun l hhow hin => ?_
      have hmeets := leaving_meets (d := d) (s := s)
      rw [hhow] at hmeets
      obtain ⟨hdirective, hl⟩ := hmeets
      have hopens := hr.beginLine.opensWith inside' hl
      rw [pos_beginLine] at hopens ⊢
      refine ⟨hin, ?_⟩
      cases l with
      | string close => exact hopens.string_cases.imp_right .inl
      | character =>
        obtain ⟨hpos, hfamily⟩ := hv.family_before inside (by rw [hdirective]; decide)
        rw [hdirective] at hfamily
        exact .inr (.inr ⟨hopens, hpos, Style.eq_of_isAlone rfl hfamily⟩)
    have hthrough := hr.left (d := d) inside
    have hle : s.cursor.pos ≤ (s.beginLine.leaveStyle d).cursor.pos :=
      (reaches_leaveStyle d s).pos_le
    rw [hstep] at hclear hthere
    rw [Warranted, hstep]
    refine hleft.enterAndPass hthere (fun close hwhat hin => ?_) fun hwhat hflag hend => ?_
    · have hlt := pos_lt_enterAndPass hwhat
      have hopens := hthrough.opensWith (pos_lt_of_entering? hwhat)
        (meets_of_entering? hwhat).opensWith
      exact ⟨hin.mono hle fun x hx hxp => hclear x hx (by omega),
        hopens.string_cases.imp_right .inl⟩
    · rcases inInclude_openDirective hflag with hold | ⟨hcursor, hword⟩
      · exact hthere (hleft.line hold) hend
      · rw [enterAndPass_of_directive hwhat, hcursor]
        exact hthrough.including_directiveWord hwhat hword

/-- **So it is wherever a scan of a whole text comes**, by induction on its steps. -/
theorem Visits.warranted (hv : Visits d (whole t) u) : Warranted d t u := by
  induction hv with
  | refl => exact ⟨nofun, nofun, nofun⟩
  | step hv inside ih => exact ih.step hv inside

end Scan

namespace Dialect

/-- **How the include paths of a text open.**  Each of them stands behind an including
    directive on its line: behind a `#` and blanks, and the word `include`.  It opens with a
    double quote or with an angle bracket, or it is a character literal that opens within
    the directive. -/
theorem lex_includes_opens (d : Dialect) (t : Text) :
    ∀ span ∈ (d.lex (.ofBuffer (.ofText t) 0 t.length) 0).includes,
      (∃ a k, t.IncludingLine a k span.start ∧ k + 7 ≤ span.start) ∧
      (t.charAt span.start = '"' ∨ t.charAt span.start = '<' ∨
        t.charAt span.start = '\'' ∧ 0 < span.start ∧
          d.styleAt t (span.start - 1) = .directive) := by
  intro span hspan
  have hincludes : (d.lex (.ofBuffer (.ofText t) 0 t.length) 0).includes =
      ((Scan.whole t).run d).includes := Scan.includes_complete
  rw [hincludes] at hspan
  obtain ⟨⟨a, k, hline⟩, hopening⟩ :=
    (Scan.Visits.of_run d (Scan.whole t)).warranted.spans span hspan
  refine ⟨⟨a, k, hline, hline.word_le ?_⟩, hopening⟩
  rcases hopening with h | h | ⟨h, -⟩ <;> rw [h] <;> rfl

theorem lex_includes_opens_angleBrackets :
    let t := Text.ofString "# include <a>"
    (⟨10, 13⟩ : Span) ∈ (standard.lex (.ofBuffer (.ofText t) 0 t.length) 0).includes ∧
      (∃ a k, t.IncludingLine a k 10 ∧ k + 7 ≤ 10) ∧
      (t.charAt 10 = '"' ∨ t.charAt 10 = '<' ∨
        t.charAt 10 = '\'' ∧ 0 < 10 ∧ standard.styleAt t 9 = .directive) := by
  intro t
  have hspan : (⟨10, 13⟩ : Span) ∈
      (standard.lex (.ofBuffer (.ofText t) 0 t.length) 0).includes := by decide +kernel
  exact ⟨hspan, lex_includes_opens standard t _ hspan⟩

/-- **A character literal within the directive is taken for a path.** -/
theorem lex_includes_character :
    let t := Text.ofString "#include 'a'"
    (standard.lex (.ofBuffer (.ofText t) 0 t.length) 0).includes = [⟨9, 12⟩] ∧
      t.charAt 9 = '\'' := by
  decide +kernel

-- Behind a comment the same literal is none.
example :
    let t := Text.ofString "#include /**/ 'a'"
    (standard.lex (.ofBuffer (.ofText t) 0 t.length) 0).includes = [] := by
  decide +kernel

end Dialect

end CFamily

end StyledText
