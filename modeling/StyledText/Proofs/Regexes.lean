/-
  Regular expressions and what stands before them.

  A slash opens a regular expression if the last visible character that the scan has noted
  may stand before one.  The scan notes the character that a step passes last.  What it
  passes before that in the same step goes unnoticed: a mark that closes a literal or a
  regular expression, the mark of a directive, a backslash whose character is white space.
  So what stands before a regular expression need not be what the scan has noted.

  * `CountsAsCode` and `Unnoticed`: the characters that count, and those of them that a scan
    does not note; `LastNoted`: one behind which all others go unnoticed;
  * `Visits.unnoticed_of_left`: what a step passes when it leaves a style;
  * `Notes` and `Visits.notesLast`: all that counts behind the character that the scan has noted
    last has gone unnoticed, by induction on the steps;
  * `Dialect.lexText_regex`: what stands before a regular expression;
  * `Dialect.lexText_regex_behindString`: a division behind a string that is taken for one.
-/
import StyledText.Proofs.Passing
import StyledText.Proofs.QuotedLiterals

namespace StyledText.CFamily

section Counting

variable (t : Text) (styles : Array UInt8) (q : Nat)

/-- The character at `q` counts: it is neither white space nor in a comment. -/
def CountsAsCode : Prop :=
  isSpace (t.charAt q) = false ∧
    ∀ style : Style, style.isComment = true → styles[q]? ≠ some style.code

/-- **The last character before `p` that counts is the one at `q`.** -/
structure LastCode (p : Nat) : Prop where
  lt : q < p
  counts : CountsAsCode t styles q
  last : ∀ r, q < r → r < p → ¬ CountsAsCode t styles r

/-- **The character at `q` is one that a scan does not note**, although it counts. -/
inductive Unnoticed : Prop where
  /-- A backslash at the end of a line. -/
  | joined (hjoin : t.JoinsAt q)
  /-- A backslash in a literal, with white space behind it. -/
  | escape (hmark : t.charAt q = '\\') (hspace : isSpace (t.charAt (q + 1)) = true)
      (hstyle : styles[q]? = some Style.string.code ∨ styles[q]? = some Style.character.code ∨
        styles[q]? = some Style.unclosed.code)
  /-- The end of a string. -/
  | string (hmark : t.charAt q = '"' ∨ t.charAt q = '>')
      (hstyle : styles[q]? = some Style.string.code)
  /-- The end of a character literal. -/
  | character (hmark : t.charAt q = '\'') (hstyle : styles[q]? = some Style.character.code)
  /-- The end of a string without escapes. -/
  | verbatim (hmark : t.charAt q = '"') (hstyle : styles[q]? = some Style.verbatim.code)
  /-- The end of a regular expression, or a letter behind it. -/
  | regex (hmark : t.charAt q = '/' ∨ isSmallLetter (t.charAt q) = true)
      (hstyle : styles[q]? = some Style.regex.code)
  /-- The mark of a directive. -/
  | directive (hmark : t.charAt q = '#') (hstyle : styles[q]? = some Style.directive.code)

/-- **The character at `q` counts, and all that counts between it and `p` goes unnoticed.** -/
structure LastNoted (p : Nat) : Prop where
  lt : q < p
  counts : CountsAsCode t styles q
  unnoticed : ∀ r, q < r → r < p → CountsAsCode t styles r → Unnoticed t styles r

end Counting

theorem not_countsAsCode_of_isSpace {t : Text} {styles : Array UInt8} {q : Nat}
    (h : isSpace (t.charAt q) = true) : ¬ CountsAsCode t styles q := by
  rintro ⟨hvisible, -⟩
  rw [h] at hvisible
  cases hvisible

theorem isSpace_of_isBlank {c : Char} (h : isBlank c = true) : isSpace c = true := by
  simp only [isBlank, Bool.or_eq_true, beq_iff_eq] at h
  rcases h with rfl | rfl <;> decide

namespace Scan

variable {d : Dialect} {t : Text} {s u : Scan} {style : Style} {p q r v : Nat}

/-! ## What is noted -/

theorem lastVisible_beginLine : s.beginLine.memory.lastVisible = s.memory.lastVisible := by
  unfold beginLine
  split
  · dsimp only
    split <;> rfl
  · rfl

theorem lastVisible_passContinuation :
    s.passContinuation.memory.lastVisible = s.memory.lastVisible := by
  unfold passContinuation
  dsimp only
  split <;> rfl

/-- The end of a style is acted on without a note of what is passed. -/
theorem lastVisible_applyLeave (how : Leave) :
    (s.applyLeave d style how).memory.lastVisible = s.memory.lastVisible := by
  cases how with
  | endWord =>
    rw [applyLeave, endWord]
    split <;> split <;> rfl
  | closeDocKeyword =>
    rw [applyLeave, closeDocKeyword]
    split <;> rfl
  | closeLiteral =>
    rw [applyLeave, closeLiteral]
    dsimp only
    split <;> rfl
  | _ => rfl

theorem lastVisible_leaveStyle :
    (s.beginLine.leaveStyle d).memory.lastVisible = s.memory.lastVisible :=
  (lastVisible_applyLeave _).trans lastVisible_beginLine

theorem lastVisible_openDirective :
    s.openDirective.memory.lastVisible = s.memory.lastVisible := by
  rw [openDirective_eq]
  split
  · rfl
  · split <;> rfl

theorem lastVisible_applyEnter (what : Enter) :
    (s.applyEnter what).memory.lastVisible = s.memory.lastVisible := by
  cases what with
  | directive => exact lastVisible_openDirective
  | literal l => cases l <;> rfl
  | _ => rfl

/-! ## Characters that count -/

/-- The style that a character has in the end tells whether it counts. -/
theorem countsAsCode_iff (hq : q < t.length) :
    CountsAsCode t (d.lexer.lexText t 0 t.length 0) q ↔
      isSpace (t.charAt q) = false ∧ (d.styleAt t q).isComment = false := by
  refine and_congr_right fun _ => ?_
  constructor
  · intro h
    by_contra hcomment
    exact h _ (Bool.not_eq_false _ ▸ hcomment) (Dialect.getElem?_lexText_eq hq)
  · intro h style hstyle hcode
    rw [(Dialect.getElem?_lexText_iff.1 hcode).2, hstyle] at h
    cases h

theorem isComment_eq (h : (d.styleAt t q).family = style.family) :
    (d.styleAt t q).isComment = style.isComment := by
  rw [← Style.isComment_family, h, Style.isComment_family]

/-! ## What is passed without a note -/

/-- A literal that is closed has its style for good, with the character that closes it. -/
theorem Visits.getElem?_of_closeLiteral (hv : Visits d (whole t) s)
    (inside : s.cursor.pos < s.cursor.window.stop) (hover : s.beginLine.atContinuation = false)
    (hhow : s.beginLine.leaving d = .closeLiteral) :
    (d.lexer.lexText t 0 t.length 0)[s.cursor.pos]? = some s.style.code := by
  have hbegin := hv.through.beginLine
  have inside' := inside_beginLine inside
  have hadvanced : s.beginLine.cursor.advance.pos = s.cursor.pos + 1 := by
    rw [Cursor.pos_advance, if_pos inside', pos_beginLine]
  have hclosed : (s.beginLine.leaveStyle d).cursor.window.committed? s.cursor.pos =
      some s.style.code := by
    have hopen := hbegin.covers.boundary_le
    rw [pos_beginLine] at hopen
    rw [leaveStyle, hhow, applyLeave, cursor_closeLiteral, Cursor.committed?_switchTo _ _
      hbegin.covers.advance.pos_le, Cursor.state_advance, ← hbegin.covers.code_ofCode]
    · exact congrArg (some ·.code) style_beginLine
    · rwa [Cursor.window_advance]
    · omega
  rw [hv.getElem?_lexText, complete_step inside, step_of_not_atContinuation hover]
  exact committed?_complete (reaches_enterAndPass d _) hclosed

section Left

variable (hv : Visits d (whole t) s) (inside : s.cursor.pos < s.cursor.window.stop)
  (hover : s.beginLine.atContinuation = false) (hle : s.cursor.pos ≤ r)
  (hlt : r < (s.beginLine.leaveStyle d).cursor.pos)

include hv inside hover hle hlt

/-- The mark that closes a literal. -/
theorem Visits.unnoticed_of_closeLiteral (hhow : s.beginLine.leaving d = .closeLiteral) :
    Unnoticed t (d.lexer.lexText t 0 t.length 0) r := by
  have hcode := hv.getElem?_of_closeLiteral inside hover hhow
  have hch : s.beginLine.cursor.surroundings.ch = t.charAt s.cursor.pos :=
    hv.through.ch_beginLine inside
  have hmeets := leaving_meets (d := d) (s := s)
  have hpos : (s.beginLine.leaveStyle d).cursor.pos = s.cursor.pos + 1 := by
    rw [leaveStyle, hhow, applyLeave, cursor_closeLiteral, Cursor.pos_switchTo, Cursor.pos_advance,
      if_pos (inside_beginLine inside), pos_beginLine]
  obtain rfl : r = s.cursor.pos := by omega
  rw [hhow] at hmeets
  rcases hmeets with ⟨hs, hquote⟩ | ⟨hs, hquote⟩ <;> rw [hch] at hquote <;> rw [hs] at hcode
  · have hclose := hv.through.beginLine.tidy.sane.stringClose
    rw [← hquote] at hclose
    exact .string hclose hcode
  · exact .character hquote hcode

/-- The slash that closes a regular expression, and the letters behind it. -/
theorem Visits.unnoticed_of_closeRegex (hhow : s.beginLine.leaving d = .closeRegex) :
    Unnoticed t (d.lexer.lexText t 0 t.length 0) r := by
  have hleft : Through t (s.beginLine.leaveStyle d) := hv.through.left inside
  have hlength : r < t.length := hleft.stop_eq ▸ Nat.lt_of_lt_of_le hlt hleft.covers.pos_le
  have hch : s.beginLine.cursor.surroundings.ch = t.charAt s.cursor.pos :=
    hv.through.ch_beginLine inside
  have hmeets := leaving_meets (d := d) (s := s)
  rw [hhow] at hmeets
  obtain ⟨hs, hslash⟩ := hmeets
  rw [hch] at hslash
  have hregex : d.styleAt t r = .regex :=
    Style.eq_of_isAlone rfl (hs ▸ hv.family_of_left inside hle hlt hover)
  have hcode := d.getElem?_lexText_eq hlength
  rw [hregex] at hcode
  rcases Nat.eq_or_lt_of_le hle with rfl | hbehind
  · exact .regex (.inl hslash) hcode
  · have hreach : Reaches s.cursor s.beginLine.cursor.advance := (reaches_beginLine s).advance
    have hpos : s.beginLine.cursor.advance.pos = s.cursor.pos + 1 := by
      rw [Cursor.pos_advance, if_pos (inside_beginLine inside), pos_beginLine]
    rw [leaveStyle, hhow] at hlt
    have hletter := Cursor.accepts_of_skipWhile isSmallLetter (hreach.sees hv.through.sees)
      (by omega) hlt
    rw [hreach.charOrSpace_eq, hv.through.charOrSpace_eq_charAt hlength] at hletter
    exact .regex (.inr hletter) hcode

/-- **What is passed when a style is left goes unnoticed**, where it counts; a character
    whose next one is skipped may be an escape or not. -/
theorem Visits.unnoticed_of_left
    (hcounts : CountsAsCode t (d.lexer.lexText t 0 t.length 0) r) :
    Unnoticed t (d.lexer.lexText t 0 t.length 0) r ∨
      s.beginLine.leaving d = .skipNext ∧ r = s.cursor.pos := by
  have hfamily := hv.family_of_left inside hle hlt hover
  have hleft : Through t (s.beginLine.leaveStyle d) := hv.through.left inside
  have hlength : r < t.length := hleft.stop_eq ▸ Nat.lt_of_lt_of_le hlt hleft.covers.pos_le
  rw [countsAsCode_iff hlength, isComment_eq hfamily] at hcounts
  have hadvanced : s.beginLine.cursor.advance.pos = s.cursor.pos + 1 := by
    rw [Cursor.pos_advance, if_pos (inside_beginLine inside), pos_beginLine]
  have hmeets := leaving_meets (d := d) (s := s)
  have hopen (hpos : (s.beginLine.leaveStyle d).cursor.pos = s.beginLine.cursor.pos) : False := by
    rw [hpos, pos_beginLine] at hlt
    exact Nat.not_lt.2 hle hlt
  cases hhow : s.beginLine.leaving d with
  | stay | switch | recolour | openDocKeyword | openLiteral =>
    exact (hopen (by rw [leaveStyle, hhow]; rfl)).elim
  | endWord => exact (hopen (by rw [leaveStyle, hhow, applyLeave, cursor_endWord]; rfl)).elim
  | closeDocKeyword =>
    exact (hopen (by rw [leaveStyle, hhow, applyLeave, cursor_closeDocKeyword]; rfl)).elim
  | switchAfterPair =>
    rw [hhow] at hmeets
    rcases hmeets with hs | hs <;> rw [hs] at hcounts <;> cases hcounts.2
  | breakDocKeyword =>
    rw [hhow] at hmeets
    rw [hmeets.1] at hcounts
    cases hcounts.2
  | skipNext =>
    rw [leaveStyle, hhow] at hlt
    have hlt : r < s.beginLine.cursor.advance.pos := hlt
    exact .inr ⟨rfl, by omega⟩
  | switchAfter next =>
    rw [leaveStyle, hhow] at hlt
    have hlt : r < s.beginLine.cursor.advance.pos := hlt
    obtain rfl : r = s.cursor.pos := by omega
    rw [hhow] at hmeets
    obtain ⟨hs, hquote⟩ := hmeets
    have hverbatim : d.styleAt t s.cursor.pos = .verbatim :=
      Style.eq_of_isAlone rfl (hs ▸ hfamily)
    have hcode := d.getElem?_lexText_eq hlength
    rw [hverbatim] at hcode
    exact .inl (.verbatim (hv.through.ch_beginLine inside ▸ hquote) hcode)
  | closeLiteral => exact .inl (hv.unnoticed_of_closeLiteral inside hover hle hlt hhow)
  | closeRegex => exact .inl (hv.unnoticed_of_closeRegex inside hover hle hlt hhow)

end Left

/-- Nothing begins where the next character has just been skipped. -/
theorem entering?_of_skipNext (hhow : s.leaving d = .skipNext) :
    (s.leaveStyle d).entering? d = none := by
  refine entering?_of_style_ne ?_
  have hmeets : (s.leaving d).Meets s.style s.cursor.surroundings s.memory := leave_meets
  rw [hhow] at hmeets
  rw [leaveStyle, hhow, style_applyLeave, styleAfter]
  rcases hmeets with ⟨hs | hs, -⟩ | ⟨hs, -⟩ | ⟨hs, -⟩ <;> rw [hs] <;> decide

section Skip

variable (hv : Visits d (whole t) s) (inside : s.cursor.pos < s.cursor.window.stop)
  (hover : s.beginLine.atContinuation = false) (hhow : s.beginLine.leaving d = .skipNext)
  (hlt : (s.beginLine.leaveStyle d).cursor.pos < t.length)

theorem pos_of_skipNext (inside : s.cursor.pos < s.cursor.window.stop)
    (hhow : s.beginLine.leaving d = .skipNext) :
    (s.beginLine.leaveStyle d).cursor.pos = s.cursor.pos + 1 := by
  rw [leaveStyle, hhow]
  show s.beginLine.cursor.advance.pos = _
  rw [Cursor.pos_advance, if_pos (inside_beginLine inside), pos_beginLine]

include hv inside hover hhow hlt

/-- A character that is taken away is in the style of the literal. -/
theorem Visits.family_of_skipNext :
    (d.styleAt t (s.cursor.pos + 1)).family = s.style.family := by
  have hleft : Through t (s.beginLine.leaveStyle d) := hv.through.left inside
  have hpos := pos_of_skipNext inside hhow
  have hkept : (s.beginLine.leaveStyle d).style = s.style := by
    rw [leaveStyle, hhow, style_applyLeave]
    exact style_beginLine
  have hnone := entering?_of_skipNext hhow
  have hstep : (s.step d).cursor.pos = s.cursor.pos + 2 := by
    rw [step_of_not_atContinuation hover, enterAndPass_of_none hnone, cursor_passChar,
      Cursor.pos_advance, hleft.stop_eq, if_pos hlt, hpos]
  rw [(hv.step inside).family_eq (by omega), step_of_not_atContinuation hover,
    enterAndPass_of_none hnone, cursor_passChar, Cursor.shown_advance,
    Cursor.shown_of_boundary_le (Nat.le_trans hleft.covers.boundary_le (Nat.le_of_eq hpos)),
    ← hkept]
  rfl

/-- Of a backslash and a character that it takes away, the character is noted, unless it is
    white space; and two marks that stand for one are both visible. -/
theorem Visits.unnoticed_of_skipNext
    (hspace : ¬ CountsAsCode t (d.lexer.lexText t 0 t.length 0)
      (s.beginLine.leaveStyle d).cursor.pos) :
    Unnoticed t (d.lexer.lexText t 0 t.length 0) s.cursor.pos := by
  have hbegin := hv.through.beginLine
  have inside' := inside_beginLine inside
  have hpos := pos_of_skipNext inside hhow
  have hmeets := leaving_meets (d := d) (s := s)
  rw [hhow] at hmeets
  -- Both characters are passed in the style of the literal.
  have hfamily : (d.styleAt t s.cursor.pos).family = s.style.family :=
    hv.family_of_left inside (Nat.le_refl _) (by omega) hover
  have hnext := hv.family_of_skipNext inside hover hhow hlt
  rw [hpos] at hlt hspace
  rw [countsAsCode_iff hlt, isComment_eq hnext] at hspace
  have hch : s.beginLine.cursor.surroundings.ch = t.charAt s.cursor.pos :=
    hv.through.ch_beginLine inside
  -- A quote or a slash, which would be noted, is not there.
  have hmark {ch : Char} (hblank : ch ≠ ' ') (hnul : ch ≠ nul) (hvisible : isSpace ch = false)
      (hcode : s.style.isComment = false) (hat : s.beginLine.cursor.surroundings.next = ch) :
      Unnoticed t (d.lexer.lexText t 0 t.length 0) s.cursor.pos := by
    have hat' := (hbegin.next_eq_iff inside' hblank hnul).1 hat
    rw [pos_beginLine] at hat'
    exact absurd ⟨hat' ▸ hvisible, hcode⟩ hspace
  rcases hmeets with ⟨hs, hbackslash⟩ | ⟨hs, -, hquote⟩ | ⟨hs, -, hpair⟩
  · have hcode : s.style.isComment = false := by
      rcases hs with hs | hs <;> rw [hs] <;> rfl
    have hliteral : s.style.family = .unclosed := by
      rcases hs with hs | hs <;> rw [hs] <;> rfl
    refine .escape (hch ▸ hbackslash) ?_ ?_
    · simpa [hcode] using hspace
    · rw [d.getElem?_lexText_eq (Nat.lt_of_succ_lt hlt)]
      simpa only [Option.some.injEq, Style.code_inj] using
        Style.eq_of_family_unclosed (hfamily.trans hliteral)
  · exact hmark (by decide) (by decide) rfl (by rw [hs]; rfl) hquote
  · rcases hpair with hpair | hpair
    · exact hmark (by decide) (by decide) rfl (by rw [hs]; rfl) hpair
    · exact hmark (by decide) (by decide) rfl (by rw [hs]; rfl) hpair

end Skip

/-- Where something begins, all that has been passed before goes unnoticed. -/
theorem Enters.unnoticed {what : Enter} (h : s.Enters d t what p) (hle : s.cursor.pos ≤ r)
    (hlt : r < p) (hcounts : CountsAsCode t (d.lexer.lexText t 0 t.length 0) r) :
    Unnoticed t (d.lexer.lexText t 0 t.length 0) r := by
  rcases h.visits.unnoticed_of_left h.inside h.hover hle (h.pos_eq.symm ▸ hlt) hcounts with
    hunnoticed | ⟨hhow, -⟩
  · exact hunnoticed
  · have hnone := entering?_of_skipNext hhow
    rw [h.entering?_eq] at hnone
    cases hnone

/-- A directive that opens passes its mark, and blanks behind it. -/
theorem Enters.unnoticed_directive (h : s.Enters d t .directive p) (hle : p ≤ r)
    (hlt : r < (s.step d).cursor.pos)
    (hcounts : CountsAsCode t (d.lexer.lexText t 0 t.length 0) r) :
    Unnoticed t (d.lexer.lexText t 0 t.length 0) r := by
  have hleft := h.through_left
  have hstep := h.visits.step h.inside
  have inside := pos_lt_of_entering? h.entering?_eq
  have hlength : r < t.length :=
    hstep.through.stop_eq ▸ Nat.lt_of_lt_of_le hlt hstep.through.covers.pos_le
  obtain ⟨hmark, -⟩ := h.meets
  rw [show (s.beginLine.leaveStyle d).cursor.surroundings.ch =
    (s.beginLine.leaveStyle d).cursor.ch from rfl, hleft.ch_eq_iff inside (by decide) (by decide),
    h.pos_eq] at hmark
  rcases Nat.eq_or_lt_of_le hle with rfl | hbehind
  · have hfamily := hstep.family_eq hlt
    rw [h.shown_eq hle hlt, Style.ofCode_code] at hfamily
    refine .directive hmark ?_
    rw [d.getElem?_lexText_eq hlength, Style.eq_of_isAlone rfl hfamily]
    rfl
  · exfalso
    have hpos : (s.step d).cursor.pos = (s.beginLine.leaveStyle d).directiveWord.cursor.pos := by
      rw [step_of_not_atContinuation h.hover, enterAndPass_of_directive h.entering?_eq,
        openDirective_eq]
      split
      · rfl
      · split <;> rfl
    have hreach : Reaches (s.beginLine.leaveStyle d).cursor
        ((s.beginLine.leaveStyle d).switchTo .directive).cursor.advance :=
      (Reaches.refl.switchTo .directive).advance
    have hfirst : ((s.beginLine.leaveStyle d).switchTo .directive).cursor.advance.pos = p + 1 :=
      (Cursor.pos_advance _).trans ((if_pos inside).trans (congrArg (· + 1) h.pos_eq))
    have hblank := Cursor.accepts_of_skipWhile isBlank (hreach.sees hleft.sees)
      (hfirst.symm ▸ hbehind) (hpos ▸ hlt)
    rw [hreach.charOrSpace_eq, hleft.charOrSpace_eq_charAt hlength] at hblank
    exact not_countsAsCode_of_isSpace (isSpace_of_isBlank hblank) hcounts

/-- The second character of a mark counts like the first one. -/
theorem Enters.countsAsCode_of_mark {what : Enter} (h : s.Enters d t what p)
    (hw : what ≠ .directive) (inside' : (s.step d).cursor.pos < (s.step d).cursor.window.stop)
    (hle : p ≤ r) (hlt : r < ((s.beginLine.leaveStyle d).applyEnter what).cursor.pos)
    (hcounts : CountsAsCode t (d.lexer.lexText t 0 t.length 0) r) :
    CountsAsCode t (d.lexer.lexText t 0 t.length 0)
      ((s.beginLine.leaveStyle d).applyEnter what).cursor.pos := by
  obtain ⟨e, he⟩ : ∃ e, e = ((s.beginLine.leaveStyle d).applyEnter what).cursor := ⟨_, rfl⟩
  have hstep : (s.step d).cursor = e.advance := by
    rw [h.step_eq hw, cursor_passChar, he]
  have hpassed : Through t (s.step d) := (h.visits.step h.inside).through
  have hend : e.pos < t.length := by
    have hadvance := Cursor.pos_le_advance e
    rw [hpassed.stop_eq, hstep] at inside'
    exact Nat.lt_of_le_of_lt hadvance inside'
  have hpos : (s.step d).cursor.pos = e.pos + 1 := by
    have hstop := hpassed.stop_eq
    rw [hstep, Cursor.window_advance] at hstop
    rw [hstep, Cursor.pos_advance, hstop, if_pos hend]
  have hfamily {q : Nat} (hle : p ≤ q) (hlt : q ≤ e.pos) :
      (d.styleAt t q).family = what.style.family := by
    rw [(h.visits.step h.inside).family_eq (by omega), h.shown_eq hle (by omega),
      Style.ofCode_code]
  rw [← he] at hlt ⊢
  rw [countsAsCode_iff (Nat.lt_trans hlt hend), isComment_eq (hfamily hle (Nat.le_of_lt hlt))]
    at hcounts
  rw [countsAsCode_iff hend, isComment_eq (hfamily (by omega) (Nat.le_refl _))]
  refine ⟨?_, hcounts.2⟩
  have hleft := h.through_left
  have inside := pos_lt_of_entering? h.entering?_eq
  have hmark := h.meets
  cases what with
  | verbatim =>
    have hquote := (hleft.next_eq_iff inside (by decide) (by decide)).1 hmark.2
    have hbehind : e.pos = (s.beginLine.leaveStyle d).cursor.pos + 1 :=
      he ▸ (Cursor.pos_advance _).trans (if_pos inside)
    rw [hbehind, hquote]
    rfl
  | blockComment doc => cases doc <;> cases hcounts.2
  | directive => exact absurd rfl hw
  -- Nothing else has a mark of two characters.
  | literal literal =>
    have hsame : e.pos = p := he ▸ (by cases literal <;> exact h.pos_eq)
    omega
  | number | identifier | uuid | lineComment | regex | operator =>
    have hsame : e.pos = p := he ▸ h.pos_eq
    omega

/-! ## The character noted last -/

/-- **The scan has noted last the character at `v`**, and all that counts behind it has gone
    unnoticed. -/
structure Notes (d : Dialect) (t : Text) (v : Nat) (s : Scan) : Prop extends
    LastNoted t (d.lexer.lexText t 0 t.length 0) v s.cursor.pos where
  ch_eq : s.memory.lastVisible = t.charAt v

/-- A scan that passes something without a note goes on with the note that it has. -/
theorem Notes.extend (h : s.Notes d t v) (hle : s.cursor.pos ≤ u.cursor.pos)
    (hl : u.memory.lastVisible = s.memory.lastVisible)
    (hnew : ∀ r, s.cursor.pos ≤ r → r < u.cursor.pos →
      CountsAsCode t (d.lexer.lexText t 0 t.length 0) r →
        Unnoticed t (d.lexer.lexText t 0 t.length 0) r) : u.Notes d t v where
  lt := Nat.lt_of_lt_of_le h.lt hle
  counts := h.counts
  ch_eq := hl.trans h.ch_eq
  unnoticed := by
    intro r hv hlt hcounts
    rcases Nat.lt_or_ge r s.cursor.pos with hold | hbehind
    · exact h.unnoticed r hv hold hcounts
    · exact hnew r hbehind hlt hcounts

/-- The scan has noted nothing yet, or it notes a character of the text. -/
def NotesLast (d : Dialect) (t : Text) (s : Scan) : Prop :=
  s.memory.lastVisible = ' ' ∨ ∃ v, s.Notes d t v

theorem NotesLast.extend (h : s.NotesLast d t) (hle : s.cursor.pos ≤ u.cursor.pos)
    (hl : u.memory.lastVisible = s.memory.lastVisible)
    (hnew : ∀ r, s.cursor.pos ≤ r → r < u.cursor.pos →
      CountsAsCode t (d.lexer.lexText t 0 t.length 0) r →
        Unnoticed t (d.lexer.lexText t 0 t.length 0) r) : u.NotesLast d t := by
  refine h.imp hl.trans ?_
  rintro ⟨v, hnotes⟩
  exact ⟨v, hnotes.extend hle hl hnew⟩

/-- **A step that passes a character last notes it**, if it counts.  All that counts before it
    in the same step goes unnoticed, and only if the last one does not count, it has to. -/
theorem Visits.notes_passChar {e : Scan} (hv : Visits d (whole t) s)
    (inside : s.cursor.pos < s.cursor.window.stop)
    (inside' : (s.step d).cursor.pos < (s.step d).cursor.window.stop)
    (hreach : Reaches s.cursor e.cursor) (hstep : s.step d = e.passChar)
    (hl : e.memory.lastVisible = s.memory.lastVisible)
    (hnew : ∀ r, s.cursor.pos ≤ r → r < e.cursor.pos →
      CountsAsCode t (d.lexer.lexText t 0 t.length 0) r →
      ¬ CountsAsCode t (d.lexer.lexText t 0 t.length 0) e.cursor.pos →
        Unnoticed t (d.lexer.lexText t 0 t.length 0) r)
    (ih : s.NotesLast d t) : (s.step d).NotesLast d t := by
  have hcovers := hreach.covers hv.through.covers
  have hin : e.cursor.pos < e.cursor.window.stop := by
    have hle := Cursor.pos_le_advance e.cursor
    rw [stop_step, ← hreach.stop_eq, hstep, cursor_passChar] at inside'
    exact Nat.lt_of_le_of_lt hle inside'
  have hpos : (s.step d).cursor.pos = e.cursor.pos + 1 := by
    rw [hstep, cursor_passChar, Cursor.pos_advance, if_pos hin]
  have hlength : e.cursor.pos < t.length := by
    rw [hreach.stop_eq, hv.through.stop_eq] at hin
    exact hin
  have hch : e.cursor.ch = t.charAt e.cursor.pos := by
    rw [(hreach.sees hv.through.sees).ch_eq hin, hreach.charOrSpace_eq,
      hv.through.charOrSpace_eq_charAt hlength]
  have hfamily : (d.styleAt t e.cursor.pos).family = e.style.family := by
    rw [(hv.step inside).family_eq (by omega), hstep, cursor_passChar, Cursor.shown_advance,
      Cursor.shown_of_boundary_le hcovers.boundary_le]
    rfl
  have hcounts : CountsAsCode t (d.lexer.lexText t 0 t.length 0) e.cursor.pos ↔
      (isSpace e.cursor.ch || e.style.isComment) = false := by
    rw [countsAsCode_iff hlength, isComment_eq hfamily, hch, Bool.or_eq_false_iff]
  have hle := hreach.pos_le
  have hmemory := congrArg (·.memory.lastVisible) (hstep.trans (passChar_eq e))
  cases hskip : (isSpace e.cursor.ch || e.style.isComment) with
  | true =>
    rw [hskip] at hmemory hcounts
    refine ih.extend (by omega) (hmemory.trans hl) ?_
    intro r hr hlt hcode
    rcases Nat.lt_or_eq_of_le (Nat.le_of_lt_succ (hpos ▸ hlt)) with hbefore | rfl
    · exact hnew r hr hbefore hcode (by simp [hcounts])
    · exact absurd (hcounts.1 hcode) (by simp)
  | false =>
    rw [hskip] at hmemory hcounts
    refine .inr ⟨e.cursor.pos, ⟨by omega, hcounts.2 rfl, fun r hr hlt => ?_⟩, hmemory.trans hch⟩
    omega

section Step

variable (hv : Visits d (whole t) s) (inside : s.cursor.pos < s.cursor.window.stop)
  (ih : s.NotesLast d t)

include hv inside ih

/-- The step passes a joined line end. -/
theorem Visits.notesLast_of_joinsAt (hjoin : t.JoinsAt s.cursor.pos) :
    (s.step d).NotesLast d t := by
  have hstep := hv.through.step_of_joinsAt (d := d) inside hjoin
  have hpos := hv.through.pos_step_of_joinsAt (d := d) inside hjoin
  refine ih.extend (pos_lt_step d inside).le ?_ ?_
  · rw [hstep, lastVisible_passContinuation, lastVisible_beginLine]
  · intro r hr hlt hcounts
    rcases Nat.eq_or_lt_of_le hr with rfl | hbehind
    · exact .joined hjoin
    · have hb := hjoin.isLineBreak_of_lt hbehind (hpos ▸ hlt)
      exact absurd hcounts (not_countsAsCode_of_isSpace (isSpace_of_isLineBreak hb))

/-- The step goes on in the style that it has come to. -/
theorem Visits.notesLast_of_kept (inside' : (s.step d).cursor.pos < (s.step d).cursor.window.stop)
    (hover : s.beginLine.atContinuation = false)
    (hnone : (s.beginLine.leaveStyle d).entering? d = none) : (s.step d).NotesLast d t := by
  have hstep : s.step d = (s.beginLine.leaveStyle d).passChar := by
    rw [step_of_not_atContinuation hover, enterAndPass_of_none hnone]
  refine hv.notes_passChar inside inside' (reaches_leaveStyle d s) hstep lastVisible_leaveStyle
    ?_ ih
  intro r hr hlt hcounts hlast
  rcases hv.unnoticed_of_left inside hover hr hlt hcounts with hunnoticed | ⟨hhow, rfl⟩
  · exact hunnoticed
  · have hend : (s.beginLine.leaveStyle d).cursor.pos < t.length := by
      have hle := Cursor.pos_le_advance (s.beginLine.leaveStyle d).cursor
      rw [(hv.step (d := d) inside).through.stop_eq, hstep, cursor_passChar] at inside'
      exact Nat.lt_of_le_of_lt hle inside'
    exact hv.unnoticed_of_skipNext inside hover hhow hend hlast

end Step

/-- The step begins a directive. -/
theorem Enters.notesLast_of_directive {p : Nat} (h : s.Enters d t .directive p)
    (ih : s.NotesLast d t) : (s.step d).NotesLast d t := by
  refine ih.extend (pos_lt_step d h.inside).le ?_ ?_
  · rw [step_of_not_atContinuation h.hover, enterAndPass_of_directive h.entering?_eq,
      lastVisible_openDirective, lastVisible_leaveStyle]
  · intro r hr hlt hcounts
    rcases Nat.lt_or_ge r p with hbefore | hle
    · exact h.unnoticed hr hbefore hcounts
    · exact h.unnoticed_directive hle hlt hcounts

/-- The step begins something else. -/
theorem Enters.notesLast {what : Enter} {p : Nat} (h : s.Enters d t what p)
    (hw : what ≠ .directive) (inside' : (s.step d).cursor.pos < (s.step d).cursor.window.stop)
    (ih : s.NotesLast d t) : (s.step d).NotesLast d t := by
  have hentered : Reaches s.cursor ((s.beginLine.leaveStyle d).applyEnter what).cursor :=
    (reaches_leaveStyle d s).trans (reaches_applyEnter _ what)
  refine h.visits.notes_passChar h.inside inside' hentered (h.step_eq hw)
    ((lastVisible_applyEnter what).trans lastVisible_leaveStyle) ?_ ih
  intro r hr hlt hcounts hlast
  rcases Nat.lt_or_ge r p with hbefore | hle
  · exact h.unnoticed hr hbefore hcounts
  · exact absurd (h.countsAsCode_of_mark hw inside' hle hlt hcounts) hlast

/-- **All that counts behind the character that a scan has noted last has gone unnoticed**, by
    induction on its steps. -/
theorem Visits.notesLast (hv : Visits d (whole t) u)
    (inside : u.cursor.pos < u.cursor.window.stop) : u.NotesLast d t := by
  induction hv with
  | refl =>
    refine .inl ?_
    have hstart : (Window.ofBuffer (.ofText t) 0 t.length).start = 0 :=
      Window.start_ofBuffer (Nat.zero_le _)
    simp only [whole, Scan.ofWindow, hstart, operatorBefore?, Option.getD_none]
  | @step s hv hin ih =>
    by_cases hjoin : t.JoinsAt s.cursor.pos
    · exact hv.notesLast_of_joinsAt hin (ih hin) hjoin
    · have hover := hv.through.not_atContinuation hin hjoin
      cases hwhat : (s.beginLine.leaveStyle d).entering? d with
      | none => exact hv.notesLast_of_kept hin (ih hin) inside hover hwhat
      | some what =>
        have hbegins : s.Enters d t what (s.beginLine.leaveStyle d).cursor.pos :=
          ⟨hv, hin, hover, hwhat, rfl⟩
        by_cases hw : what = .directive
        · subst hw
          exact hbegins.notesLast_of_directive (ih hin)
        · exact hbegins.notesLast hw inside (ih hin)

end Scan

/-! ## Before a regular expression -/

/-- Of the characters up to `p`, of which one counts, one is the last that counts. -/
theorem exists_lastCode {t : Text} {styles : Array UInt8} {v p : Nat} (hlt : v < p)
    (hcounts : CountsAsCode t styles v) : ∃ q, v ≤ q ∧ LastCode t styles q p := by
  induction p with
  | zero => exact absurd hlt (Nat.not_lt_zero v)
  | succ p ih =>
    by_cases hp : CountsAsCode t styles p
    · refine ⟨p, Nat.le_of_lt_succ hlt, Nat.lt_succ_self p, hp, ?_⟩
      intro r hr hbefore
      omega
    · have hne : v ≠ p := by
        rintro rfl
        exact hp hcounts
      obtain ⟨q, hq, hlast⟩ := ih (by omega)
      refine ⟨q, hq, Nat.lt_succ_of_lt hlast.lt, hlast.counts, ?_⟩
      intro r hr hbefore
      rcases Nat.lt_or_eq_of_le (Nat.le_of_lt_succ hbefore) with hold | rfl
      · exact hlast.last r hr hold
      · exact hp

namespace Dialect

variable (d : Dialect) (t : Text)

/-- **A regular expression opens only behind a character that may stand before one.**  Such
    a character stands at some `v` before it, and all that counts between the two has been
    passed without a note.  So the last character before it that is neither white space nor
    in a comment is the one at `v`, or one of those passed without a note: behind a word or
    a number a slash divides. -/
theorem lexText_regex {s : Scan} {p : Nat} (h : s.Enters d t .regex p) :
    let styles := d.lexer.lexText t 0 t.length 0
    ∃ v q, LastNoted t styles v p ∧ permitsRegex (t.charAt v) = true ∧
      LastCode t styles q p ∧ (q = v ∨ Unnoticed t styles q) := by
  intro styles
  obtain ⟨-, hpermits⟩ := h.meets
  rw [Scan.lastVisible_leaveStyle] at hpermits
  rcases h.visits.notesLast h.inside with hblank | ⟨v, hnotes⟩
  · rw [hblank] at hpermits
    cases hpermits
  · have hle : s.cursor.pos ≤ p := h.pos_eq ▸ (Scan.reaches_leaveStyle d s).pos_le
    have hnoted : LastNoted t styles v p := by
      refine ⟨Nat.lt_of_lt_of_le hnotes.lt hle, hnotes.counts, fun r hr hlt hcounts => ?_⟩
      rcases Nat.lt_or_ge r s.cursor.pos with hpassed | hnew
      · exact hnotes.unnoticed r hr hpassed hcounts
      · exact h.unnoticed hnew hlt hcounts
    obtain ⟨q, hq, hlast⟩ := exists_lastCode hnoted.lt hnoted.counts
    refine ⟨v, q, hnoted, hnotes.ch_eq ▸ hpermits, hlast, ?_⟩
    rcases Nat.eq_or_lt_of_le hq with hsame | hbehind
    · exact .inl hsame.symm
    · exact .inr (hnoted.unnoticed q hbehind hlast.lt hlast.counts)

section Examples

/-- A regular expression behind an operator and a comment. -/
def assignedRegex : Text := .ofString "=/**/ /a/"

theorem lexText_regex_assigned :
    ((Scan.whole assignedRegex).runTo standard 6).Enters standard assignedRegex .regex 6 ∧
      ∃ v, LastNoted assignedRegex (standard.lexer.lexText assignedRegex 0 assignedRegex.length 0)
        v 6 ∧ permitsRegex (assignedRegex.charAt v) = true := by
  have hopens :
      ((Scan.whole assignedRegex).runTo standard 6).Enters standard assignedRegex .regex 6 :=
    ⟨.of_runTo standard 6 _, by decide +kernel, by decide +kernel, by decide +kernel,
      by decide +kernel⟩
  obtain ⟨v, -, hnoted, hpermits, -⟩ := lexText_regex standard assignedRegex hopens
  exact ⟨hopens, v, hnoted, hpermits⟩

/-- A string that is divided. -/
def dividedString : Text := .ofString "\"=\"/b"

/-- **A division behind a string is taken for a regular expression**: the quote that closes
    the string goes unnoticed, and what it holds may end in an operator. -/
theorem lexText_regex_behindString :
    ((Scan.whole dividedString).runTo standard 2).Enters standard dividedString .regex 3 ∧
      standard.lexer.lexText dividedString 0 dividedString.length 0 = #[6, 6, 6, 14, 14] ∧
      LastCode dividedString
        (standard.lexer.lexText dividedString 0 dividedString.length 0) 2 3 ∧
      permitsRegex (dividedString.charAt 2) = false := by
  have hstyles : standard.lexer.lexText dividedString 0 dividedString.length 0 =
      #[6, 6, 6, 14, 14] := by decide +kernel
  refine ⟨⟨.of_runTo standard 2 _, by decide +kernel, by decide +kernel, by decide +kernel,
    by decide +kernel⟩, hstyles, ⟨by decide, ⟨by decide +kernel, ?_⟩, by omega⟩, by decide +kernel⟩
  intro style hcomment hstyle
  rw [hstyles, show (#[6, 6, 6, 14, 14] : Array UInt8)[2]? = some Style.string.code from rfl,
    Option.some.injEq, Style.code_inj] at hstyle
  subst hstyle
  cases hcomment

end Examples

end Dialect

end StyledText.CFamily
