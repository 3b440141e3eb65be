/-
  Line comments and the lines that they reach.

  A line comment ends where the next line starts.  It goes over the start of a line in two
  ways only.  A line that begins with a backslash at its end is passed before the scan asks
  how the comment ends.  And a keyword of a documenting comment does not ask for the start
  of a line, so that what follows a keyword goes on with the comment.

  * `GoesOver` and `CommentFrom`: a line comment that has been opened at a place and
    reaches another one;
  * `leaving_of_isLineComment`: how a line comment ends or goes on;
  * `Visits.commentFrom`: what a scan shows behind it as a line comment goes back to its
    opening mark, by induction on the steps, together with the comment that a keyword
    stands in;
  * `Dialect.lexText_lineComment`: each character of a line comment;
  * `Dialect.lexText_lineComment_backslashLine`: a comment that reaches a line without a
    mark.
-/
import StyledText.Proofs.Passing
import StyledText.Proofs.QuotedLiterals

namespace StyledText.CFamily

/-- The styles of a line comment, documenting or not. -/
def Style.isLineComment : Style → Bool
  | lineComment | docLineComment => true
  | _ => false

@[simp] theorem Style.isLineComment_family (style : Style) :
    style.family.isLineComment = style.isLineComment := by
  cases style <;> rfl

theorem Style.isLineComment_iff {style : Style} :
    style.isLineComment = true ↔ style = .lineComment ∨ style = .docLineComment := by
  cases style <;> simp [isLineComment]

theorem Style.family_eq_docKeyword {style : Style} :
    style.family = .docKeyword ↔ style = .docKeyword ∨ style = .docKeywordError := by
  cases style <;> simp [family]

theorem Enter.eq_lineComment {what : Enter} (h : what.style.isLineComment = true) :
    ∃ doc, what = .lineComment doc := by
  cases what with
  | lineComment doc => exact ⟨doc, rfl⟩
  | blockComment doc => cases doc <;> cases h
  | literal l => cases l <;> cases h
  | _ => cases h

/-- **A line comment goes over the start `x` of a line** if the line begins with a backslash
    at its end, or if a keyword stands right before it. -/
def GoesOver (d : Dialect) (t : Text) (x : Nat) : Prop :=
  t.JoinsAt x ∨ (d.styleAt t (x - 1)).family = .docKeyword

/-- **A line comment that opens at `o` reaches all before `e`.** -/
structure CommentFrom (d : Dialect) (t : Text) (o e : Nat) : Prop where
  mark : t.charAt o = '/' ∧ t.charAt (o + 1) = '/'
  goesOver : ∀ x, o < x → x < e → t.isLineStart x = true → GoesOver d t x

/-- A comment reaches further where it goes over the starts of lines. -/
theorem CommentFrom.extend {d : Dialect} {t : Text} {o e e' : Nat} (h : CommentFrom d t o e)
    (hnew : ∀ x, e ≤ x → x < e' → t.isLineStart x = true → GoesOver d t x) :
    CommentFrom d t o e' where
  mark := h.mark
  goesOver := by
    intro x ho hx hstart
    rcases Nat.lt_or_ge x e with hold | hbeyond
    · exact h.goesOver x ho hold hstart
    · exact hnew x hbeyond hx hstart

namespace Scan

variable {d : Dialect} {t : Text} {s u : Scan} {style : Style} {o p q : Nat}

/-! ## How a line comment ends -/

/-- **A line comment ends at the start of a line.**  Elsewhere it goes on, or a keyword
    begins in it. -/
theorem leaving_of_isLineComment (hs : s.style.isLineComment = true) :
    s.leaving d = .switch .plain ∨
      s.cursor.atLineStart = false ∧
        (s.leaving d = .stay ∨ s.style = .docLineComment ∧ s.leaving d = .openDocKeyword) := by
  have hline : s.cursor.surroundings.atLineStart = s.cursor.atLineStart := rfl
  rcases Style.isLineComment_iff.1 hs with hs | hs
  · rw [leaving, hs, leave, hline]
    cases s.cursor.atLineStart <;> simp
  · rw [leaving, hs, leave, hline]
    cases s.cursor.atLineStart with
    | true => simp
    | false =>
      cases beginsDocKeyword s.cursor.surroundings ['/', '!'] <;> simp

theorem cursor_beginLine_of_isLineComment (hs : s.style.isLineComment = true) :
    s.beginLine.cursor = s.cursor := by
  refine cursor_beginLine ?_ ?_ <;>
    rcases Style.isLineComment_iff.1 hs with hs | hs <;> rw [hs] <;> decide

/-- No character is passed when a line comment is left. -/
theorem pos_leaveStyle_of_isLineComment (hs : s.style.isLineComment = true) :
    (s.leaveStyle d).cursor.pos = s.cursor.pos := by
  rcases leaving_of_isLineComment (d := d) hs with hhow | ⟨-, hhow | ⟨-, hhow⟩⟩ <;>
    rw [leaveStyle, hhow] <;> rfl

/-- **A scan is in a line comment when a style has been left only if it was so before, or if
    a keyword of the comment has ended.** -/
theorem isLineComment_leaveStyle (hm : s.memory.Sane)
    (hs : (s.leaveStyle d).style.isLineComment = true) :
    s.style.isLineComment = true ∧ s.cursor.atLineStart = false ∨
      s.style = .docKeyword ∧ s.memory.docStyle = .docLineComment ∧
        (s.leaveStyle d).cursor.pos = s.cursor.pos := by
  rcases style_leaveStyle_cases (d := d) hm with ⟨h, hhow⟩ | h | ⟨h, -⟩ | ⟨h, -⟩ | ⟨h, hhow⟩ |
    ⟨l, h, -⟩ | ⟨h, -⟩ <;> rw [h] at hs
  · refine .inl ⟨hs, ?_⟩
    rcases leaving_of_isLineComment (d := d) hs with hends | ⟨hline, -⟩
    · rw [hends] at hhow
      rcases hhow with hhow | hhow <;> cases hhow
    · exact hline
  · cases hs
  · cases hs
  · cases hs
  · have hf : (s.leaving d).Fits s.style s.cursor.surroundings := leave_fits hm
    rw [hhow] at hf
    refine .inr ⟨hf, ?_, ?_⟩
    · rcases hm.docStyle with hd | hd
      · rw [hd] at hs
        cases hs
      · exact hd
    · rw [leaveStyle, hhow, applyLeave, cursor_closeDocKeyword]
      rfl
  · cases l <;> cases hs
  · cases hs

/-! ## What is remembered of a comment with a keyword -/

theorem docStyle_applyLeave {how : Leave} (hw : how ≠ .openDocKeyword) :
    (s.applyLeave d style how).memory.docStyle = s.memory.docStyle := by
  cases how with
  | openDocKeyword => exact absurd rfl hw
  | endWord =>
    rw [applyLeave, endWord]
    split <;> split <;> rfl
  | closeDocKeyword =>
    rw [applyLeave, closeDocKeyword]
    split <;> rfl
  | closeLiteral =>
    rw [applyLeave, closeLiteral]
    dsimp only
    split <;> rfl
  | _ => rfl

theorem docStyle_enterAndPass : (s.enterAndPass d).memory.docStyle = s.memory.docStyle := by
  cases hwhat : s.entering? d with
  | none => rw [enterAndPass_of_none hwhat, docStyle_passChar]
  | some what =>
    by_cases hw : what = .directive
    · subst hw
      rw [enterAndPass_of_directive hwhat, openDirective_eq]
      split
      · rfl
      · split <;> rfl
    · rw [enterAndPass_of_some hwhat hw, docStyle_passChar]
      cases what with
      | literal l => cases l <;> rfl
      | directive => exact absurd rfl hw
      | _ => rfl

/-- Within a keyword the style of the comment around it stays. -/
theorem docStyle_step (hm : s.Tidy) (hs : s.style = .docKeyword) :
    (s.step d).memory.docStyle = s.memory.docStyle := by
  cases hover : s.beginLine.atContinuation with
  | true => rw [step, if_pos hover, docStyle_passContinuation, docStyle_beginLine]
  | false =>
    have hf : (s.beginLine.leaving d).Fits s.beginLine.style s.beginLine.cursor.surroundings :=
      leave_fits hm.beginLine.sane
    have hhow : s.beginLine.leaving d ≠ .openDocKeyword := by
      intro hhow
      rw [hhow, style_beginLine, hs] at hf
      rcases hf.1 with h | h <;> cases h
    rw [step_of_not_atContinuation hover, docStyle_enterAndPass, leaveStyle,
      docStyle_applyLeave hhow, docStyle_beginLine]

/-! ## Back to the opening mark -/

theorem Enters.lineComment_mark {doc : Bool} (h : s.Enters d t (.lineComment doc) p) :
    t.charAt p = '/' ∧ t.charAt (p + 1) = '/' := by
  have hleft := h.through_left
  have inside := pos_lt_of_entering? h.entering?_eq
  have hmark : (s.beginLine.leaveStyle d).cursor.ch = '/' ∧
      (s.beginLine.leaveStyle d).cursor.next = '/' := h.meets
  rwa [hleft.ch_eq_iff inside (by decide) (by decide),
    hleft.next_eq_iff inside (by decide) (by decide), h.pos_eq] at hmark

namespace Visits

/-- A comment goes over each start of a line that a keyword in it stands right before. -/
theorem goesOver (hv : Visits d (whole t) u) (hs : u.style = .docKeyword) {x : Nat}
    (hb : u.cursor.window.boundary < x) (hx : x ≤ u.cursor.pos) : GoesOver d t x := by
  refine .inr ?_
  rw [hv.family_eq (by omega), Cursor.shown_of_boundary_le (by omega)]
  show u.style.family = .docKeyword
  rw [hs]
  rfl

theorem isLineStart_eq_false (hv : Visits d (whole t) u)
    (inside : u.cursor.pos < u.cursor.window.stop) (hs : u.style.isLineComment = true)
    (hline : u.cursor.atLineStart = false) : t.isLineStart u.cursor.pos = false := by
  have hplain : u.style ≠ .plain := by
    rcases Style.isLineComment_iff.1 hs with h | h <;> rw [h] <;> decide
  rw [← hv.through.atLineStart_eq_isLineStart (hv.family_before inside hplain).1 inside, hline]

/-- **What a scan shows behind it as a line comment goes back to an opening mark**, and so
    does a keyword that is open in such a comment. -/
theorem commentFrom (hv : Visits d (whole t) u) :
    (∀ q < u.cursor.pos, (d.styleAt t q).isLineComment = true →
      ∃ o ≤ q, CommentFrom d t o (q + 1)) ∧
    (u.style = .docKeyword → u.memory.docStyle = .docLineComment →
      ∃ o < u.cursor.window.boundary, CommentFrom d t o (u.cursor.window.boundary + 1)) := by
  induction hv with
  | refl =>
    refine ⟨fun q hlt => ?_, fun hs => ?_⟩
    · rw [pos_whole] at hlt
      exact absurd hlt (Nat.not_lt_zero q)
    · exact nomatch (Style.ofCode_code .plain).symm.trans hs
  | @step s hv inside ih =>
    obtain ⟨hshown, hkeyword⟩ := ih
    have h := hv.through
    -- A comment that is open has been shown by the character before the cursor.
    have hopen (hs : s.style.isLineComment = true) :
        ∃ o < s.cursor.pos, CommentFrom d t o s.cursor.pos := by
      have hplain : s.style ≠ .plain := by
        rcases Style.isLineComment_iff.1 hs with h | h <;> rw [h] <;> decide
      obtain ⟨hpos, hlast⟩ := hv.family_before inside hplain
      rw [← Style.isLineComment_family, ← hlast, Style.isLineComment_family] at hs
      obtain ⟨o, ho, hcomment⟩ := hshown _ (by omega) hs
      rw [Nat.sub_add_cancel hpos] at hcomment
      exact ⟨o, by omega, hcomment⟩
    constructor
    · intro q hlt hq
      rcases Nat.lt_or_ge q s.cursor.pos with hbefore | hle
      · exact hshown q hbefore hq
      obtain ⟨style, hpasses, hfamily⟩ := hv.exists_passes inside hle hlt
      have hstyle : style.isLineComment = true := by
        rw [← Style.isLineComment_family, ← hfamily, Style.isLineComment_family, hq]
      cases hpasses with
      | joined hjoin hend =>
        obtain ⟨o, ho, hcomment⟩ := hopen hstyle
        refine ⟨o, by omega, hcomment.extend ?_⟩
        intro x hx hxq hstart
        rcases Nat.eq_or_lt_of_le hx with rfl | hbehind
        · exact .inl hjoin
        · rw [hjoin.isLineStart_eq hbehind (by omega)] at hstart
          exact nomatch hstart
      | left hover hend =>
        rw [pos_leaveStyle_of_isLineComment (by rwa [style_beginLine]), pos_beginLine] at hend
        exact absurd hend (Nat.not_lt.2 hle)
      | kept hover hnone hpos =>
        rcases isLineComment_leaveStyle h.beginLine.tidy.sane hstyle with
          ⟨hs, hline⟩ | ⟨hs, hd, hsame⟩
        · have hs' : s.style.isLineComment = true := by rwa [style_beginLine] at hs
          rw [pos_leaveStyle_of_isLineComment hs, pos_beginLine] at hpos
          rw [cursor_beginLine_of_isLineComment hs'] at hline
          obtain ⟨o, ho, hcomment⟩ := hopen hs'
          refine ⟨o, by omega, hcomment.extend ?_⟩
          intro x hx hxq hstart
          obtain rfl : x = s.cursor.pos := by omega
          rw [hv.isLineStart_eq_false inside hs' hline] at hstart
          exact nomatch hstart
        · rw [style_beginLine] at hs
          rw [docStyle_beginLine] at hd
          rw [hsame, pos_beginLine] at hpos
          obtain ⟨o, ho, hcomment⟩ := hkeyword hs hd
          have hle' := h.covers.boundary_le
          exact ⟨o, by omega, hcomment.extend fun x hx hxq _ =>
            hv.goesOver hs (by omega) (by omega)⟩
      | entered h hle' =>
        obtain ⟨doc, rfl⟩ := Enter.eq_lineComment hstyle
        have hstop := h.pos_step_le (by simp) rfl
        obtain rfl : q = _ := Nat.le_antisymm (by omega) hle'
        exact ⟨q, Nat.le_refl q, h.lineComment_mark, fun x hx hxq => by omega⟩
    · intro hs hd
      rcases within_of_step h.tidy h.covers rfl ⟨hs, rfl⟩ with hwithin | hbegins
      · rw [docStyle_step h.tidy hwithin.style_eq] at hd
        obtain ⟨o, ho, hcomment⟩ := hkeyword hwithin.style_eq hd
        rw [hwithin.boundary_eq] at ho hcomment
        exact ⟨o, ho, hcomment⟩
      · have hs' : s.style.isLineComment = true := by
          rw [← hbegins.docStyle_eq, hd]
          rfl
        cases hbegins with
        | docKeyword hpos hover hhow =>
          have hline : s.cursor.atLineStart = false := by
            have hbegin : s.beginLine.style.isLineComment = true := by rwa [style_beginLine]
            rcases leaving_of_isLineComment (d := d) hbegin with hends | ⟨hline, -⟩
            · rw [hends] at hhow
              cases hhow
            · rwa [cursor_beginLine_of_isLineComment hs'] at hline
          obtain ⟨o, ho, hcomment⟩ := hopen hs'
          rw [← hpos]
          refine ⟨o, ho, hcomment.extend ?_⟩
          intro x hx hxq hstart
          obtain rfl : x = s.cursor.pos := by omega
          rw [hv.isLineStart_eq_false inside hs' hline] at hstart
          exact nomatch hstart

end Visits

end Scan

namespace Dialect

/-- **Each character of a line comment goes back to an opening mark.**  Between the mark and
    the character, a line starts only where the comment goes over its start: the line is
    nothing but a backslash and a line end, or a keyword of the comment stands before
    it. -/
theorem lexText_lineComment (d : Dialect) (t : Text) {q : Nat}
    (hq : (d.lexer.lexText t 0 t.length 0)[q]? = some Style.lineComment.code ∨
      (d.lexer.lexText t 0 t.length 0)[q]? = some Style.docLineComment.code) :
    let styles := d.lexer.lexText t 0 t.length 0
    ∃ o ≤ q, (t.charAt o = '/' ∧ t.charAt (o + 1) = '/') ∧
      ∀ x, o < x → x ≤ q → t.isLineStart x = true →
        t.JoinsAt x ∨ styles[x - 1]? = some Style.docKeyword.code ∨
          styles[x - 1]? = some Style.docKeywordError.code := by
  intro styles
  obtain ⟨hlt, hstyle⟩ : q < t.length ∧ (d.styleAt t q).isLineComment = true := by
    rcases hq with hq | hq <;> obtain ⟨hlt, hq⟩ := getElem?_lexText_iff.1 hq <;>
      exact ⟨hlt, by rw [hq]; rfl⟩
  have hv : Scan.Visits d (Scan.whole t) ((Scan.whole t).run d) := .of_run d _
  obtain ⟨o, ho, hmark, hover⟩ := hv.commentFrom.1 q (Scan.lt_pos_run hlt) hstyle
  refine ⟨o, ho, hmark, ?_⟩
  intro x hx hxq hstart
  refine (hover x hx (Nat.lt_succ_of_le hxq) hstart).imp_right ?_
  intro hkeyword
  have hcode : styles[x - 1]? = some (d.styleAt t (x - 1)).code :=
    getElem?_lexText_eq (by omega)
  rw [hcode]
  rcases Style.family_eq_docKeyword.1 hkeyword with h | h <;> rw [h] <;> simp

section Examples

/-- A line comment, and a line of a backslash alone behind it. -/
def commentedBackslash : Text := .ofString "//a\n\\\nb"

theorem lexText_lineComment_commentedBackslash :
    (standard.lexer.lexText commentedBackslash 0 commentedBackslash.length 0)[5]? =
        some Style.lineComment.code ∧
      ∃ o ≤ 5, commentedBackslash.charAt o = '/' ∧ commentedBackslash.charAt (o + 1) = '/' := by
  have hshown : (standard.lexer.lexText commentedBackslash 0 commentedBackslash.length 0)[5]? =
      some Style.lineComment.code := by decide +kernel
  obtain ⟨o, ho, hmark, -⟩ := lexText_lineComment standard commentedBackslash (.inl hshown)
  exact ⟨hshown, o, ho, hmark⟩

/-- **The line of the backslash has no mark, and is styled as a comment.** -/
theorem lexText_lineComment_backslashLine :
    standard.lexer.lexText commentedBackslash 0 commentedBackslash.length 0 =
        #[2, 2, 2, 2, 2, 2, 11] ∧
      commentedBackslash.isLineStart 4 = true ∧ commentedBackslash.charAt 4 ≠ '/' := by
  refine ⟨by decide +kernel, by decide, by decide⟩

-- Behind a keyword that goes over a line end, the comment goes on.
example : standard.lexer.lexText (.ofString "/// @a\\\nb c") 0 11 0 =
    #[15, 15, 15, 15, 18, 18, 18, 18, 18, 15, 15] := by decide +kernel

end Examples

end Dialect

end StyledText.CFamily
