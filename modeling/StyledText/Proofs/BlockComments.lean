/-
  Block comments and where they end.

  A block comment ends with the first star behind its opening mark that has a slash
  behind it, whatever else stands in it: keywords of a documenting comment end there at
  the latest, and no backslash takes the star away.  Without such a star, the comment goes
  on to the end of the text.

  * `Text.ClosesComment`: a star with a slash behind it;
  * `InComment`: a scan in a comment, which is in styles of comments up to it;
    `InComment.step`, that a step goes on with the comment where it is not closed, and
    `InComment.leaveStyle_of_closes`, that the comment is left where it is;
  * `InComment.visits`: so the scan comes to the first place where it is closed;
  * `Dialect.lexText_blockComment`: from its opening mark to its closing one, and no
    further, a comment has styles of comments.
-/
import StyledText.Proofs.Lasting

namespace StyledText

namespace Text

variable {t : Text} {k q : Nat}

/-- A block comment is closed at `q` if it is open there. -/
def ClosesComment (t : Text) (q : Nat) : Prop := t.charAt q = '*' ∧ t.charAt (q + 1) = '/'

instance (t : Text) (q : Nat) : Decidable (t.ClosesComment q) :=
  inferInstanceAs (Decidable (_ ∧ _))

theorem lt_length_of_charAt_ne (h : t.charAt q ≠ nul) : q < t.length := by
  by_contra hge
  exact h (charAt_of_length_le (Nat.le_of_not_lt hge))

theorem ClosesComment.lt_length (h : t.ClosesComment q) : q + 1 < t.length :=
  lt_length_of_charAt_ne (by rw [h.2]; decide)

/-- A line end that is joined ends before any other character. -/
theorem JoinsAt.behindJoin_le (h : t.JoinsAt k) (hk : k < q)
    (hq : isLineBreak (t.charAt q) = false) : t.behindJoin k ≤ q := by
  have hne {r : Nat} (hr : isLineBreak (t.charAt r) = true) : q ≠ r := by
    rintro rfl
    rw [hr] at hq
    exact nomatch hq
  have hfirst := hne h.2
  rcases t.behindJoin_cases k with ⟨hp, -, hlf⟩ | ⟨hp, -⟩
  · have hsecond := hne (r := k + 2) (by rw [hlf]; rfl)
    omega
  · omega

end Text

theorem Cursor.pos_advance_advance {c : Cursor} (inside : c.pos + 1 < c.window.stop) :
    c.advance.advance.pos = c.pos + 2 := by
  rw [pos_advance, pos_advance, window_advance, if_pos (Nat.lt_of_succ_lt inside), if_pos inside]

namespace CFamily

/-- The styles of a block comment, documenting or not. -/
def commentStyles (doc : Bool) : List Style :=
  if doc then [.docComment, .docKeyword, .docKeywordError] else [.blockComment]

namespace Scan

variable {d : Dialect} {t : Text} {s u : Scan} {doc : Bool} {p q : Nat}

theorem Through.closesComment_iff (h : Through t s)
    (inside : s.cursor.pos < s.cursor.window.stop) :
    closesComment s.cursor.surroundings = true ↔ t.ClosesComment s.cursor.pos := by
  rw [CFamily.closesComment_iff, Text.ClosesComment]
  exact and_congr (h.ch_eq_iff inside (by decide) (by decide))
    (h.next_eq_iff inside (by decide) (by decide))

/-! ## Scans in a comment -/

/-- **The scan is in a block comment that has been opened at `p`**, be it in its own style or
    in that of a keyword in it. -/
structure InComment (doc : Bool) (p : Nat) (s : Scan) : Prop where
  stretch : Stretch (commentStyles doc) p s.cursor
  style_eq : s.style = (Enter.blockComment doc).style ∨
    doc = true ∧ s.style = .docKeyword ∧ s.memory.docStyle = .docComment

namespace InComment

variable (h : s.InComment doc p)

include h

theorem style_cases : s.style = .blockComment ∨ s.style = .docComment ∨ s.style = .docKeyword := by
  rcases h.style_eq with hs | ⟨-, hs, -⟩
  · cases doc with
    | false => exact .inl hs
    | true => exact .inr (.inl hs)
  · exact .inr (.inr hs)

theorem style_ne_plain : s.style ≠ .plain := by
  rcases h.style_cases with hs | hs | hs <;> rw [hs] <;> decide

/-- A move within the comment. -/
theorem move (hu : Stretch (commentStyles doc) p u.cursor) (hs : u.style = s.style)
    (hd : u.memory.docStyle = s.memory.docStyle) : u.InComment doc p := by
  refine ⟨hu, ?_⟩
  rw [hs, hd]
  exact h.style_eq

theorem beginLine : s.beginLine.InComment doc p := by
  have hcursor : s.beginLine.cursor = s.cursor := by
    refine cursor_beginLine ?_ ?_ <;>
      rcases h.style_cases with hs | hs | hs <;> rw [hs] <;> decide
  exact h.move (hcursor ▸ h.stretch) style_beginLine docStyle_beginLine

theorem passChar : s.passChar.InComment doc p := by
  refine h.move ?_ style_passChar docStyle_passChar
  rw [cursor_passChar]
  exact h.stretch.advance

theorem passContinuation : s.passContinuation.InComment doc p := by
  refine h.move ?_ style_passContinuation docStyle_passContinuation
  unfold Scan.passContinuation
  dsimp only
  split
  · exact h.stretch.advance.advance.advance
  · exact h.stretch.advance.advance

/-- A keyword that ends goes back to its comment. -/
theorem closeDocKeyword (hs : s.style = .docKeyword) :
    (s.closeDocKeyword d).InComment doc p ∧
      (s.closeDocKeyword d).cursor.pos = s.cursor.pos := by
  obtain ⟨rfl, hd⟩ : doc = true ∧ s.memory.docStyle = .docComment := by
    rcases h.style_eq with hs' | ⟨hdoc, -, hd⟩
    · cases doc <;> exact nomatch hs.symm.trans hs'
    · exact ⟨hdoc, hd⟩
  have hmem : Style.docComment ∈ commentStyles true := by decide
  unfold Scan.closeDocKeyword
  dsimp only
  rw [hd]
  split
  · exact ⟨⟨h.stretch.switchTo hmem, .inl style_switchTo⟩, rfl⟩
  · have hunknown : Stretch (commentStyles true) p (s.recolour .docKeywordError).cursor :=
      h.stretch.recolour (by decide)
    exact ⟨⟨hunknown.switchTo hmem, .inl style_switchTo⟩, rfl⟩

/-- **A comment that is not closed goes on**, in its own style or in that of a keyword. -/
theorem leaveStyle (hclose : closesComment s.cursor.surroundings = false) :
    (s.leaveStyle d).InComment doc p ∧ (s.leaveStyle d).cursor.pos = s.cursor.pos := by
  have hstay (hhow : s.leaving d = .stay) : (s.leaveStyle d).InComment doc p ∧
      (s.leaveStyle d).cursor.pos = s.cursor.pos := by
    rw [leaveStyle_of_stay hhow]
    exact ⟨h, rfl⟩
  rcases h.style_eq with hs | ⟨rfl, hs, hd⟩
  · cases doc with
    | false =>
      have hs : s.style = .blockComment := hs
      exact hstay (by rw [leaving, hs, leave, hclose]; rfl)
    | true =>
      have hs : s.style = .docComment := hs
      cases hbegins : beginsDocKeyword s.cursor.surroundings ['*'] with
      | false => exact hstay (by rw [leaving, hs, leave, hclose, hbegins]; rfl)
      | true =>
        have hhow : s.leaving d = .openDocKeyword := by
          rw [leaving, hs, leave, hclose, hbegins]
          rfl
        have hopened : Stretch (commentStyles true) p (s.switchTo .docKeyword).cursor :=
          h.stretch.switchTo (by decide)
        rw [leaveStyle_of_openDocKeyword hhow]
        exact ⟨⟨hopened, .inr ⟨rfl, style_switchTo, hs⟩⟩, rfl⟩
  · cases hletter : isSmallLetter s.cursor.surroundings.ch with
    | true => exact hstay (by rw [leaving, hs, leave, hclose, hletter]; simp)
    | false =>
      have hhow : s.leaving d = .closeDocKeyword := by
        rw [leaving, hs, leave, hclose, hletter]
        simp
      rw [Scan.leaveStyle, hhow]
      exact h.closeDocKeyword hs

/-- **A comment is left behind its closing mark**, in plain text. -/
theorem leaveStyle_of_closes (hclose : closesComment s.cursor.surroundings = true)
    (inside : s.cursor.pos + 1 < s.cursor.window.stop) :
    (s.leaveStyle d).style = .plain ∧ (s.leaveStyle d).cursor.pos = s.cursor.pos + 2 ∧
      AllIn (commentStyles doc) p (s.cursor.pos + 2) (s.leaveStyle d).cursor.window := by
  rcases h.style_eq with hs | ⟨rfl, hs, hd⟩
  · have hhow : s.leaving d = .switchAfterPair .plain := by
      cases doc <;> rw [leaving, hs] <;> exact if_pos hclose
    have hpos : s.cursor.advance.advance.pos = s.cursor.pos + 2 :=
      Cursor.pos_advance_advance inside
    rw [Scan.leaveStyle, hhow, ← hpos]
    exact ⟨style_switchTo, rfl, h.stretch.advance.advance.close .plain⟩
  · -- The mark is styled together with the keyword before it.
    have hhow : s.leaving d = .breakDocKeyword := by
      rw [leaving, hs]
      exact if_pos ⟨hd, hclose⟩
    have hbroken : Stretch (commentStyles true) p (s.recolour .docKeywordError).cursor :=
      h.stretch.recolour (by decide)
    have hpos : (s.recolour .docKeywordError).cursor.advance.advance.pos = s.cursor.pos + 2 :=
      Cursor.pos_advance_advance inside
    rw [Scan.leaveStyle, hhow, ← hpos]
    exact ⟨style_switchTo, rfl, hbroken.advance.advance.close .plain⟩

/-! ## Steps and runs -/

/-- **A step in a comment goes on with it where it is not closed.** -/
theorem step (ht : Through t s) (inside : s.cursor.pos < s.cursor.window.stop)
    (hnot : ¬ t.ClosesComment s.cursor.pos) :
    (s.step d).InComment doc p ∧
      (t.JoinsAt s.cursor.pos ∧ (s.step d).cursor.pos = t.behindJoin s.cursor.pos ∨
        (s.step d).cursor.pos = s.cursor.pos + 1) := by
  have hbegin := h.beginLine
  have hthrough := ht.beginLine
  have inside' : s.beginLine.cursor.pos < s.beginLine.cursor.window.stop := by
    rw [pos_beginLine, hthrough.stop_eq, ← ht.stop_eq]
    exact inside
  by_cases hjoin : t.JoinsAt s.cursor.pos
  · rw [ht.step_of_joinsAt inside hjoin]
    refine ⟨hbegin.passContinuation, .inl ⟨hjoin, ?_⟩⟩
    rw [hthrough.pos_passContinuation (by rwa [pos_beginLine]), pos_beginLine]
  · have hopen : closesComment s.beginLine.cursor.surroundings = false := by
      rw [← Bool.not_eq_true, hthrough.closesComment_iff inside', pos_beginLine]
      exact hnot
    obtain ⟨hleft, hpos⟩ := hbegin.leaveStyle (d := d) hopen
    rw [ht.step_of_not_joinsAt inside hjoin,
      enterAndPass_of_none (entering?_of_style_ne hleft.style_ne_plain)]
    refine ⟨hleft.passChar, .inr ?_⟩
    rw [cursor_passChar, Cursor.pos_advance, hpos, pos_beginLine, if_pos]
    rw [(reaches_leaveStyle d s).stop_eq]
    exact inside

/-- **A scan in a comment comes to the first place where it is closed**, and to the end of
    the text if there is none. -/
theorem runTo (ht : Through t s) (hle : s.cursor.pos ≤ q) (hq : q ≤ t.length)
    (hclear : isLineBreak (t.charAt q) = false)
    (hnot : ∀ r, s.cursor.pos ≤ r → r < q → ¬ t.ClosesComment r) :
    (s.runTo d q).InComment doc p ∧ (s.runTo d q).cursor.pos = q := by
  fun_induction Scan.runTo d q s with
  | case1 s inside ih =>
    obtain ⟨hstep, hmoved⟩ :=
      h.step (d := d) ht inside.2 (hnot _ (Nat.le_refl _) inside.1)
    have hle' : (s.step d).cursor.pos ≤ q := by
      rcases hmoved with ⟨hjoin, hpos⟩ | hpos
      · rw [hpos]
        exact hjoin.behindJoin_le inside.1 hclear
      · rw [hpos]
        exact inside.1
    have hlt := pos_lt_step d inside.2
    exact ih hstep (ht.step inside.2) hle' fun r hr => hnot r (by omega)
  | case2 s outside =>
    rw [ht.stop_eq] at outside
    exact ⟨h, by omega⟩

/-- A keyword at the end of the text is closed there. -/
theorem closeWord (hm : s.memory.Sane) : (s.closeWord d).InComment doc p ∧
    (s.closeWord d).cursor.pos = s.cursor.pos := by
  have hf : (s.leaving d).Fits s.style s.cursor.surroundings := leave_fits hm
  unfold Scan.closeWord
  split
  · rename_i hhow
    rw [hhow] at hf
    rcases h.style_cases with hs | hs | hs <;> exact nomatch hs.symm.trans hf
  · rename_i hhow
    rw [hhow] at hf
    exact h.closeDocKeyword hf
  · exact ⟨h, rfl⟩

/-- **A comment that is open at the end of the text has been one to its end.** -/
theorem complete (hm : s.memory.Sane) (outside : ¬ s.cursor.pos < s.cursor.window.stop) :
    AllIn (commentStyles doc) p s.cursor.pos (s.complete d).cursor.window := by
  obtain ⟨hclosed, hpos⟩ := h.closeWord (d := d) hm
  rw [Scan.complete, run_of_outside outside, ← hpos]
  exact hclosed.stretch.close .plain

end InComment

/-- **The step that opens a comment passes both characters of its mark.** -/
theorem Enters.inComment (h : s.Enters d t (.blockComment doc) p) :
    (s.step d).InComment doc p ∧ (s.step d).cursor.pos = p + 2 := by
  have hw : Enter.blockComment doc ≠ .directive := Enter.noConfusion
  have hstyle := h.style_step hw
  refine ⟨⟨.of_boundary (h.through.step h.inside).covers ?_ (h.boundary_step hw), .inl hstyle⟩, ?_⟩
  · show (s.step d).style ∈ commentStyles doc
    rw [hstyle]
    cases doc <;> decide
  · have hleft := h.through_left
    have inside := pos_lt_of_entering? h.entering?_eq
    have hentering := h.entering?_eq
    unfold entering? at hentering
    split at hentering
    · have hnext : t.charAt (p + 1) = '*' := by
        rw [← h.pos_eq, ← hleft.next_eq_iff inside (by decide) (by decide)]
        exact (enter?_meets hentering).2
      have hlt : p + 1 < t.length := Text.lt_length_of_charAt_ne (by rw [hnext]; decide)
      rw [h.step_eq hw, cursor_passChar]
      show ((s.beginLine.leaveStyle d).cursor.switchTo _).advance.advance.pos = _
      rw [Cursor.pos_advance_advance, Cursor.pos_switchTo, h.pos_eq]
      rwa [Cursor.pos_switchTo, Cursor.stop_switchTo, h.pos_eq, hleft.stop_eq]
    · cases hentering

/-- **A scan of the whole of `t`, whose next step leaves a style for plain text at `p`.** -/
structure Leaves (d : Dialect) (t : Text) (p : Nat) (s : Scan) : Prop where
  visits : Visits d (whole t) s
  inside : s.cursor.pos < s.cursor.window.stop
  hover : s.beginLine.atContinuation = false
  style_ne : s.style ≠ .plain
  style_eq : (s.beginLine.leaveStyle d).style = .plain
  pos_eq : (s.beginLine.leaveStyle d).cursor.pos = p

/-- What has been committed when the style is left is a style of the text. -/
theorem Leaves.getElem?_lexText (h : s.Leaves d t p) {code : UInt8}
    (hq : (s.beginLine.leaveStyle d).cursor.window.committed? q = some code) :
    (d.lexer.lexText t 0 t.length 0)[q]? = some code := by
  rw [h.visits.getElem?_lexText, complete_step h.inside, step_of_not_atContinuation h.hover]
  exact committed?_complete (reaches_enterAndPass d _) hq

/-- A scan leaves a comment where it is closed. -/
theorem InComment.leaves (h : s.InComment doc p) (hv : Visits d (whole t) s)
    (hclose : t.ClosesComment s.cursor.pos) :
    s.Leaves d t (s.cursor.pos + 2) ∧
      AllIn (commentStyles doc) p (s.cursor.pos + 2)
        (s.beginLine.leaveStyle d).cursor.window := by
  have hthrough := hv.through
  have inside : s.cursor.pos + 1 < s.cursor.window.stop :=
    hthrough.stop_eq ▸ hclose.lt_length
  have hbegin := hthrough.beginLine
  have hstop : s.beginLine.cursor.window.stop = s.cursor.window.stop :=
    (reaches_beginLine s).stop_eq
  have inside' : s.beginLine.cursor.pos + 1 < s.beginLine.cursor.window.stop := by
    rwa [pos_beginLine, hstop]
  have hcloses : closesComment s.beginLine.cursor.surroundings = true := by
    rw [hbegin.closesComment_iff (Nat.lt_of_succ_lt inside'), pos_beginLine]
    exact hclose
  obtain ⟨hplain, hpos, hall⟩ := h.beginLine.leaveStyle_of_closes (d := d) hcloses inside'
  rw [pos_beginLine] at hpos hall
  refine ⟨⟨hv, Nat.lt_of_succ_lt inside, ?_, ?_, hplain, hpos⟩, hall⟩
  · rw [atContinuation_beginLine, ← Bool.not_eq_true,
      hthrough.atContinuation_iff (Nat.lt_of_succ_lt inside)]
    rintro ⟨hmark, -⟩
    exact nomatch hmark.symm.trans hclose.1
  · exact h.style_ne_plain

end Scan

namespace Dialect

/-- **A block comment ends with the first star that has a slash behind it.**  Let a scan of
    the whole text open a comment at `p`, and look for the star behind the opening mark.
    From `p` up to that slash, all is in styles of comments, and there the scan goes back
    to plain text.  If there is no such star, all is so up to the end of the text. -/
theorem lexText_blockComment (d : Dialect) (t : Text) {s : Scan} {doc : Bool} {p : Nat}
    (h : s.Enters d t (.blockComment doc) p) :
    let styles := d.lexer.lexText t 0 t.length 0
    (∀ q, p + 2 ≤ q → t.ClosesComment q → (∀ r, p + 2 ≤ r → r < q → ¬ t.ClosesComment r) →
      (∀ r, p ≤ r → r ≤ q + 1 → ∃ style ∈ commentStyles doc, styles[r]? = some style.code) ∧
        ∃ u : Scan, Scan.Visits d (s.step d) u ∧ u.Leaves d t (q + 2)) ∧
    ((∀ q, p + 2 ≤ q → ¬ t.ClosesComment q) →
      ∀ r, p ≤ r → r < t.length →
        ∃ style ∈ commentStyles doc, styles[r]? = some style.code) := by
  intro styles
  obtain ⟨hopened, hpos⟩ := h.inComment
  have hv : Scan.Visits d (Scan.whole t) (s.step d) := h.visits.step h.inside
  constructor
  · intro q hq hclose hnot
    rw [← hpos] at hq hnot
    have hlt : q < t.length := Nat.lt_of_succ_lt hclose.lt_length
    have hclear : isLineBreak (t.charAt q) = false := by
      rw [hclose.1]
      rfl
    obtain ⟨hin, hlast⟩ := hopened.runTo (d := d) hv.through hq (Nat.le_of_lt hlt) hclear hnot
    have hu : Scan.Visits d (s.step d) ((s.step d).runTo d q) := .of_runTo d q _
    rw [← hlast] at hclose
    obtain ⟨hleaves, hall⟩ := hin.leaves (hv.trans hu) hclose
    rw [hlast] at hleaves hall
    refine ⟨fun r hr hle => ?_, _, hu, hleaves⟩
    obtain ⟨style, hmem, hcode⟩ := hall r hr (Nat.lt_succ_of_le hle)
    exact ⟨style, hmem, hleaves.getElem?_lexText hcode⟩
  · intro hnone r hr hlt
    have hle : (s.step d).cursor.pos ≤ t.length := hv.through.stop_eq ▸ hv.through.covers.pos_le
    have hclear : isLineBreak (t.charAt t.length) = false := by
      rw [Text.charAt_of_length_le (Nat.le_refl _)]
      rfl
    obtain ⟨hin, hlast⟩ := hopened.runTo (d := d) hv.through hle (Nat.le_refl _) hclear
      fun q hq _ => hnone q (hpos ▸ hq)
    have hu : Scan.Visits d (Scan.whole t) ((s.step d).runTo d t.length) :=
      hv.trans (.of_runTo d _ _)
    have outside : ¬ ((s.step d).runTo d t.length).cursor.pos <
        ((s.step d).runTo d t.length).cursor.window.stop := by
      rw [hlast, hu.through.stop_eq]
      exact Nat.lt_irrefl _
    have hall := hin.complete (d := d) hu.through.tidy.sane outside
    rw [hlast] at hall
    obtain ⟨style, hmem, hcode⟩ := hall r hr hlt
    exact ⟨style, hmem, (hu.getElem?_lexText r).trans hcode⟩

section Examples

/-- A documenting comment with a keyword right before its end. -/
def keywordAtEnd : Text := .ofString "/** @a*/b"

/-- The keyword and the closing mark are shown as one. -/
theorem lexText_blockComment_keywordAtEnd :
    (Scan.whole keywordAtEnd).Enters standard keywordAtEnd (.blockComment true) 0 ∧
      (keywordAtEnd.ClosesComment 6 ∧ ∀ r, 2 ≤ r → r < 6 → ¬ keywordAtEnd.ClosesComment r) ∧
      standard.lexer.lexText keywordAtEnd 0 keywordAtEnd.length 0 =
        #[3, 3, 3, 3, 18, 18, 18, 18, 11] ∧
      (∀ r, r ≤ 7 → ∃ style ∈ commentStyles true,
        (standard.lexer.lexText keywordAtEnd 0 keywordAtEnd.length 0)[r]? = some style.code) ∧
      ∃ u : Scan, u.Leaves standard keywordAtEnd 8 := by
  have hopens : (Scan.whole keywordAtEnd).Enters standard keywordAtEnd (.blockComment true) 0 :=
    ⟨.refl, by decide +kernel, by decide +kernel, by decide +kernel, by decide +kernel⟩
  have hcloses : keywordAtEnd.ClosesComment 6 ∧
      ∀ r, 2 ≤ r → r < 6 → ¬ keywordAtEnd.ClosesComment r := by decide
  obtain ⟨hstyles, u, -, hleaves⟩ :=
    (lexText_blockComment standard keywordAtEnd hopens).1 6 (by decide) hcloses.1 hcloses.2
  exact ⟨hopens, hcloses, by decide +kernel, fun r hr => hstyles r (Nat.zero_le r) hr, u, hleaves⟩

-- The slash of an opening mark closes nothing.
example : standard.lexer.lexText (.ofString "/*/b") 0 4 0 = #[1, 1, 1, 1] := by decide +kernel

end Examples

end Dialect

end CFamily

end StyledText
