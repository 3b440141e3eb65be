/-
  Directives that go on over lines.

  A directive ends with its line, unless a backslash joins the next line to it.  The
  scan finds the backslash when it comes to it, and whether the directive goes on is
  settled by the first character of the next line.

  * `Text.JoinsAt`: a line ends in a backslash; `Text.joinsInto_iff`, that the next one is
    joined to it then;
  * `IntoDirective`: how a step leads into a directive or on in it, and
    `intoDirective`, that there is no other way;
  * `continued_iff`: what the scan remembers of the line before, at the start of a
    line that a directive comes to;
  * `directive_iff_of_continued` and `directive_iff_of_not_continued`: how the line
    begins then;
  * `Dialect.lexText_lineStart`: where a directive goes on over a line end;
  * `Dialect.lexText_lineStart_stringLast`: behind a string that is closed right before
    the backslash it does not.
-/
import StyledText.Proofs.LineStops

namespace StyledText

/-! ## Backslashes at the end of a line -/

namespace Text

variable {t : Text} {k p : Nat}

/-- A line ends in a backslash at `k`. -/
def JoinsAt (t : Text) (k : Nat) : Prop :=
  t.charAt k = '\\' ∧ isLineBreak (t.charAt (k + 1)) = true

/-- Where the next line starts behind a backslash at `k` and the line end. -/
def behindJoin (t : Text) (k : Nat) : Nat :=
  if t.charAt (k + 1) = '\r' ∧ t.charAt (k + 2) = '\n' then k + 3 else k + 2

/-- A comment opens at `p`, or a string or character literal. -/
def OpensAt (t : Text) (p : Nat) : Prop :=
  t.charAt p = '/' ∧ (t.charAt (p + 1) = '/' ∨ t.charAt (p + 1) = '*') ∨
    t.charAt p = '"' ∨ t.charAt p = '\''

instance (t : Text) (k : Nat) : Decidable (t.JoinsAt k) := inferInstanceAs (Decidable (_ ∧ _))

instance (t : Text) (p : Nat) : Decidable (t.OpensAt p) := inferInstanceAs (Decidable (_ ∨ _))

theorem behindJoin_cases (t : Text) (k : Nat) :
    (t.behindJoin k = k + 3 ∧ t.charAt (k + 1) = '\r' ∧ t.charAt (k + 2) = '\n') ∨
      (t.behindJoin k = k + 2 ∧ ¬ (t.charAt (k + 1) = '\r' ∧ t.charAt (k + 2) = '\n')) := by
  unfold behindJoin
  split
  · rename_i hpair
    exact .inl ⟨rfl, hpair⟩
  · rename_i hsingle
    exact .inr ⟨rfl, hsingle⟩

/-- The line end stands right before the next line. -/
theorem JoinsAt.isLineBreak_before (h : t.JoinsAt k) :
    isLineBreak (t.charAt (t.behindJoin k - 1)) = true := by
  rcases t.behindJoin_cases k with ⟨hp, -, hlf⟩ | ⟨hp, -⟩
  · rw [hp, show k + 3 - 1 = k + 2 by omega, hlf]
    rfl
  · rw [hp, show k + 2 - 1 = k + 1 by omega]
    exact h.2

/-- A backslash opens nothing. -/
theorem JoinsAt.not_opensAt (h : t.JoinsAt k) : ¬ t.OpensAt k := by
  simp [OpensAt, h.1]

theorem isLineBreak_before (h : t.isLineStart p = true) :
    isLineBreak (t.charAt (p - 1)) = true := by
  obtain ⟨-, hends⟩ := isLineStart_iff.1 h
  exact isLineBreak_iff.2 (hends.imp_right And.left)

/-- **A line is joined to the one before** if it starts behind a backslash at the end of a
    line. -/
theorem joinsInto_iff (h : t.isLineStart p = true) :
    t.JoinsInto p ↔ ∃ k, t.JoinsAt k ∧ t.behindJoin k = p := by
  constructor
  · rintro (⟨hp, hmark, hbreak⟩ | ⟨hp, hmark, hcr, hlf⟩)
    · obtain ⟨k, rfl⟩ : ∃ k, p = k + 2 := ⟨p - 2, by omega⟩
      refine ⟨k, ⟨hmark, hbreak⟩, if_neg fun ⟨hcr, hlf⟩ => ?_⟩
      -- No line starts between a carriage return and its line feed.
      simp [isLineStart, hcr, hlf] at h
    · obtain ⟨k, rfl⟩ : ∃ k, p = k + 3 := ⟨p - 3, by omega⟩
      exact ⟨k, ⟨hmark, isLineBreak_iff.2 (.inr hcr)⟩, if_pos ⟨hcr, hlf⟩⟩
  · rintro ⟨k, ⟨hmark, hbreak⟩, rfl⟩
    rcases t.behindJoin_cases k with ⟨hp, hcr, hlf⟩ | ⟨hp, -⟩ <;> rw [hp]
    · exact .inr ⟨by omega, hmark, hcr, hlf⟩
    · exact .inl ⟨by omega, hmark, hbreak⟩

end Text

namespace Cursor

/-- All characters that are skipped are accepted. -/
theorem accepts_of_skipWhile (accepts : Char → Bool) {c : Cursor} {q : Nat} (hs : c.Sees)
    (hq : c.pos ≤ q) (hlt : q < (c.skipWhile accepts).pos) :
    accepts (c.window.charOrSpace q) = true := by
  fun_induction skipWhile accepts c with
  | case1 c inside hch ih =>
    rw [pos_advance, if_pos inside, window_advance] at ih
    rcases Nat.lt_or_eq_of_le hq with hbehind | rfl
    · exact ih hs.advance hbehind hlt
    · rwa [← hs.ch_eq inside]
  | case2 c inside hch => exact absurd hlt (Nat.not_lt.2 hq)
  | case3 c outside => exact absurd hlt (Nat.not_lt.2 hq)

end Cursor

namespace CFamily

/-- The character before `k` belongs to a literal. -/
def BehindLiteral (styles : Array UInt8) (k : Nat) : Prop :=
  0 < k ∧ (styles[k - 1]? = some Style.string.code ∨ styles[k - 1]? = some Style.character.code)

instance (styles : Array UInt8) (k : Nat) : Decidable (BehindLiteral styles k) :=
  inferInstanceAs (Decidable (_ ∧ _))

/-! ## Transitions of directives -/

section Transitions

variable {here : Surroundings} {memory : Memory} {settings : Settings} {style : Style}

/-- A directive goes on, or it gives way to plain text or to a literal. -/
theorem leaveDirective_cases (here : Surroundings) (memory : Memory) (settings : Settings) :
    leaveDirective here memory settings = .stay ∨
      leaveDirective here memory settings = .switch .plain ∨
      ∃ literal, leaveDirective here memory settings = .openLiteral literal := by
  unfold leaveDirective
  split_ifs <;> simp

/-- A literal is closed by a quote or an angle bracket. -/
theorem ch_of_closeLiteral (hm : memory.Sane)
    (h : leave style here memory settings = .closeLiteral) :
    here.ch = '"' ∨ here.ch = '>' ∨ here.ch = '\'' := by
  have hclose {close : Char} (h : leaveLiteral here close = .closeLiteral) : here.ch = close := by
    unfold leaveLiteral at h
    split_ifs at h with _ _ hch
    exact beq_iff_eq.1 hch
  have hf : (leave style here memory settings).Fits style here := leave_fits hm
  rw [h] at hf
  rcases hf.1 with rfl | rfl
  · rw [hclose h]
    exact hm.stringClose.imp_right .inl
  · exact .inr (.inr (hclose h))

theorem enter?_eq_directive_iff :
    enter? here memory settings = some .directive ↔ here.ch = '#' ∧ memory.visible = 0 := by
  constructor
  · exact enter?_meets
  · rintro ⟨hch, hvisible⟩
    simp [enter?, hch, hvisible, isDigit, isWordStart, isLetter, isSmallLetter, isAscii]

end Transitions

namespace Scan

variable {d : Dialect} {t : Text} {s u : Scan} {k p : Nat}

/-! ## What moves leave behind -/

theorem continued_passChar : s.passChar.memory.continued = false := by
  rw [passChar_eq]
  split <;> rfl

theorem continued_passContinuation : s.passContinuation.memory.continued = true := rfl

theorem atContinuation_beginLine : s.beginLine.atContinuation = s.atContinuation := by
  unfold beginLine
  split
  · dsimp only
    split <;> rfl
  · rfl

theorem cursor_closeLiteral : (s.closeLiteral d).cursor = s.cursor.advance.switchTo
    (if s.memory.inDirective then Style.directive else Style.plain).code := by
  unfold closeLiteral
  dsimp only
  split <;> rfl

theorem cursor_openDirective (h : s.openDirective.style = .directive) :
    s.openDirective.cursor = s.directiveWord.cursor := by
  rw [openDirective_eq] at h ⊢
  split at h
  · rw [style_switchTo] at h
    exact nomatch h
  · rename_i hopen
    rw [if_neg hopen]
    split <;> rfl

/-- Nothing but the mark of a directive begins one. -/
theorem Enter.style_ne_directive {what : Enter} (h : what ≠ .directive) :
    what.style ≠ .directive := by
  cases what with
  | directive => exact absurd rfl h
  | blockComment doc | lineComment doc => cases doc <;> decide
  | literal literal => cases literal <;> exact fun h => nomatch h
  | _ => decide

theorem entering?_eq_directive_iff : s.entering? d = some .directive ↔
    (s.cursor.pos < s.cursor.window.stop ∧ s.style = .plain) ∧
      s.cursor.ch = '#' ∧ s.memory.visible = 0 := by
  unfold entering?
  split
  · rename_i hmore
    rw [enter?_eq_directive_iff]
    simp only [Cursor.more, Bool.and_eq_true, decide_eq_true_eq, beq_iff_eq] at hmore
    exact ⟨fun h => ⟨hmore, h⟩, fun h => h.2⟩
  · rename_i hmore
    simp only [Cursor.more, Bool.and_eq_true, decide_eq_true_eq, beq_iff_eq] at hmore
    refine ⟨fun h => ?_, fun h => absurd h.1 hmore⟩
    cases h

/-- A style ends in a directive if it is one that goes on, or a literal in one. -/
theorem leaving_of_directive (hm : s.memory.Sane)
    (h : (s.leaveStyle d).style = .directive) :
    (s.style = .directive ∧ s.leaving d = .stay) ∨
      ((s.style = .string ∨ s.style = .character) ∧ s.leaving d = .closeLiteral) := by
  have hf : (s.leaving d).Fits s.style s.cursor.surroundings := leave_fits hm
  rcases style_leaveStyle_cases (d := d) hm with ⟨hs, hhow | hhow⟩ | hs | ⟨hs, -⟩ | ⟨hs, -⟩ |
    ⟨hs, -⟩ | ⟨l, hs, -⟩ | ⟨-, hhow⟩
  · exact .inl ⟨hs.symm.trans h, hhow⟩
  · -- A directive does not skip a character.
    have hcases := leaveDirective_cases s.cursor.surroundings s.memory d.settings
    rw [leaving, hs.symm.trans h, leave] at hhow
    rw [hhow] at hcases
    rcases hcases with hne | hne | ⟨_, hne⟩ <;> cases hne
  · cases hs.symm.trans h
  · cases hs.symm.trans h
  · cases hs.symm.trans h
  · rcases hm.docStyle with hd | hd <;> rw [hd, h] at hs <;> cases hs
  · rw [h] at hs
    cases l <;> cases hs
  · rw [hhow] at hf
    exact .inr ⟨hf.1, hhow⟩

namespace Reads

theorem ch_eq_iff (h : Reads t s) (inside : s.cursor.pos < s.cursor.window.stop) {ch : Char}
    (hspace : ch ≠ ' ') (hnul : ch ≠ nul) :
    s.cursor.ch = ch ↔ t.charAt s.cursor.pos = ch := by
  rw [h.sees.ch_eq inside, h.charOrSpace_eq_iff hspace hnul]

theorem next_eq_iff (h : Reads t s) (inside : s.cursor.pos < s.cursor.window.stop) {ch : Char}
    (hspace : ch ≠ ' ') (hnul : ch ≠ nul) :
    s.cursor.next = ch ↔ t.charAt (s.cursor.pos + 1) = ch := by
  rw [h.sees.next_eq inside, h.charOrSpace_eq_iff hspace hnul]

theorem atContinuation_iff (h : Reads t s) (inside : s.cursor.pos < s.cursor.window.stop) :
    s.atContinuation = true ↔ t.JoinsAt s.cursor.pos := by
  rw [atContinuation, Bool.and_eq_true, beq_iff_eq, h.ch_eq_iff inside (by decide) (by decide),
    h.sees.next_eq inside, h.isLineBreak_charOrSpace, Text.JoinsAt]

theorem step_of_joinsAt (h : Reads t s) (inside : s.cursor.pos < s.cursor.window.stop)
    (hjoin : t.JoinsAt s.cursor.pos) : s.step d = s.beginLine.passContinuation := by
  rw [Scan.step, if_pos]
  rw [atContinuation_beginLine, h.atContinuation_iff inside]
  exact hjoin

theorem not_atContinuation (h : Reads t s) (inside : s.cursor.pos < s.cursor.window.stop)
    (hjoin : ¬ t.JoinsAt s.cursor.pos) : s.beginLine.atContinuation = false := by
  rw [atContinuation_beginLine, ← Bool.not_eq_true, h.atContinuation_iff inside]
  exact hjoin

theorem step_of_not_joinsAt (h : Reads t s) (inside : s.cursor.pos < s.cursor.window.stop)
    (hjoin : ¬ t.JoinsAt s.cursor.pos) :
    s.step d = (s.beginLine.leaveStyle d).enterAndPass d :=
  step_of_not_atContinuation (h.not_atContinuation inside hjoin)

/-- A backslash at the end of a line is passed to the start of the next one, or to the end of
    the window. -/
theorem pos_passContinuation (h : Reads t s) (inside : s.cursor.pos < s.cursor.window.stop) :
    s.passContinuation.cursor.pos = min (t.behindJoin s.cursor.pos) s.cursor.window.stop := by
  have hpair : s.cursor.window.charOrSpace (s.cursor.pos + 1) = '\r' ∧
      s.cursor.window.charOrSpace (s.cursor.pos + 2) = '\n' ↔
        t.charAt (s.cursor.pos + 1) = '\r' ∧ t.charAt (s.cursor.pos + 2) = '\n' := by
    rw [h.charOrSpace_eq_iff (by decide) (by decide), h.charOrSpace_eq_iff (by decide) (by decide)]
  rw [Scan.pos_passContinuation h.sees inside]
  simp only [hpair, Text.behindJoin]

end Reads

namespace Through

/-- A backslash at the end of a line is passed to the start of the next one. -/
theorem pos_passContinuation (h : Through t s) (hjoin : t.JoinsAt s.cursor.pos) :
    s.passContinuation.cursor.pos = t.behindJoin s.cursor.pos := by
  have hline := lt_length_of_isLineBreak hjoin.2
  have hle : t.behindJoin s.cursor.pos ≤ t.length := by
    rcases t.behindJoin_cases s.cursor.pos with ⟨hp, -, hlf⟩ | ⟨hp, -⟩
    · have hpair : s.cursor.pos + 2 < t.length := lt_length_of_isLineBreak (by rw [hlf]; rfl)
      omega
    · omega
  rw [h.toReads.pos_passContinuation (by rw [h.stop_eq]; omega), h.stop_eq, Nat.min_eq_left hle]

theorem pos_step_of_joinsAt (h : Through t s) (inside : s.cursor.pos < s.cursor.window.stop)
    (hjoin : t.JoinsAt s.cursor.pos) : (s.step d).cursor.pos = t.behindJoin s.cursor.pos := by
  rw [h.step_of_joinsAt inside hjoin, h.beginLine.pos_passContinuation (by rwa [pos_beginLine]),
    pos_beginLine]

end Through

/-! ## How a scan comes into a directive -/

/-- **How the step of `s` leads into a directive, or on in it.** -/
inductive IntoDirective (d : Dialect) (t : Text) (s : Scan) : Prop where
  /-- It passes a backslash and the line end. -/
  | joined (hs : s.style = .directive) (hjoin : t.JoinsAt s.cursor.pos)
      (hpos : (s.step d).cursor.pos = t.behindJoin s.cursor.pos)
      (hcont : (s.step d).memory.continued = true)
  /-- It passes a character of the directive. -/
  | passed (hs : s.style = .directive) (hjoin : ¬ t.JoinsAt s.cursor.pos)
      (hpos : (s.step d).cursor.pos = s.cursor.pos + 1)
      (hcont : (s.step d).memory.continued = false)
  /-- It closes a literal of the directive, and passes one character more. -/
  | closed (hs : s.style = .string ∨ s.style = .character)
      (hch : t.charAt s.cursor.pos ≠ '\\') (hb : isLineBreak (t.charAt s.cursor.pos) = false)
      (hpos : (s.step d).cursor.pos = s.cursor.pos + 2)
      (hcommitted : (s.step d).cursor.window.committed? s.cursor.pos = some s.style.code)
      (hcont : (s.step d).memory.continued = false)
  /-- It opens the directive. -/
  | opened (hch : t.charAt ((s.step d).cursor.pos - 1) ≠ '\\')
      (hb : isLineBreak (t.charAt ((s.step d).cursor.pos - 1)) = false)

/-- Before the word of a directive that opens are blanks and the mark. -/
theorem Through.before_directiveWord (h : Through t s)
    (hwhat : s.entering? d = some .directive) :
    t.charAt (s.directiveWord.cursor.pos - 1) = '#' ∨
      isBlank (t.charAt (s.directiveWord.cursor.pos - 1)) = true := by
  obtain ⟨⟨inside, -⟩, hch, -⟩ := entering?_eq_directive_iff.1 hwhat
  obtain ⟨c, hc⟩ : ∃ c, c = (s.switchTo .directive).cursor.advance := ⟨_, rfl⟩
  have hword : s.directiveWord.cursor = c.skipWhile isBlank := hc ▸ rfl
  have hreach : Reaches s.cursor c := hc ▸ (Reaches.refl.switchTo .directive).advance
  have hskipped : Reaches s.cursor (c.skipWhile isBlank) := hreach.skipWhile isBlank
  have hpos : c.pos = s.cursor.pos + 1 := by
    rw [hc]
    exact (Cursor.pos_advance _).trans (if_pos inside)
  have hle : c.pos ≤ (c.skipWhile isBlank).pos := (Reaches.refl.skipWhile isBlank).pos_le
  have hlast : (c.skipWhile isBlank).pos - 1 < t.length := by
    have hstop := (hskipped.covers h.covers).pos_le
    rw [hskipped.stop_eq, h.stop_eq] at hstop
    omega
  rw [hword]
  rcases Nat.eq_or_lt_of_le hle with heq | hlt
  · rw [← heq, hpos, Nat.add_sub_cancel]
    exact .inl ((h.ch_eq_iff inside (by decide) (by decide)).1 hch)
  · have hblank := Cursor.accepts_of_skipWhile isBlank (hreach.sees h.sees)
      (q := (c.skipWhile isBlank).pos - 1) (by omega) (by omega)
    rw [hreach.charOrSpace_eq, h.charOrSpace_eq_charAt hlast] at hblank
    exact .inr hblank

theorem ne_backslash_of_isBlank {ch : Char} (h : ch = '#' ∨ isBlank ch = true) :
    ch ≠ '\\' ∧ isLineBreak ch = false := by
  rcases h with rfl | h
  · exact ⟨by decide, rfl⟩
  · refine ⟨?_, not_isLineBreak_of (p := isBlank) rfl rfl ch h⟩
    rintro rfl
    exact nomatch h

theorem ne_backslash_of_closes {ch : Char} (h : ch = '"' ∨ ch = '>' ∨ ch = '\'') :
    ch ≠ '\\' ∧ isLineBreak ch = false := by
  rcases h with rfl | rfl | rfl <;> exact ⟨by decide, rfl⟩

/-- A literal that is closed is committed, and the character behind it is passed too. -/
theorem Through.closeLiteral (h : Through t s) (inside : s.cursor.pos < s.cursor.window.stop)
    (inside' : (s.closeLiteral d).passChar.cursor.pos < s.cursor.window.stop) :
    (s.closeLiteral d).passChar.cursor.pos = s.cursor.pos + 2 ∧
      (s.closeLiteral d).passChar.cursor.window.committed? s.cursor.pos = some s.style.code := by
  have hpos : s.cursor.advance.pos = s.cursor.pos + 1 :=
    (Cursor.pos_advance _).trans (if_pos inside)
  have hclosed := h.covers.advance
  rw [cursor_passChar, cursor_closeLiteral, Cursor.pos_advance, Cursor.pos_switchTo,
    Cursor.stop_switchTo, Cursor.stop_advance, hpos] at inside' ⊢
  refine ⟨?_, ?_⟩
  · split at inside'
    · rename_i hmore
      rw [if_pos hmore]
    · omega
  · rw [Cursor.window_advance, Cursor.committed?_switchTo _ _ hclosed.pos_le, Cursor.state_advance,
      style, h.covers.code_ofCode]
    · rw [Cursor.window_advance]
      exact h.covers.boundary_le
    · omega

/-- The start of a line leaves the cursor where the text goes on. -/
theorem Through.ch_beginLine (h : Through t s) (inside : s.cursor.pos < s.cursor.window.stop) :
    s.beginLine.cursor.surroundings.ch = t.charAt s.cursor.pos := by
  show s.beginLine.cursor.ch = _
  rw [h.beginLine.sees.ch_eq (inside_beginLine inside),
    pos_beginLine, (reaches_beginLine s).charOrSpace_eq,
    h.charOrSpace_eq_charAt (h.stop_eq ▸ inside)]

/-- A step that closes a literal passes the quote and one character more. -/
theorem Through.intoDirective_of_closeLiteral (h : Through t s)
    (inside : s.cursor.pos < s.cursor.window.stop)
    (inside' : (s.step d).cursor.pos < (s.step d).cursor.window.stop)
    (hliteral : s.style = .string ∨ s.style = .character)
    (hhow : s.beginLine.leaving d = .closeLiteral)
    (hstep : s.step d = (s.beginLine.leaveStyle d).passChar) : s.IntoDirective d t := by
  have hbegin := h.beginLine
  have hstop := (reaches_beginLine s).stop_eq
  obtain ⟨hne, hb⟩ := ne_backslash_of_closes (ch_of_closeLiteral hbegin.tidy.sane hhow)
  rw [h.ch_beginLine inside] at hne hb
  rw [leaveStyle, hhow, applyLeave] at hstep
  rw [stop_step, hstep, ← hstop] at inside'
  obtain ⟨hpos, hcommitted⟩ := hbegin.closeLiteral (by rwa [pos_beginLine, hstop]) inside'
  rw [← hstep, pos_beginLine] at hpos hcommitted
  rw [style_beginLine] at hcommitted
  exact .closed hliteral hne hb hpos hcommitted (by rw [hstep, continued_passChar])

/-- **There is no other way into a directive**, before the end of the text. -/
theorem intoDirective (h : Through t s) (inside : s.cursor.pos < s.cursor.window.stop)
    (inside' : (s.step d).cursor.pos < (s.step d).cursor.window.stop)
    (hs : (s.step d).style = .directive) : s.IntoDirective d t := by
  have hbegin := h.beginLine
  have inside₁ := inside_beginLine inside
  by_cases hjoin : t.JoinsAt s.cursor.pos
  · have hstep := h.step_of_joinsAt (d := d) inside hjoin
    rw [hstep, style_passContinuation, style_beginLine] at hs
    refine .joined hs hjoin (h.pos_step_of_joinsAt inside hjoin) ?_
    rw [hstep, continued_passContinuation]
  · have hstep := h.step_of_not_joinsAt (d := d) inside hjoin
    have hleft : Through t (s.beginLine.leaveStyle d) := h.left inside
    rw [hstep] at hs
    cases hwhat : (s.beginLine.leaveStyle d).entering? d with
    | none =>
      rw [enterAndPass_of_none hwhat] at hs hstep
      rw [style_passChar] at hs
      rcases leaving_of_directive hbegin.tidy.sane hs with ⟨hstay, hhow⟩ | ⟨hliteral, hhow⟩
      · -- Within a directive the start of a line changes nothing for the cursor.
        rw [style_beginLine] at hstay
        refine .passed hstay hjoin ?_ (by rw [hstep, continued_passChar])
        rw [hstep, leaveStyle_of_stay hhow, cursor_passChar, Cursor.pos_advance, if_pos inside₁,
          pos_beginLine]
      · rw [style_beginLine] at hliteral
        exact h.intoDirective_of_closeLiteral inside inside' hliteral hhow hstep
    | some what =>
      by_cases hw : what = .directive
      · subst hw
        rw [enterAndPass_of_directive hwhat] at hs hstep
        have hbefore := hleft.before_directiveWord hwhat
        rw [← cursor_openDirective hs, ← hstep] at hbefore
        exact .opened (ne_backslash_of_isBlank hbefore).1 (ne_backslash_of_isBlank hbefore).2
      · rw [enterAndPass_of_some hwhat hw, style_passChar, style_applyEnter hw] at hs
        exact absurd hs (Enter.style_ne_directive hw)

/-! ## Within a directive -/

/-- The open run shows its style behind the cursor. -/
theorem shown_eq_iff {q : Nat} {style : Style} (hc : Covers s.cursor)
    (hq : s.cursor.window.boundary ≤ q) :
    s.cursor.shown q = style.code ↔ s.style = style := by
  rw [Cursor.shown_of_boundary_le hq, ← hc.code_ofCode, Style.code_inj, Scan.style]

theorem boundary_directiveWord (hc : Covers s.cursor) :
    s.directiveWord.cursor.window.boundary = s.cursor.pos := by
  have hwindow (c : Cursor) : (c.skipWhile isBlank).window = c.window := by
    fun_induction Cursor.skipWhile isBlank c with
    | case1 c _ _ ih => rw [ih, Cursor.window_advance]
    | case2 => rfl
    | case3 => rfl
  show ((s.switchTo .directive).cursor.advance.skipWhile isBlank).window.boundary = _
  rw [hwindow, Cursor.window_advance]
  exact hc.boundary_switchTo _

/-- A directive that opens before the end of the text has its mark behind it. -/
theorem boundary_lt_openDirective (hc : Covers s.cursor)
    (inside : s.openDirective.cursor.pos < s.cursor.window.stop)
    (hs : s.openDirective.style = .directive) :
    s.openDirective.cursor.window.boundary < s.openDirective.cursor.pos := by
  have hpos : (s.switchTo .directive).cursor.advance.pos ≤ s.openDirective.cursor.pos :=
    (reaches_openDirective s).pos_le
  rw [Cursor.pos_advance] at hpos
  have hmark : (s.switchTo .directive).cursor.pos < (s.switchTo .directive).cursor.window.stop := by
    show s.cursor.pos < s.cursor.window.stop
    split at hpos
    · assumption
    · exact Nat.lt_of_le_of_lt hpos inside
  rw [if_pos hmark] at hpos
  rw [cursor_openDirective hs, boundary_directiveWord hc, ← cursor_openDirective hs]
  exact hpos

/-- **A scan that is not in plain text has passed a character of the run that is open**, and
    so has one at the start of a line. -/
theorem Through.boundary_lt_step (h : Through t s) (inside : s.cursor.pos < s.cursor.window.stop)
    (inside' : (s.step d).cursor.pos < (s.step d).cursor.window.stop)
    (hs : (s.step d).style ≠ .plain ∨
      isLineBreak (t.charAt ((s.step d).cursor.pos - 1)) = true) :
    (s.step d).cursor.window.boundary < (s.step d).cursor.pos := by
  have moved := pos_lt_step d inside
  rcases step_cases d h.tidy h.covers h.sees with
    ⟨-, hstep⟩ | ⟨c, halong, hstep⟩ | ⟨halong, x, hreach, hstep⟩
  · have hbegin := h.beginLine.covers.boundary_le
    rw [pos_beginLine] at hbegin
    rw [hstep, cursor_passContinuation_window, ← hstep]
    exact Nat.lt_of_le_of_lt hbegin moved
  · have hle := (halong.reaches.covers h.covers).boundary_le
    rw [hstep, Cursor.pos_advance, Cursor.window_advance] at inside' ⊢
    split at inside'
    · rename_i hin
      rw [if_pos hin]
      exact Nat.lt_succ_of_le hle
    · omega
  · rcases hs with hs | hb
    · rw [stop_step, hstep, ← hreach.stop_eq] at inside'
      rw [hstep] at hs ⊢
      exact boundary_lt_openDirective (hreach.covers h.covers) inside'
        (style_openDirective.resolve_right hs)
    · have hclear := halong.clear ((s.step d).cursor.pos - 1) (by omega) (by omega)
      rw [h.isLineBreak_charOrSpace, hb] at hclear
      exact nomatch hclear

namespace Visits

theorem pos_whole : (whole t).cursor.pos = 0 :=
  Window.start_ofBuffer (n := t.length) (Nat.zero_le _)

theorem through (hv : Visits d (whole t) u) : Through t u := (through_whole t).visits hv

theorem getElem?_lexText (hv : Visits d (whole t) u) (q : Nat) :
    (d.lexer.lexText t 0 t.length 0)[q]? = (u.complete d).cursor.window.committed? q := by
  rw [Dialect.getElem?_lexText, Dialect.lex_window, Dialect.opening_zero, hv.complete_eq]
  rfl

/-- What a scan has committed on its way is a style of the text. -/
theorem getElem?_of_committed? (hv : Visits d (whole t) u) {q : Nat} {code : UInt8}
    (hq : u.cursor.window.committed? q = some code) :
    (d.lexer.lexText t 0 t.length 0)[q]? = some code := by
  rw [hv.getElem?_lexText]
  exact committed?_complete .refl hq

/-- Where a scan is in a directive, the character before it is one of the directive. -/
theorem directive_before (hv : Visits d (whole t) u) (inside : u.cursor.pos < t.length)
    (hpos : 0 < u.cursor.pos) (hs : u.style = .directive) :
    (d.lexer.lexText t 0 t.length 0)[u.cursor.pos - 1]? = some Style.directive.code := by
  have hthrough := hv.through
  rw [hv.getElem?_lexText, hthrough.directive_iff (by omega)]
  cases hv with
  | refl =>
    rw [pos_whole] at hpos
    exact absurd hpos (Nat.lt_irrefl 0)
  | @step r hr hin =>
    have hlt := hr.through.boundary_lt_step (d := d) hin (hthrough.stop_eq ▸ inside)
      (.inl (by rw [hs]; decide))
    exact (shown_eq_iff hthrough.covers (by omega)).2 hs

/-- **A scan has passed a backslash at the end of a line like any other character only
    behind a literal** that is closed before it. -/
theorem behindLiteral (hv : Visits d (whole t) u) (hjoin : t.JoinsAt k)
    (hpos : u.cursor.pos = k + 1) (hs : u.style = .directive) :
    BehindLiteral (d.lexer.lexText t 0 t.length 0) k := by
  have inside : u.cursor.pos < u.cursor.window.stop := by
    rw [hv.through.stop_eq, hpos]
    exact Through.lt_length_of_isLineBreak hjoin.2
  cases hv with
  | refl =>
    rw [pos_whole] at hpos
    exact absurd hpos (Nat.succ_ne_zero k).symm
  | @step r hr hin =>
    cases intoDirective hr.through hin inside hs with
    | joined _ hjoin' hpos' _ =>
      have hb := hjoin'.isLineBreak_before
      rw [← hpos', hpos, Nat.add_sub_cancel, hjoin.1] at hb
      exact nomatch hb
    | passed _ hjoin' hpos' _ =>
      obtain rfl : r.cursor.pos = k := by omega
      exact absurd hjoin hjoin'
    | closed hliteral _ _ hpos' hcommitted _ =>
      obtain rfl : k = r.cursor.pos + 1 := by omega
      have hcode := (hr.step hin).getElem?_of_committed? hcommitted
      refine ⟨Nat.succ_pos _, ?_⟩
      rw [Nat.add_sub_cancel, hcode]
      exact hliteral.imp (fun h => by rw [h]) fun h => by rw [h]
    | opened hch _ =>
      rw [hpos, Nat.add_sub_cancel] at hch
      exact absurd hjoin.1 hch

/-- So it does at a line end of two characters. -/
theorem behindLiteral_of_pair (hv : Visits d (whole t) u) (hjoin : t.JoinsAt k)
    (hcr : t.charAt (k + 1) = '\r') (hlf : t.charAt (k + 2) = '\n')
    (hpos : u.cursor.pos = k + 2) (hs : u.style = .directive) :
    BehindLiteral (d.lexer.lexText t 0 t.length 0) k := by
  have inside : u.cursor.pos < u.cursor.window.stop := by
    rw [hv.through.stop_eq, hpos]
    exact Through.lt_length_of_isLineBreak (hlf ▸ rfl)
  cases hv with
  | refl =>
    rw [pos_whole] at hpos
    omega
  | @step r hr hin =>
    cases intoDirective hr.through hin inside hs with
    | joined _ hjoin' hpos' _ =>
      -- The line end would have been passed as a whole.
      rcases t.behindJoin_cases r.cursor.pos with ⟨hbehind, hcr', -⟩ | ⟨hbehind, hsingle⟩
      · obtain rfl : k = r.cursor.pos + 1 := by omega
        rw [hjoin.1] at hcr'
        exact absurd hcr' (by decide)
      · obtain rfl : r.cursor.pos = k := by omega
        exact absurd ⟨hcr, hlf⟩ hsingle
    | passed hs' _ hpos' _ => exact hr.behindLiteral hjoin (by omega) hs'
    | closed _ hch _ hpos' _ _ =>
      obtain rfl : r.cursor.pos = k := by omega
      exact absurd hjoin.1 hch
    | opened _ hb =>
      rw [hpos, show k + 2 - 1 = k + 1 by omega, hcr] at hb
      exact nomatch hb

/-- **At the start of a line that a directive comes to, the scan remembers a backslash at
    the end of the line before**, unless a literal has been closed right before it. -/
theorem continued_iff (hv : Visits d (whole t) u) (hstart : t.isLineStart p = true)
    (hp : p < t.length) (hpos : u.cursor.pos = p) (hs : u.style = .directive) :
    u.memory.continued = true ↔ ∃ k, t.JoinsAt k ∧ t.behindJoin k = p ∧
      ¬ BehindLiteral (d.lexer.lexText t 0 t.length 0) k := by
  have hbreak := Text.isLineBreak_before hstart
  have hzero := (Text.isLineStart_iff.1 hstart).1
  have inside : u.cursor.pos < u.cursor.window.stop := by
    rwa [hv.through.stop_eq, hpos]
  cases hv with
  | refl =>
    rw [pos_whole] at hpos
    omega
  | @step r hr hin =>
    have hrin := hr.through.stop_eq ▸ hin
    cases intoDirective hr.through hin inside hs with
    | joined hs' hjoin hpos' hcont =>
      refine iff_of_true hcont ⟨r.cursor.pos, hjoin, hpos'.symm.trans hpos, ?_⟩
      rintro ⟨hlt, hliteral⟩
      rw [hr.directive_before hrin hlt hs'] at hliteral
      rcases hliteral with h | h <;> exact absurd (Option.some.inj h) (by decide)
    | passed hs' _ hpos' hcont =>
      refine iff_of_false (Bool.eq_false_iff.1 hcont) ?_
      rintro ⟨k, hjoin, hbehind, hopen⟩
      rcases t.behindJoin_cases k with ⟨hk, hcr, hlf⟩ | ⟨hk, -⟩
      · exact hopen (hr.behindLiteral_of_pair hjoin hcr hlf (by omega) hs')
      · exact hopen (hr.behindLiteral hjoin (by omega) hs')
    | closed _ hch hb hpos' _ hcont =>
      -- What closes a literal is neither the backslash nor a part of the line end.
      refine iff_of_false (Bool.eq_false_iff.1 hcont) ?_
      rintro ⟨k, hjoin, hbehind, -⟩
      rcases t.behindJoin_cases k with ⟨hk, hcr, -⟩ | ⟨hk, -⟩
      · rw [show r.cursor.pos = k + 1 by omega, hcr] at hb
        exact nomatch hb
      · rw [show r.cursor.pos = k by omega] at hch
        exact hch hjoin.1
    | opened _ hb =>
      rw [hpos, hbreak] at hb
      exact nomatch hb

end Visits

/-! ## How a line begins that a directive comes to -/

theorem style_of_entering? {what : Enter} (hwhat : s.entering? d = some what) :
    s.style = .plain := by
  unfold entering? at hwhat
  split at hwhat
  · rename_i hmore
    rw [Bool.and_eq_true, beq_iff_eq] at hmore
    exact hmore.2
  · exact nomatch hwhat

/-- The mark of a directive is shown as one, and so are the blanks behind it. -/
theorem shown_openDirective {q : Nat} (hc : Covers s.cursor) (hq : s.cursor.pos ≤ q)
    (hlt : q < s.openDirective.cursor.pos) :
    s.openDirective.cursor.shown q = Style.directive.code := by
  have hreach : Reaches s.cursor s.directiveWord.cursor :=
    ((Reaches.refl.switchTo .directive).advance).skipWhile isBlank
  have hstyle : s.directiveWord.style = .directive := by
    rw [directiveWord, style_skipWhile, style_advance, style_switchTo]
  have hc' := hreach.covers hc
  have hword : s.directiveWord.cursor.shown q = Style.directive.code :=
    (shown_eq_iff hc' (boundary_directiveWord hc ▸ hq)).2 hstyle
  rw [openDirective_eq] at hlt ⊢
  split at hlt
  · rename_i hend
    have hstart : s.directiveWord.cursor.window.start ≤ q := by
      have hle := hc.boundary_le
      rw [hreach.start_eq]
      exact Nat.le_trans (Nat.le_trans (Nat.le_add_right _ _) hle) hq
    rw [if_pos hend]
    exact (Cursor.shown_switchTo hstart hlt hc'.pos_le).trans hword
  · rename_i hopen
    rw [if_neg hopen]
    split
    · exact hword
    · exact hword

/-- **A character is shown as part of a directive if it goes on there or begins there.** -/
theorem shown_enterAndPass (hc : Covers s.cursor) :
    (s.enterAndPass d).cursor.shown s.cursor.pos = Style.directive.code ↔
      s.style = .directive ∨ s.entering? d = some .directive := by
  cases hwhat : s.entering? d with
  | none =>
    rw [enterAndPass_of_none hwhat, cursor_passChar, Cursor.shown_advance,
      shown_eq_iff hc hc.boundary_le]
    simp
  | some what =>
    have hplain := style_of_entering? hwhat
    by_cases hw : what = .directive
    · subst hw
      have hmark : s.cursor.pos < s.openDirective.cursor.pos :=
        (Reaches.refl.switchTo .directive).pos_lt (reaches_openDirective s)
          (pos_lt_of_entering? hwhat)
      rw [enterAndPass_of_directive hwhat]
      exact iff_of_true (shown_openDirective hc (Nat.le_refl _) hmark) (.inr rfl)
    · have hreach := reaches_applyEnter s what
      rw [enterAndPass_of_some hwhat hw, cursor_passChar, Cursor.shown_advance,
        shown_eq_iff (hreach.covers hc) (Nat.le_of_eq (boundary_applyEnter hc hw)),
        style_applyEnter hw, hplain]
      simp [Enter.style_ne_directive hw, hw]

theorem beginLine_of_directive (hline : s.cursor.atLineStart = true) (hs : s.style = .directive) :
    s.beginLine =
      s.remember fun m => { m with visible := 0, afterUuid := false, inInclude := false } := by
  have hopen : ¬ (s.style = .string ∨ s.style = .character) := by
    rw [hs]
    decide
  unfold beginLine
  dsimp only
  rw [if_pos hline, if_neg hopen]

namespace Through

/-- Where a line starts, the cursor knows it. -/
theorem atLineStart_eq (h : Through t s) (hstart : t.isLineStart s.cursor.pos = true)
    (inside : s.cursor.pos < t.length) : s.cursor.atLineStart = true := by
  have hpos := (Text.isLineStart_iff.1 hstart).1
  rw [h.looksBack.atLineStart_eq (by rwa [h.start_eq]) (by rwa [h.stop_eq]), h.stop_eq,
    h.charOrSpace_eq_charAt inside, h.charOrSpace_eq_charAt (by omega),
    Cursor.endsLine_eq_isLineStart hpos inside, hstart]

/-- A backslash that joins the next line is passed within the directive. -/
theorem shown_of_joinsAt (h : Through t s) (inside : s.cursor.pos < s.cursor.window.stop)
    (hs : s.style = .directive) (hjoin : t.JoinsAt s.cursor.pos) :
    (s.step d).cursor.shown s.cursor.pos = Style.directive.code := by
  have hbegin := h.beginLine
  have hle := hbegin.covers.boundary_le
  rw [pos_beginLine] at hle
  rw [h.step_of_joinsAt inside hjoin, shown_passContinuation, shown_eq_iff hbegin.covers hle,
    style_beginLine, hs]

theorem opensAt_iff (h : Through t s) (inside : s.cursor.pos < s.cursor.window.stop) :
    t.OpensAt s.cursor.pos ↔
      (s.cursor.ch = '/' ∧ (s.cursor.next = '/' ∨ s.cursor.next = '*')) ∨
        s.cursor.ch = '"' ∨ s.cursor.ch = '\'' := by
  simp only [Text.OpensAt, h.ch_eq_iff inside (show '/' ≠ ' ' by decide) (by decide),
    h.ch_eq_iff inside (show '"' ≠ ' ' by decide) (by decide),
    h.ch_eq_iff inside (show '\'' ≠ ' ' by decide) (by decide),
    h.next_eq_iff inside (show '/' ≠ ' ' by decide) (by decide),
    h.next_eq_iff inside (show '*' ≠ ' ' by decide) (by decide)]

/-- How a directive ends that has come to the start of a line. -/
theorem leaving_beginLine (hline : s.cursor.atLineStart = true) (hs : s.style = .directive) :
    s.beginLine.leaving d = leaveDirective s.cursor.surroundings
      { s.memory with visible := 0, afterUuid := false, inInclude := false } d.settings := by
  rw [beginLine_of_directive hline hs, leaving]
  show leave s.style _ _ _ = _
  rw [hs]
  rfl

/-- **A directive that goes on, goes on with the first character of the line**, unless
    that opens a comment or a literal. -/
theorem leaving_of_continued (h : Through t s) (inside : s.cursor.pos < s.cursor.window.stop)
    (hd : d.settings.styleWithinDirectives = false) (hline : s.cursor.atLineStart = true)
    (hs : s.style = .directive) (hcont : s.memory.continued = true) :
    (s.beginLine.leaving d = .stay ∧ ¬ t.OpensAt s.cursor.pos) ∨
      (t.OpensAt s.cursor.pos ∧
        ((s.beginLine.leaving d = .switch .plain ∧ s.cursor.ch = '/') ∨
          ∃ literal, s.beginLine.leaving d = .openLiteral literal)) := by
  have hch : s.cursor.surroundings.ch = s.cursor.ch := rfl
  have hnext : s.cursor.surroundings.next = s.cursor.next := rfl
  rw [h.opensAt_iff inside, leaving_beginLine hline hs, leaveDirective]
  simp only [hcont, hd, hch, hnext, Bool.not_true, Bool.and_false, Bool.false_eq_true, if_false,
    Bool.and_eq_true, Bool.or_eq_true, beq_iff_eq]
  by_cases hcomment : s.cursor.ch = '/' ∧ (s.cursor.next = '*' ∨ s.cursor.next = '/')
  · rw [if_pos hcomment]
    exact .inr ⟨.inl ⟨hcomment.1, hcomment.2.symm⟩, .inl ⟨rfl, hcomment.1⟩⟩
  · rw [if_neg hcomment]
    by_cases hstring : s.cursor.ch = '"'
    · rw [if_pos hstring]
      exact .inr ⟨.inr (.inl hstring), .inr ⟨_, rfl⟩⟩
    · rw [if_neg hstring]
      by_cases hcharacter : s.cursor.ch = '\''
      · rw [if_pos hcharacter]
        exact .inr ⟨.inr (.inr hcharacter), .inr ⟨_, rfl⟩⟩
      · rw [if_neg hcharacter]
        refine .inl ⟨rfl, ?_⟩
        rintro (⟨hslash, hmark⟩ | hquote | hquote)
        · exact hcomment ⟨hslash, hmark.symm⟩
        · exact hstring hquote
        · exact hcharacter hquote

/-- What the first character of a line is shown as, when the style before it has been
    ended or goes on. -/
theorem shown_step_iff (h : Through t s) (inside : s.cursor.pos < s.cursor.window.stop)
    (hjoin : ¬ t.JoinsAt s.cursor.pos)
    (hpos : (s.beginLine.leaveStyle d).cursor.pos = s.cursor.pos) :
    (s.step d).cursor.shown s.cursor.pos = Style.directive.code ↔
      (s.beginLine.leaveStyle d).style = .directive ∨
        (s.beginLine.leaveStyle d).entering? d = some .directive := by
  rw [h.step_of_not_joinsAt inside hjoin, ← hpos]
  exact shown_enterAndPass ((reaches_leaveStyle d s).covers h.covers)

/-- A directive that has been closed at the start of a line is followed by another one if
    the line begins with its mark. -/
theorem entering?_of_switch (h : Through t s) (inside : s.cursor.pos < s.cursor.window.stop)
    (hline : s.cursor.atLineStart = true) (hs : s.style = .directive)
    (hhow : s.beginLine.leaving d = .switch .plain) :
    (s.beginLine.leaveStyle d).entering? d = some .directive ↔
      t.charAt s.cursor.pos = '#' := by
  rw [leaveStyle_of_switch hhow, entering?_eq_directive_iff, beginLine_of_directive hline hs,
    style_switchTo, ← h.ch_eq_iff inside (by decide) (by decide)]
  exact ⟨fun h => h.2.1, fun h => ⟨⟨inside, rfl⟩, h, rfl⟩⟩

/-- **So the line is shown as part of the directive**, from its first character on. -/
theorem directive_iff_of_continued (h : Through t s)
    (inside : s.cursor.pos < s.cursor.window.stop)
    (hd : d.settings.styleWithinDirectives = false) (hline : s.cursor.atLineStart = true)
    (hs : s.style = .directive) (hcont : s.memory.continued = true) :
    (s.step d).cursor.shown s.cursor.pos = Style.directive.code ↔ ¬ t.OpensAt s.cursor.pos := by
  by_cases hjoin : t.JoinsAt s.cursor.pos
  · exact iff_of_true (h.shown_of_joinsAt inside hs hjoin) hjoin.not_opensAt
  have hbegin : s.beginLine.cursor.pos = s.cursor.pos := pos_beginLine
  rcases h.leaving_of_continued inside hd hline hs hcont with
    ⟨hstay, hopens⟩ | ⟨hopens, ⟨hplain, hslash⟩ | ⟨literal, hliteral⟩⟩
  · rw [h.shown_step_iff inside hjoin (by rw [leaveStyle_of_stay hstay, hbegin]),
      leaveStyle_of_stay hstay, style_beginLine]
    exact iff_of_true (.inl hs) hopens
  · rw [h.shown_step_iff inside hjoin (by rw [leaveStyle_of_switch hplain]; exact hbegin),
      h.entering?_of_switch inside hline hs hplain, leaveStyle_of_switch hplain, style_switchTo,
      ← h.ch_eq_iff inside (by decide) (by decide), hslash]
    exact iff_of_false (by decide) (not_not_intro hopens)
  · have hstyle : (s.beginLine.leaveStyle d).style = literal.style := by
      rw [leaveStyle, hliteral, style_applyLeave]
      rfl
    rw [h.shown_step_iff inside hjoin (by rw [leaveStyle, hliteral]; exact hbegin),
      entering?_eq_directive_iff, hstyle]
    refine iff_of_false ?_ (not_not_intro hopens)
    cases literal <;> rintro (hne | ⟨⟨-, hne⟩, -⟩) <;> cases hne

/-- **A directive that does not go on has ended there**, unless the line is one that it
    passes with its backslash. -/
theorem directive_iff_of_not_continued (h : Through t s)
    (inside : s.cursor.pos < s.cursor.window.stop) (hline : s.cursor.atLineStart = true)
    (hs : s.style = .directive) (hcont : s.memory.continued = false) :
    (s.step d).cursor.shown s.cursor.pos = Style.directive.code ↔
      t.charAt s.cursor.pos = '#' ∨ t.JoinsAt s.cursor.pos := by
  by_cases hjoin : t.JoinsAt s.cursor.pos
  · exact iff_of_true (h.shown_of_joinsAt inside hs hjoin) (.inr hjoin)
  have hplain : s.beginLine.leaving d = .switch .plain := by
    have hends : (s.cursor.surroundings.atLineStart && !s.memory.continued) = true := by
      rw [hcont]
      exact (Bool.and_true _).trans hline
    rw [leaving_beginLine hline hs, leaveDirective, if_pos hends]
  rw [h.shown_step_iff inside hjoin (by rw [leaveStyle_of_switch hplain]; exact pos_beginLine),
    h.entering?_of_switch inside hline hs hplain, leaveStyle_of_switch hplain, style_switchTo]
  simp [hjoin]

end Through

/-- A scan that comes to the start of a line behind a directive is in it. -/
theorem Visits.style_of_directive_before (hv : Visits d (whole t) u)
    (hstart : t.isLineStart u.cursor.pos = true) (inside : u.cursor.pos < t.length)
    (hdir : (d.lexer.lexText t 0 t.length 0)[u.cursor.pos - 1]? = some Style.directive.code) :
    u.style = .directive := by
  have hthrough := hv.through
  have hpos := (Text.isLineStart_iff.1 hstart).1
  rw [hv.getElem?_lexText, hthrough.directive_iff (by omega)] at hdir
  cases hv with
  | refl =>
    rw [pos_whole] at hpos
    exact absurd hpos (by decide)
  | @step r hr hin =>
    have hlt := hr.through.boundary_lt_step (d := d) hin (hthrough.stop_eq ▸ inside)
      (.inr (Text.isLineBreak_before hstart))
    exact (shown_eq_iff hthrough.covers (by omega)).1 hdir

end Scan

namespace Dialect

/-- **A directive goes over a line end if a backslash stands right before it**, and no
    literal is closed right before the backslash.  Lexed as a whole from plain text on, and
    with directives styled to their end, let a text show a directive right before the
    start `p` of a line.  If the line before goes on so, `p` belongs to the directive,
    unless a comment or a literal opens there.  If it does not, `p` belongs to a directive
    only if one begins there, or if the line at `p` is nothing but a backslash. -/
theorem lexText_lineStart (d : Dialect) (hd : d.settings.styleWithinDirectives = false) (t : Text)
    {p : Nat} (hstart : t.isLineStart p = true) (hp : p < t.length)
    (hdir : (d.lexer.lexText t 0 t.length 0)[p - 1]? = some Style.directive.code) :
    let styles := d.lexer.lexText t 0 t.length 0
    ((∃ k, t.JoinsAt k ∧ t.behindJoin k = p ∧ ¬ BehindLiteral styles k) →
      (styles[p]? = some Style.directive.code ↔ ¬ t.OpensAt p)) ∧
    ((∀ k, t.JoinsAt k → t.behindJoin k = p → BehindLiteral styles k) →
      (styles[p]? = some Style.directive.code ↔ t.charAt p = '#' ∨ t.JoinsAt p)) := by
  intro styles
  -- The scan when it comes to the start of the line.
  obtain ⟨u, hu⟩ : ∃ u, u = (Scan.whole t).runTo d p := ⟨_, rfl⟩
  have hv : Scan.Visits d (Scan.whole t) u := hu ▸ .of_runTo d p _
  have hpos : u.cursor.pos = p := by
    rw [hu, (Scan.through_whole t).pos_runTo hstart (Nat.le_of_lt hp)]
    rw [Scan.Visits.pos_whole]
    exact Nat.zero_le p
  subst hpos
  have hthrough := hv.through
  have inside : u.cursor.pos < u.cursor.window.stop := hthrough.stop_eq ▸ hp
  have hs := hv.style_of_directive_before hstart hp hdir
  have hline := hthrough.atLineStart_eq hstart hp
  have hcont := hv.continued_iff hstart hp rfl hs
  -- What the next step shows at the start of the line stays.
  have hshown : styles[u.cursor.pos]? = some Style.directive.code ↔
      (u.step d).cursor.shown u.cursor.pos = Style.directive.code := by
    rw [(hv.step inside).getElem?_lexText]
    exact (hthrough.step inside).directive_iff (Scan.pos_lt_step d inside)
  rw [hshown]
  refine ⟨fun hjoin => ?_, fun hnone => ?_⟩
  · exact hthrough.directive_iff_of_continued inside hd hline hs (hcont.2 hjoin)
  · refine hthrough.directive_iff_of_not_continued inside hline hs ?_
    rw [← Bool.not_eq_true, hcont]
    rintro ⟨k, hjoin, hbehind, hopen⟩
    exact hopen (hnone k hjoin hbehind)

section Examples

/-- A directive of two lines, and a line behind it. -/
def twoLines : Text := .ofString "#a \\\nb\nc"

/-- The directive goes over the first line end, and ends at the second one. -/
theorem lexText_lineStart_twoLines :
    standard.settings.styleWithinDirectives = false ∧
      (twoLines.isLineStart 5 = true ∧ 5 < twoLines.length ∧
        (standard.lexer.lexText twoLines 0 twoLines.length 0)[4]? = some Style.directive.code ∧
        (standard.lexer.lexText twoLines 0 twoLines.length 0)[5]? = some Style.directive.code) ∧
      (twoLines.isLineStart 7 = true ∧ 7 < twoLines.length ∧
        (standard.lexer.lexText twoLines 0 twoLines.length 0)[6]? = some Style.directive.code ∧
        (standard.lexer.lexText twoLines 0 twoLines.length 0)[7]? ≠
          some Style.directive.code) := by
  have hfour : (standard.lexer.lexText twoLines 0 twoLines.length 0)[4]? =
      some Style.directive.code := by decide +kernel
  have hsix : (standard.lexer.lexText twoLines 0 twoLines.length 0)[6]? =
      some Style.directive.code := by decide +kernel
  have hopen : ¬ BehindLiteral (standard.lexer.lexText twoLines 0 twoLines.length 0) 3 := by
    decide +kernel
  refine ⟨rfl, ⟨by decide, by decide, hfour, ?_⟩, by decide, by decide, hsix, ?_⟩
  · have hjoined :=
      (lexText_lineStart standard rfl twoLines (p := 5) (by decide) (by decide) hfour).1
    exact (hjoined ⟨3, by decide, by decide, hopen⟩).2 (by decide)
  · have hended :=
      (lexText_lineStart standard rfl twoLines (p := 7) (by decide) (by decide) hsix).2
    rw [ne_eq, hended]
    · decide
    · intro k hjoin hbehind
      rcases twoLines.behindJoin_cases k with ⟨hk, -⟩ | ⟨hk, -⟩
      · rw [show k = 4 by omega] at hjoin
        exact absurd hjoin (by decide)
      · rw [show k = 5 by omega] at hjoin
        exact absurd hjoin (by decide)

/-- A directive that ends in a string, with a backslash behind it. -/
def stringLast : Text := .ofString "#a \"b\"\\\nc"

/-- **A backslash right behind a string is passed together with its closing quote**, so
    that the directive does not go over the line end. -/
theorem lexText_lineStart_stringLast :
    stringLast.isLineStart 8 = true ∧ stringLast.JoinsAt 6 ∧ stringLast.behindJoin 6 = 8 ∧
      ¬ stringLast.OpensAt 8 ∧
      standard.lexer.lexText stringLast 0 stringLast.length 0 =
        #[9, 9, 9, 6, 6, 6, 9, 9, 11] := by
  refine ⟨by decide, by decide, by decide, by decide, by decide +kernel⟩

-- A line of a backslash alone is passed before the directive is asked how it ends.
example : standard.lexer.lexText (.ofString "#a\n\\\nb") 0 6 0 = #[9, 9, 9, 9, 9, 9] := by
  decide +kernel

end Examples

end Dialect

end CFamily

end StyledText
