/-
  Operators and the line ends behind them.

  An operator is one character.  The style of an operator ends before the next character,
  but a backslash at the end of a line is passed, together with the line end, before the
  scan asks how the style at hand ends.  So an operator right before such a backslash is
  followed by the line end in its own style, and by the line ends of further lines that
  are nothing but a backslash.

  * `Text.InJoin`: a character that belongs to a joined line end;
  * `Visits.behindOperator`: what a scan shows behind it as an operator, by induction on its
    steps;
  * `Dialect.lexText_operator`: what a text shows as an operator is one, or belongs to
    joined line ends behind one;
  * `Dialect.lexText_operator_lineEnd`: a line end in the style of an operator.
-/
import StyledText.Proofs.Passing

namespace StyledText

/-- The character at `q` belongs to a line end with a backslash before it. -/
def Text.InJoin (t : Text) (q : Nat) : Prop := ∃ k, t.JoinsAt k ∧ k ≤ q ∧ q < t.behindJoin k

namespace CFamily

/-- The character at `q` is an operator, or only joined line ends stand between it and one,
    and it belongs to them. -/
def BehindOperator (t : Text) (q : Nat) : Prop :=
  ∃ o ≤ q, isOperator (t.charAt o) = true ∧ ∀ r, o < r → r ≤ q → t.InJoin r

theorem Enter.eq_operator {what : Enter} (h : what.style = .operator) : what = .operator := by
  cases what with
  | operator => rfl
  | blockComment doc | lineComment doc => cases doc <;> cases h
  | literal l => cases l <;> cases h
  | _ => cases h

namespace Scan

variable {d : Dialect} {t : Text} {s u : Scan} {p q : Nat}

/-- The style of an operator ends before the next character, whatever it is. -/
theorem leaveStyle_of_operator (hs : s.style = .operator) : s.leaveStyle d = s.switchTo .plain :=
  leaveStyle_of_switch (by rw [leaving, hs]; rfl)

/-- No style ends in that of an operator. -/
theorem style_leaveStyle_ne_operator (hm : s.memory.Sane) :
    (s.leaveStyle d).style ≠ .operator := by
  intro hs
  have hcases := style_leaveStyle_cases (d := d) hm
  rw [hs] at hcases
  rcases hcases with ⟨hsame, -⟩ | h | ⟨h, -⟩ | ⟨h, -⟩ | ⟨h, -⟩ | ⟨l, h, -⟩ | ⟨h, -⟩
  · rw [leaveStyle_of_operator hsame.symm, style_switchTo] at hs
    cases hs
  · cases h
  · cases h
  · cases h
  · rcases hm.docStyle with hd | hd <;> rw [hd] at h <;> cases h
  · cases l <;> cases h
  · cases h

/-- An operator that begins is one. -/
theorem Enters.isOperator_charAt (h : s.Enters d t .operator p) :
    isOperator (t.charAt p) = true := by
  have hleft := h.through_left
  have inside := pos_lt_of_entering? h.entering?_eq
  have hch : isOperator (s.beginLine.leaveStyle d).cursor.ch = true := h.meets
  rwa [hleft.sees.ch_eq inside, hleft.charOrSpace_eq_charAt (hleft.stop_eq ▸ inside),
    h.pos_eq] at hch

/-- **All that a scan has passed and that is shown as an operator is behind one.**  By
    induction on the steps: only a joined line end is passed in the style of an operator
    that has begun before. -/
theorem Visits.behindOperator (hv : Visits d (whole t) u) (hlt : q < u.cursor.pos)
    (hq : d.styleAt t q = .operator) : BehindOperator t q := by
  induction hv generalizing q with
  | refl =>
    rw [pos_whole] at hlt
    exact absurd hlt (Nat.not_lt_zero q)
  | @step s hv inside ih =>
    rcases Nat.lt_or_ge q s.cursor.pos with hbefore | hle
    · exact ih hbefore hq
    obtain ⟨style, hpasses, hfamily⟩ := hv.exists_passes inside hle hlt
    rw [hq] at hfamily
    have hstyle : style = .operator := Style.eq_of_isAlone rfl hfamily.symm
    cases hpasses with
    | joined hjoin hend =>
      -- The operator stands right before the backslash, or before line ends joined to it.
      obtain ⟨hpos, hlast⟩ := hv.family_before inside (by rw [hstyle]; decide)
      rw [hstyle] at hlast
      obtain ⟨o, ho, hoperator, hjoined⟩ :=
        ih (q := s.cursor.pos - 1) (by omega) (Style.eq_of_isAlone rfl hlast)
      refine ⟨o, by omega, hoperator, ?_⟩
      intro r hr hrq
      rcases Nat.lt_or_ge r s.cursor.pos with hold | hnew
      · exact hjoined r hr (by omega)
      · exact ⟨s.cursor.pos, hjoin, hnew, Nat.lt_of_le_of_lt hrq hend⟩
    | left hover hend =>
      rw [leaveStyle_of_operator (style_beginLine.trans hstyle)] at hend
      exact absurd (Nat.lt_of_lt_of_eq hend pos_beginLine) (Nat.not_lt.2 hle)
    | kept hover hnone hpos =>
      exact absurd hstyle (style_leaveStyle_ne_operator hv.through.beginLine.tidy.sane)
    | entered h hle' =>
      obtain rfl := Enter.eq_operator hstyle
      have hstop := h.pos_step_le (by decide) rfl
      obtain rfl : q = _ := Nat.le_antisymm (by omega) hle'
      exact ⟨q, Nat.le_refl q, h.isOperator_charAt, fun r hr hrq => absurd hrq (Nat.not_le.2 hr)⟩

end Scan

namespace Dialect

/-- **What a text shows as an operator is one**, or it belongs to joined line ends right
    behind one.  So other than the backslashes and the line ends of joined lines, nothing
    but operators is in their style. -/
theorem lexText_operator (d : Dialect) (t : Text) {q : Nat}
    (hq : (d.lexer.lexText t 0 t.length 0)[q]? = some Style.operator.code) :
    BehindOperator t q := by
  obtain ⟨hlt, hstyle⟩ := getElem?_lexText_iff.1 hq
  have hv : Scan.Visits d (Scan.whole t) ((Scan.whole t).run d) := .of_run d _
  exact hv.behindOperator (Scan.lt_pos_run hlt) hstyle

section Examples

/-- An operator, and a joined line end behind it. -/
def joinedAssignment : Text := .ofString "=\\\nx"

theorem lexText_operator_joinedAssignment :
    (standard.lexer.lexText joinedAssignment 0 joinedAssignment.length 0)[2]? =
        some Style.operator.code ∧
      BehindOperator joinedAssignment 2 := by
  have hshown : (standard.lexer.lexText joinedAssignment 0 joinedAssignment.length 0)[2]? =
      some Style.operator.code := by decide +kernel
  exact ⟨hshown, lexText_operator standard joinedAssignment hshown⟩

/-- **A backslash and a line end can be in the style of an operator**, which neither is. -/
theorem lexText_operator_lineEnd :
    standard.lexer.lexText joinedAssignment 0 joinedAssignment.length 0 = #[10, 10, 10, 11] ∧
      isOperator (joinedAssignment.charAt 1) = false ∧
      isOperator (joinedAssignment.charAt 2) = false := by
  refine ⟨by decide +kernel, by decide, by decide⟩

end Examples

end Dialect

end CFamily

end StyledText
