/-
  Words in another letter case.

  A dialect without regard to letter case styles a text alike when letters of its words are put
  into the other case.  The words are runs that a scan has opened as words, behind white space
  or at the start of the text; what else a scan tells by case, keywords in comments, letters
  behind a regular expression and the word `include`, is not in them.

  One word is told from its capitals all the same: whether a keyword is `uuid` is asked of the
  word as it stands, though the list that it is found in has no regard to case.

  * `EndsWord` and `Dialect.IsWord`: where the scan of a text opens a word and closes it;
  * `Recased`: a text with words in another letter case;
  * `Recased.passed`: a changed character is passed in a word;
  * `Recased.step`: the scans of both texts take the same step;
  * `Dialect.lexText_recased`: both texts are styled alike, if the keywords that are `uuid`
    remain so and no others become so.
-/
import StyledText.Proofs.OtherLineEnds
import StyledText.Proofs.Passing
import StyledText.Proofs.QuotedLiterals
import StyledText.Proofs.Recasing
import StyledText.Proofs.WholeWords

namespace StyledText

/-- A cursor is looking at a word if it has each of its characters before it. -/
theorem Cursor.lookingAt_iff {c : Cursor} {cs : List Char} :
    c.lookingAt cs = true ↔ ∀ n x, cs[n]? = some x → c.peek n = x := by
  rw [lookingAt, List.all_eq_true]
  constructor
  · intro h n x hx
    exact beq_iff_eq.1 (h (x, n) (List.mk_mem_zipIdx_iff_getElem?.2 hx))
  · rintro h ⟨x, n⟩ hmem
    exact beq_iff_eq.2 (h n x (List.mk_mem_zipIdx_iff_getElem?.1 hmem))

namespace CFamily

theorem Enter.eq_identifier_of_family {what : Enter} (h : what.style.family = .identifier) :
    what = .identifier := by
  cases what with
  | identifier => rfl
  | blockComment doc | lineComment doc => cases doc <;> cases h
  | literal literal => cases literal <;> cases h
  | _ => cases h

namespace Scan

variable {d : Dialect} {t : Text} {r s u v : Scan} {a e p q : Nat}

/-! ## The words of a text -/

/-- **Of two scans that a scan comes to, one comes to the other.** -/
theorem Visits.total (h : Visits d r s) (h' : Visits d r u) : Visits d s u ∨ Visits d u s := by
  induction h with
  | refl => exact .inl h'
  | step _ inside ih =>
    rcases ih with hlater | hearlier
    · rcases hlater.eq_or_step with rfl | ⟨-, hstep⟩
      · exact .inr (.step .refl inside)
      · exact .inl hstep
    · exact .inr (hearlier.step inside)

/-- Of two scans on the way, the one that is not behind the other comes later, or they are the
    same. -/
theorem Visits.of_pos_le (h : Visits d r s) (h' : Visits d r u)
    (hle : s.cursor.pos ≤ u.cursor.pos) : Visits d s u := by
  rcases h.total h' with hlater | hearlier
  · exact hlater
  · rcases hearlier.eq_or_step with rfl | ⟨inside, hstep⟩
    · exact .refl
    · have hlt := Nat.lt_of_lt_of_le (pos_lt_step d inside) hstep.reaches.pos_le
      exact absurd hle (Nat.not_le.2 hlt)

/-- The cursor of a scan of the whole text sees the text at all times. -/
theorem Visits.cursor_whole (hv : Visits d (whole t) v) : v.cursor.Whole :=
  hv.reaches.whole (.ofWindow (Window.onText_ofText t))

/-- A cursor that moves on opens no run before the one that was open. -/
theorem Reaches.boundary_le {c c' : Cursor} (h : Reaches c c') :
    c.window.boundary ≤ c'.window.boundary := by
  induction h with
  | refl => exact Nat.le_refl _
  | advance _ ih => rwa [Cursor.window_advance]
  | switchTo _ next ih =>
    rw [Cursor.switchTo, Window.boundary_commitBefore]
    exact Nat.le_trans ih (Nat.le_max_left _ _)
  | recolour _ _ ih => exact ih

/-- **The scan of the whole of `t` is at the end of a word** that it has opened at `a`. -/
structure EndsWord (d : Dialect) (t : Text) (a : Nat) (v : Scan) : Prop where
  opened : ∃ s : Scan, s.Enters d t .identifier a ∧ Visits d (s.step d) v
  within : v.Within .identifier a
  ends : isIdentifierChar d.settings v.cursor.ch = false
  unjoined : ¬ t.JoinsAt v.cursor.pos

theorem EndsWord.visits (h : v.EndsWord d t a) : Visits d (whole t) v := by
  obtain ⟨s, hopens, hv⟩ := h.opened
  exact (hopens.visits.step hopens.inside).trans hv

/-- Every run of a word has been opened as one. -/
theorem Visits.endsWord (hv : Visits d (whole t) v) (hw : v.Within .identifier a)
    (hends : isIdentifierChar d.settings v.cursor.ch = false)
    (hjoin : ¬ t.JoinsAt v.cursor.pos) : v.EndsWord d t a := by
  have hplain : ¬ (whole t).Within .identifier a := by
    intro h
    have hsame : Style.plain = .identifier := (Style.ofCode_code .plain).symm.trans h.style_eq
    cases hsame
  obtain ⟨s, hs, inside, hbegins, hlater⟩ :=
    hv.begins_of_within (through_whole t).tidy (through_whole t).covers rfl hplain hw
  cases hbegins with
  | word hpos hover hwhat => exact ⟨⟨s, ⟨hs, inside, hover, hwhat, hpos⟩, hlater⟩, hw, hends, hjoin⟩

/-- The characters of a word are shown as one. -/
theorem EndsWord.family_eq (h : v.EndsWord d t a) (ha : a ≤ q) (hq : q < v.cursor.pos) :
    (d.styleAt t q).family = .identifier := by
  rw [h.visits.family_eq hq, Cursor.shown_of_boundary_le (h.within.boundary_eq ▸ ha)]
  exact congrArg Style.family h.within.style_eq

/-- **A word that begins within a word is that word.** -/
theorem EndsWord.eq_of_enters (h : v.EndsWord d t a) (hs : s.Enters d t .identifier p)
    (ha : a ≤ p) (hp : p < v.cursor.pos) : a = p := by
  have hstep : (s.step d).Within .identifier p ∧ (s.step d).cursor.pos = p + 1 := by
    obtain ⟨hwithin, hpos, -⟩ := (Begins.word hs.pos_eq hs.hover hs.entering?_eq).step
      hs.through.sees hs.through.covers hs.inside
    exact ⟨hwithin, hpos⟩
  have hlater : Visits d (s.step d) v :=
    (hs.visits.step hs.inside).of_pos_le h.visits (hstep.2 ▸ hp)
  have hle := hlater.reaches.boundary_le
  rw [hstep.1.boundary_eq, h.within.boundary_eq] at hle
  exact Nat.le_antisymm ha hle

/-! ## Keywords in comments -/

/-- **Where a keyword of a comment goes on or ends, no word begins**: the scan stays in the
    comment, or it passes the mark that closes it. -/
theorem leaveStyle_of_docKeyword (hm : s.memory.Sane) (hs : s.style = .docKeyword) :
    (s.leaveStyle d).style.family ≠ .identifier ∧
      (s.cursor.pos < s.cursor.window.stop → (s.leaveStyle d).style = .plain →
        s.cursor.pos < (s.leaveStyle d).cursor.pos) := by
  rw [leaveStyle, style_applyLeave]
  rcases leaving_of_docKeyword (d := d) hs with ⟨hhow, -⟩ | hhow | hhow <;> rw [hhow]
  · rw [styleAfter, hs]
    exact ⟨by decide, fun _ hplain => by cases hplain⟩
  · refine ⟨(by decide : Style.plain.family ≠ .identifier), fun inside _ => ?_⟩
    exact (Reaches.refl.recolour .docKeywordError).pos_lt (Reaches.refl.advance.switchTo .plain)
      inside
  · rw [styleAfter]
    rcases hm.docStyle with hdoc | hdoc <;> rw [hdoc] <;>
      exact ⟨by decide, fun _ hplain => by cases hplain⟩

/-! ## The word of a directive -/

/-- **A directive goes on with its letters.** -/
theorem step_of_directive_letter (hs : s.style = .directive)
    (hstart : s.cursor.atLineStart = false) (hch : isLetter s.cursor.ch = true) :
    s.leaveStyle d = s ∧ s.beginLine = s ∧ s.step d = s.passChar := by
  have hbegin : s.beginLine = s := beginLine_of_not_atLineStart hstart
  have hne {x : Char} (hx : isLetter x = false) : (s.cursor.ch == x) = false :=
    beq_eq_false_of_isLetter hch hx
  have hcont : s.atContinuation = false := by
    rw [atContinuation, hne (by decide), Bool.false_and]
  have hhow : s.leaving d = .stay := by
    rw [leaving, hs, leave, leaveDirective]
    simp only [Cursor.surroundings, hstart, not_isSpace_of_isLetter hch, hne (x := '/') (by decide),
      hne (x := '"') (by decide), hne (x := '<') (by decide), hne (x := '\'') (by decide)]
    simp
  have hleft : s.leaveStyle d = s := leaveStyle_of_stay hhow
  refine ⟨hleft, hbegin, ?_⟩
  have hnone : s.entering? d = none := entering?_of_style_ne (by rw [hs]; decide)
  rw [step_of_not_atContinuation (by rwa [hbegin]), hbegin, hleft, enterAndPass_of_none hnone]

/-- The word of a directive stands behind the mark. -/
theorem pos_lt_directiveWord (inside : s.cursor.pos < s.cursor.window.stop) :
    s.cursor.pos < s.directiveWord.cursor.pos :=
  (Reaches.refl.switchTo .directive).pos_lt (Reaches.refl.skipWhile isBlank) inside

end Scan

/-- **The word `[a, e)` of a text**: its scan opens a word at `a` and comes to its end at `e`. -/
def Dialect.IsWord (d : Dialect) (t : Text) (a e : Nat) : Prop :=
  ∃ v : Scan, v.EndsWord d t a ∧ v.cursor.pos = e

/-- **The text `t'` is `t` with words in another letter case**: words that stand at the start of
    the text or behind white space. -/
structure Recased (d : Dialect) (t t' : Text) : Prop where
  length_eq : t'.length = t.length
  upToCase : ∀ q, UpToCase (t.charAt q) (t'.charAt q)
  eq_or_word : ∀ q, t'.charAt q = t.charAt q ∨
    ∃ a e, d.IsWord t a e ∧ a ≤ q ∧ q < e ∧
      (a = 0 ∨ Unicode.isWhiteSpace (t.charAt (a - 1)) = true)

/-- **The keywords that are `uuid` remain so**, and no others become so. -/
def KeepsUuid (d : Dialect) (t t' : Text) : Prop :=
  ∀ a e, d.IsWord t a e → d.vocabulary.primary.contains (t.extract a e).toList = true →
    ((t'.extract a e).toList = ['u', 'u', 'i', 'd'] ↔ (t.extract a e).toList = ['u', 'u', 'i', 'd'])

/-- A word lies within the text. -/
theorem Dialect.IsWord.le {d : Dialect} {t : Text} {a e : Nat} (h : d.IsWord t a e) :
    a ≤ e ∧ e ≤ t.length := by
  obtain ⟨v, hv, rfl⟩ := h
  have hcovers := hv.visits.through.covers
  refine ⟨?_, hv.visits.through.stop_eq ▸ hcovers.pos_le⟩
  rw [← hv.within.boundary_eq]
  exact hcovers.boundary_le

namespace Recased

variable {d : Dialect} {t t' : Text} {s s' v : Scan} {a e p q : Nat}

open Scan

/-! ## Where the texts are the same -/

/-- What is not shown as a word is unchanged. -/
theorem eq_of_family (hr : Recased d t t') (hf : (d.styleAt t q).family ≠ .identifier) :
    t'.charAt q = t.charAt q := by
  rcases hr.eq_or_word q with heq | ⟨a, e, ⟨v, hv, rfl⟩, ha, hq, -⟩
  · exact heq
  · exact absurd (hv.family_eq ha hq) hf

/-- A word that stands behind something else than white space begins with the same letter. -/
theorem eq_of_enters (hr : Recased d t t') (hs : s.Enters d t .identifier p) (hp : 0 < p)
    (hw : Unicode.isWhiteSpace (t.charAt (p - 1)) = false) : t'.charAt p = t.charAt p := by
  rcases hr.eq_or_word p with heq | ⟨a, e, ⟨v, hv, rfl⟩, ha, hq, hfirst⟩
  · exact heq
  · obtain rfl := hv.eq_of_enters hs ha hq
    rcases hfirst with h0 | hspace
    · omega
    · rw [hw] at hspace
      cases hspace

/-- **A changed character is passed in a word**, or it begins one. -/
theorem passed (hr : Recased d t t') (hne : t'.charAt q ≠ t.charAt q)
    (hv : Visits d (whole t) s) (inside : s.cursor.pos < s.cursor.window.stop)
    (hle : s.cursor.pos ≤ q) (hlt : q < (s.step d).cursor.pos) :
    s.style.family = .identifier ∨ (s.beginLine.leaveStyle d).style.family = .identifier ∨
      s.Enters d t .identifier q := by
  have hf : (d.styleAt t q).family = .identifier := by
    by_contra hf
    exact hne (hr.eq_of_family hf)
  obtain ⟨style, hpasses, hfamily⟩ := hv.exists_passes inside hle hlt
  rw [hf] at hfamily
  cases hpasses with
  | joined | left => exact .inl hfamily.symm
  | kept => exact .inr (.inl hfamily.symm)
  | @entered what p h hpq =>
    obtain rfl := Enter.eq_identifier_of_family hfamily.symm
    have hend := h.pos_step_le (by decide) rfl
    obtain rfl : p = q := by omega
    exact .inr (.inr h)

theorem charOrSpace_eq (hr : Recased d t t') (h : Through t s) (h' : Through t' s')
    (heq : t'.charAt q = t.charAt q) :
    s'.cursor.window.charOrSpace q = s.cursor.window.charOrSpace q := by
  rcases Nat.lt_or_ge q t.length with hlt | hge
  · rw [h.charOrSpace_eq_charAt hlt, h'.charOrSpace_eq_charAt (hr.length_eq.symm ▸ hlt), heq]
  · have hge' : t'.length ≤ q := hr.length_eq ▸ hge
    rw [h.char_eq, h'.char_eq, Array.getElem?_eq_none hge, Array.getElem?_eq_none hge']

/-! ## Keywords in comments -/

/-- The character at which a keyword goes on or ends is unchanged. -/
theorem eq_of_docKeyword (hr : Recased d t t') (hv : Visits d (whole t) s)
    (inside : s.cursor.pos < s.cursor.window.stop) (hs : s.style = .docKeyword) :
    t'.charAt s.cursor.pos = t.charAt s.cursor.pos := by
  by_contra hne
  obtain ⟨hleft, hbroken⟩ := leaveStyle_of_docKeyword (d := d) hv.through.beginLine.tidy.sane
    (style_beginLine.trans hs)
  rcases hr.passed hne hv inside (Nat.le_refl _) (pos_lt_step d inside) with hf | hf | henters
  · rw [hs] at hf
    cases hf
  · exact hleft hf
  · have hmoved := hbroken (inside_beginLine inside) (style_of_entering? henters.entering?_eq)
    rw [henters.pos_eq, pos_beginLine] at hmoved
    exact absurd hmoved (Nat.lt_irrefl _)

/-- A keyword has the same text in both texts. -/
theorem openRun_of_docKeyword (hr : Recased d t t') (hv : Visits d (whole t) s)
    (hv' : Visits d (whole t') s') (h : s.UpToCase s') (hs : s.style = .docKeyword) :
    s'.cursor.openRun = s.cursor.openRun := by
  have hpos : s.cursor.pos ≤ t.length := hv.through.stop_eq ▸ hv.through.covers.pos_le
  rw [Cursor.openRun, Cursor.openRun, h.cursor.boundary_eq, h.cursor.pos_eq,
    hv.textRange_eq hpos, hv'.textRange_eq (hr.length_eq ▸ hpos),
    Text.toList_extract_eq_map hpos, Text.toList_extract_eq_map (hr.length_eq ▸ hpos)]
  refine List.map_congr_left fun q hq => hr.eq_of_family ?_
  obtain ⟨hb, hlt⟩ := List.mem_range'_1.1 hq
  rw [hv.family_eq (by omega), Cursor.shown_of_boundary_le hb]
  show s.style.family ≠ .identifier
  rw [hs]
  decide

/-! ## Letters behind a regular expression -/

/-- Behind the slash that closes a regular expression all is unchanged, as far as letters
    follow and one character more. -/
theorem eq_of_closeRegex (hr : Recased d t t') (hv : Visits d (whole t) s)
    (inside : s.cursor.pos < s.cursor.window.stop) (hover : s.beginLine.atContinuation = false)
    (hhow : s.beginLine.leaving d = .closeRegex) (hq : s.cursor.pos < q)
    (hle : q ≤ (s.beginLine.leaveStyle d).cursor.pos) : t'.charAt q = t.charAt q := by
  have hmeets := leaving_meets (d := d) (s := s)
  rw [hhow] at hmeets
  obtain ⟨hs, hslash⟩ := hmeets
  rcases Nat.lt_or_eq_of_le hle with hlt | rfl
  · refine hr.eq_of_family ?_
    rw [hv.family_of_left inside (Nat.le_of_lt hq) hlt hover, hs]
    decide
  by_contra hne
  have hthrough := hv.through
  have hreach := reaches_leaveStyle d s
  have hin : (s.beginLine.leaveStyle d).cursor.pos < t.length := by
    by_contra hge
    have hge := Nat.le_of_not_lt hge
    exact hne (by rw [Text.charAt_of_length_le hge, Text.charAt_of_length_le (hr.length_eq ▸ hge)])
  have hlt : (s.beginLine.leaveStyle d).cursor.pos < (s.step d).cursor.pos := by
    obtain ⟨c, hc, hc'⟩ := enterAndPass_moves d (s.beginLine.leaveStyle d)
    rw [step_of_not_atContinuation hover]
    exact hc.pos_lt hc' (by rwa [hreach.stop_eq, hthrough.stop_eq])
  rcases hr.passed hne hv inside (Nat.le_of_lt hq) hlt with hf | hf | henters
  · rw [hs] at hf
    cases hf
  · rw [leaveStyle, style_applyLeave, hhow] at hf
    cases hf
  -- A word that begins there stands behind the slash or behind a letter.
  · refine hne (hr.eq_of_enters henters (Nat.zero_lt_of_lt hq) ?_)
    generalize hk : (s.beginLine.leaveStyle d).cursor.pos = k at hq hin
    have hcursor : s.beginLine.cursor = s.cursor :=
      cursor_beginLine (by rw [hs]; decide) (by rw [hs]; decide)
    have hadvance : s.cursor.advance.pos = s.cursor.pos + 1 := by
      rw [Cursor.pos_advance, if_pos inside]
    have hskip : (s.cursor.advance.skipWhile isSmallLetter).pos = k := by
      rw [← hk, leaveStyle, hhow, ← hcursor]
      rfl
    rcases Nat.lt_or_eq_of_le (Nat.le_sub_one_of_lt hq) with hletter | heq
    · have hsmall := Cursor.accepts_of_skipWhile isSmallLetter (q := k - 1)
        hthrough.sees.advance (by omega) (by omega)
      rw [Cursor.window_advance, hthrough.charOrSpace_eq_charAt (by omega)] at hsmall
      exact not_isWhiteSpace_of_isSmallLetter hsmall
    · rw [hcursor] at hslash
      rw [← heq, (hthrough.ch_eq_iff inside (by decide) (by decide)).1 hslash]
      rfl

/-! ## Directives that include a file -/

/-- The letters at the beginning of a directive are unchanged. -/
theorem eq_of_directive_letters (hr : Recased d t t') (m : Nat) {u : Scan}
    (hv : Visits d (whole t) u) (hs : u.style = .directive) (hstart : u.cursor.atLineStart = false)
    (hletters : ∀ j < m, isLetter (t.charAt (u.cursor.pos + j)) = true) :
    ∀ j < m, t'.charAt (u.cursor.pos + j) = t.charAt (u.cursor.pos + j) := by
  induction m generalizing u with
  | zero => exact fun j hj => absurd hj (Nat.not_lt_zero j)
  | succ m ih =>
    have hthrough := hv.through
    have hletter : isLetter (t.charAt u.cursor.pos) = true := hletters 0 (Nat.succ_pos m)
    have hlt : u.cursor.pos < t.length := by
      by_contra hge
      rw [Text.charAt_of_length_le (Nat.le_of_not_lt hge)] at hletter
      cases hletter
    have inside : u.cursor.pos < u.cursor.window.stop := hthrough.stop_eq ▸ hlt
    have hch : isLetter u.cursor.ch = true := by
      rwa [hthrough.sees.ch_eq inside, hthrough.charOrSpace_eq_charAt hlt]
    obtain ⟨hleft, hbegin, hstep⟩ := step_of_directive_letter (d := d) hs hstart hch
    have hpos : (u.step d).cursor.pos = u.cursor.pos + 1 := by
      rw [hstep, cursor_passChar, Cursor.pos_advance, if_pos inside]
    have hstart' : (u.step d).cursor.atLineStart = false := by
      rw [hstep, cursor_passChar, Cursor.advance_of_lt inside]
      show u.cursor.atLineEnd = false
      rw [hthrough.toReads.atLineEnd_eq_isLineStart inside, ← Bool.not_eq_true]
      intro hline
      have hbreak := Text.isLineBreak_before hline
      have hspace := isSpace_of_isLineBreak hbreak
      rw [Nat.add_sub_cancel, not_isSpace_of_isLetter hletter] at hspace
      cases hspace
    rintro (_ | j) hj
    · by_contra hne
      rcases hr.passed hne hv inside (Nat.le_refl _) (pos_lt_step d inside) with hf | hf | henters
      · rw [hs] at hf
        cases hf
      · rw [hbegin, hleft, hs] at hf
        cases hf
      · have hplain := style_of_entering? henters.entering?_eq
        rw [hbegin, hleft, hs] at hplain
        cases hplain
    · have hlater := ih (hv.step inside) (by rw [hstep, style_passChar, hs]) hstart' (fun j hj => by
        rw [hpos, Nat.add_right_comm]
        exact hletters (j + 1) (Nat.succ_lt_succ hj)) j (Nat.lt_of_succ_lt_succ hj)
      rwa [hpos, Nat.add_right_comm] at hlater

/-- **Both directives include a file, or neither does.** -/
theorem lookingAt_include (hr : Recased d t t') (h : Through t s) (h' : Through t' s')
    {u : Scan} (hv : Visits d (whole t) u) (hs : u.style = .directive)
    (hstart : u.cursor.atLineStart = false) (hpos : s.cursor.pos = u.cursor.pos)
    (hpos' : s'.cursor.pos = s.cursor.pos) :
    s'.cursor.lookingAt ['i', 'n', 'c', 'l', 'u', 'd', 'e'] =
      s.cursor.lookingAt ['i', 'n', 'c', 'l', 'u', 'd', 'e'] := by
  have hsmall : ∀ (n : Nat) (x : Char), ['i', 'n', 'c', 'l', 'u', 'd', 'e'][n]? = some x →
      isLetter x = true := by
    intro n x hx
    have hall : ['i', 'n', 'c', 'l', 'u', 'd', 'e'].all isLetter = true := rfl
    exact List.all_eq_true.1 hall x (List.mem_of_getElem? hx)
  by_cases hletters : ∀ j < 7, isLetter (t.charAt (u.cursor.pos + j)) = true
  · have heq := hr.eq_of_directive_letters 7 hv hs hstart hletters
    rw [Bool.eq_iff_iff, Cursor.lookingAt_iff, Cursor.lookingAt_iff]
    refine forall₃_congr fun n x hx => ?_
    have hn : n < 7 := (List.getElem?_eq_some_iff.1 hx).1
    rw [Cursor.peek, Cursor.peek, hpos', hpos, hr.charOrSpace_eq h h' (heq n hn)]
  · -- Where there is no letter, there is none in either case.
    obtain ⟨j, hj, hother⟩ : ∃ j < 7, isLetter (t.charAt (u.cursor.pos + j)) ≠ true := by
      simpa only [not_forall, exists_prop] using hletters
    obtain ⟨x, hx⟩ : ∃ x, ['i', 'n', 'c', 'l', 'u', 'd', 'e'][j]? = some x :=
      ⟨_, List.getElem?_eq_getElem hj⟩
    have hother' : isLetter (t'.charAt (u.cursor.pos + j)) ≠ true := by
      rwa [(hr.upToCase _).apply isLetter (by decide)]
    have hnot {w : Scan} {text : Text} (hw : Through text w)
        (hch : isLetter (text.charAt (w.cursor.pos + j)) ≠ true) :
        w.cursor.lookingAt ['i', 'n', 'c', 'l', 'u', 'd', 'e'] = false := by
      rw [← Bool.not_eq_true]
      intro hlook
      have hpeek : w.cursor.window.charOrSpace (w.cursor.pos + j) = x :=
        Cursor.lookingAt_iff.1 hlook j x hx
      rw [← hw.toReads.apply_charOrSpace isLetter (by decide), hpeek] at hch
      exact hch (hsmall j x hx)
    rw [hnot h (hpos ▸ hother), hnot h' (hpos' ▸ hpos ▸ hother')]

/-- So it is where a directive is opened and goes on. -/
theorem directiveWord (hr : Recased d t t') (h : s.UpToCase s') (hs : Through t s)
    (hs' : Through t' s') (hv : Visits d (whole t) s.openDirective)
    (hwhat : s.entering? d = some .directive) (hopen : s.directiveWord.cursor.atLineEnd = false) :
    s'.directiveWord.cursor.lookingAt ['i', 'n', 'c', 'l', 'u', 'd', 'e'] =
      s.directiveWord.cursor.lookingAt ['i', 'n', 'c', 'l', 'u', 'd', 'e'] := by
  have hword {v : Scan} {text : Text} (hv : Through text v) : Through text v.directiveWord :=
    have hreach : Reaches v.cursor v.directiveWord.cursor :=
      (Reaches.refl.switchTo .directive).advance.skipWhile isBlank
    hv.move hreach (hv.tidy.move hreach hv.tidy.sane rfl rfl)
  have hcursor : s.openDirective.cursor = s.directiveWord.cursor := by
    rw [openDirective_eq, hopen, if_neg Bool.false_ne_true]
    split <;> rfl
  have hstyle : s.openDirective.style = .directive := by
    rw [style, hcursor]
    exact (style_skipWhile _ _).trans (style_advance.trans style_switchTo)
  have inside : s.directiveWord.cursor.pos < s.directiveWord.cursor.window.stop := by
    by_contra hend
    rw [← hcursor, hv.cursor_whole.atLineEnd_eq, Cursor.endsLine, hcursor, Bool.or_eq_false_iff,
      decide_eq_false_iff_not] at hopen
    exact hopen.2 (Nat.le_of_not_lt hend)
  have hmark := hs.before_directiveWord hwhat
  have hstart : s.directiveWord.cursor.atLineStart = false := by
    have hpos : 0 < s.directiveWord.cursor.pos :=
      Nat.lt_of_le_of_lt (Nat.zero_le _) (pos_lt_directiveWord (pos_lt_of_entering? hwhat))
    rw [(hword hs).atLineStart_eq_isLineStart hpos inside, ← Bool.not_eq_true]
    intro hline
    have hbreak := Text.isLineBreak_before hline
    rw [(ne_backslash_of_isBlank hmark).2] at hbreak
    cases hbreak
  exact hr.lookingAt_include (hword hs) (hword hs') hv hstyle (hcursor ▸ hstart)
    (congrArg Cursor.pos hcursor.symm) (h.directiveWord hs.sees hs'.sees).cursor.pos_eq

/-! ## Words -/

/-- The text of a word is the same but for letter case. -/
theorem map_toLower_extract (hr : Recased d t t') (he : e ≤ t.length) :
    (t'.extract a e).toList.map Char.toLower = (t.extract a e).toList.map Char.toLower := by
  rw [Text.toList_extract_eq_map he, Text.toList_extract_eq_map (hr.length_eq ▸ he), List.map_map,
    List.map_map]
  exact List.map_congr_left fun q _ => hr.upToCase q

/-- **If no keyword is `uuid`, all keywords remain what they are.** -/
theorem keepsUuid (hr : Recased d t t') (hd : d.vocabulary.IsCaseless)
    (hno : d.vocabulary.primary.contains ['u', 'u', 'i', 'd'] = false) : KeepsUuid d t t' := by
  intro a e hword hin
  have hin' : d.vocabulary.primary.contains (t'.extract a e).toList = true :=
    (WordSet.contains_eq (hd .primary) (hr.map_toLower_extract hword.le.2)).trans hin
  refine iff_of_false (fun huuid => ?_) fun huuid => ?_
  · rw [huuid, hno] at hin'
    cases hin'
  · rw [huuid, hno] at hin
    cases hin

/-- **A word is looked up with the same result in both texts.** -/
theorem agrees_endWord (hr : Recased d t t') (hd : d.vocabulary.IsCaseless)
    (hkeeps : KeepsUuid d t t') (hv : Visits d (whole t) s) (hv' : Visits d (whole t') s')
    (h : s.UpToCase s') (hs : s.style = .identifier)
    (hends : isIdentifierChar d.settings s.cursor.ch = false)
    (hjoin : ¬ t.JoinsAt s.cursor.pos) : Agrees d s s' .endWord := by
  have hpos : s.cursor.pos ≤ t.length := hv.through.stop_eq ▸ hv.through.covers.pos_le
  have hword : s.cursor.openRun =
      (t.extract s.cursor.window.boundary s.cursor.pos).toList := hv.textRange_eq hpos
  have hword' : s'.cursor.openRun =
      (t'.extract s.cursor.window.boundary s.cursor.pos).toList := by
    rw [Cursor.openRun, h.cursor.boundary_eq, h.cursor.pos_eq,
      hv'.textRange_eq (hr.length_eq ▸ hpos)]
  have hlower : s'.cursor.openRun.map Char.toLower = s.cursor.openRun.map Char.toLower := by
    rw [hword, hword', hr.map_toLower_extract hpos]
  refine ⟨hd.classify?_eq hlower, WordSet.contains_eq (hd .primary) hlower, ?_⟩
  rw [hword, hword']
  exact hkeeps _ _ ⟨s, hv.endsWord ⟨hs, rfl⟩ hends hjoin, rfl⟩

/-! ## Both scans -/

/-- **Both scans tell alike what ends.** -/
theorem agrees_leaving (hr : Recased d t t') (hd : d.vocabulary.IsCaseless)
    (hkeeps : KeepsUuid d t t') (hv : Visits d (whole t) s) (hv' : Visits d (whole t') s')
    (h : s.UpToCase s') (inside : s.cursor.pos < s.cursor.window.stop)
    (hjoin : ¬ t.JoinsAt s.cursor.pos) :
    Agrees d s.beginLine s'.beginLine (s.beginLine.leaving d) := by
  have hthrough := hv.through
  have hover := hthrough.not_atContinuation inside hjoin
  have hf : (s.beginLine.leaving d).Fits s.beginLine.style s.beginLine.cursor.surroundings :=
    leave_fits hthrough.beginLine.tidy.sane
  have hcursor (hl : s.style.isLookedUp = true) :
      s.beginLine.cursor = s.cursor ∧ s'.beginLine.cursor = s'.cursor :=
    ⟨cursor_beginLine_of_isLookedUp hl, cursor_beginLine_of_isLookedUp (h.style_eq ▸ hl)⟩
  rw [style_beginLine] at hf
  cases hhow : s.beginLine.leaving d with
  | endWord =>
    rw [hhow] at hf
    have hs : s.style = .identifier := hf
    obtain ⟨hsame, hsame'⟩ := hcursor (by rw [hs]; rfl)
    have hends : isIdentifierChar d.settings s.cursor.ch = false := by
      rw [← Bool.not_eq_true]
      intro hch
      rw [leaving, style_beginLine, hs, hsame] at hhow
      have hstays : Leave.stay = .endWord := (if_pos hch).symm.trans hhow
      cases hstays
    have hagrees := hr.agrees_endWord hd hkeeps hv hv' h hs hends hjoin
    rw [Agrees, ← hsame, ← hsame'] at hagrees
    exact hagrees
  | closeDocKeyword =>
    rw [hhow] at hf
    have hs : s.style = .docKeyword := hf
    obtain ⟨hsame, hsame'⟩ := hcursor (by rw [hs]; rfl)
    rw [Agrees, hsame, hsame']
    exact hr.openRun_of_docKeyword hv hv' h hs
  | closeRegex =>
    have hmeets := leaving_meets (d := d) (s := s)
    rw [hhow] at hmeets
    have hbegin : s.beginLine.cursor.pos = s.cursor.pos := pos_beginLine
    have hadvance : s.beginLine.cursor.advance.pos = s.cursor.pos + 1 := by
      rw [Cursor.pos_advance, if_pos (inside_beginLine inside), hbegin]
    have hleft : (s.beginLine.leaveStyle d).cursor.pos =
        (s.beginLine.cursor.advance.skipWhile isSmallLetter).pos := by
      rw [leaveStyle, hhow]
      rfl
    intro q hq hle
    rw [hr.charOrSpace_eq hthrough.beginLine hv'.through.beginLine]
    exact hr.eq_of_closeRegex hv inside hover hhow (by omega) (hleft ▸ hle)
  | _ => trivial

theorem leaveStyle (hr : Recased d t t') (hd : d.vocabulary.IsCaseless)
    (hkeeps : KeepsUuid d t t') (hv : Visits d (whole t) s) (hv' : Visits d (whole t') s')
    (h : s.UpToCase s') (inside : s.cursor.pos < s.cursor.window.stop)
    (hjoin : ¬ t.JoinsAt s.cursor.pos) :
    (s.beginLine.leaveStyle d).UpToCase (s'.beginLine.leaveStyle d) := by
  have hthrough := hv.through
  have hbegin := h.beginLine
  have inside' := h.cursor.inside_iff.2 inside
  have hleaving : s'.beginLine.leaving d = s.beginLine.leaving d := by
    refine hbegin.leaving_eq hthrough.beginLine.tidy.sane fun hs => ?_
    rw [style_beginLine] at hs
    have hl : s.style.isLookedUp = true := by
      rw [hs]
      rfl
    rw [cursor_beginLine_of_isLookedUp hl, cursor_beginLine_of_isLookedUp (h.style_eq ▸ hl),
      hthrough.sees.ch_eq inside, hv'.through.sees.ch_eq inside', h.cursor.pos_eq]
    exact hr.charOrSpace_eq hthrough hv'.through (hr.eq_of_docKeyword hv inside hs)
  rw [Scan.leaveStyle, Scan.leaveStyle, hleaving, hbegin.style_eq]
  exact hbegin.applyLeave hthrough.beginLine.sees hv'.through.beginLine.sees _
    (hr.agrees_leaving hd hkeeps hv hv' h inside hjoin)

/-- **Both scans take the same step.** -/
theorem step (hr : Recased d t t') (hd : d.vocabulary.IsCaseless) (hkeeps : KeepsUuid d t t')
    (hv : Visits d (whole t) s) (hv' : Visits d (whole t') s') (h : s.UpToCase s')
    (inside : s.cursor.pos < s.cursor.window.stop) : (s.step d).UpToCase (s'.step d) := by
  have hthrough := hv.through
  have inside' := h.cursor.inside_iff.2 inside
  cases hover : s.beginLine.atContinuation with
  | true =>
    rw [Scan.step, Scan.step, h.beginLine.atContinuation_eq, if_pos hover, if_pos hover]
    exact h.beginLine.passContinuation
  | false =>
    have hjoin : ¬ t.JoinsAt s.cursor.pos := by
      rw [← hthrough.atContinuation_iff inside, ← atContinuation_beginLine, hover]
      exact Bool.false_ne_true
    have hleft := hr.leaveStyle hd hkeeps hv hv' h inside hjoin
    have hleftThrough := hthrough.left (d := d) inside
    have hleftThrough' := hv'.through.left (d := d) inside'
    have hstep : s.step d = (s.beginLine.leaveStyle d).enterAndPass d :=
      step_of_not_atContinuation hover
    have hstep' : s'.step d = (s'.beginLine.leaveStyle d).enterAndPass d :=
      step_of_not_atContinuation (h.beginLine.atContinuation_eq.trans hover)
    have hvisits := hv.step inside
    rw [hstep] at hvisits
    rw [hstep, hstep']
    generalize s.beginLine.leaveStyle d = u at hleft hleftThrough hvisits
    generalize s'.beginLine.leaveStyle d = u' at hleft hleftThrough'
    cases hwhat : u.entering? d with
    | none =>
      rw [enterAndPass_of_none hwhat, enterAndPass_of_none (hleft.entering?_eq.trans hwhat)]
      exact hleft.passChar
    | some what =>
      have hwhat' : u'.entering? d = some what := hleft.entering?_eq.trans hwhat
      by_cases hw : what = .directive
      · subst hw
        rw [enterAndPass_of_directive hwhat] at hvisits
        rw [enterAndPass_of_directive hwhat, enterAndPass_of_directive hwhat']
        refine hleft.openDirective hleftThrough.sees hleftThrough'.sees fun hopen => ?_
        exact hr.directiveWord hleft hleftThrough hleftThrough' hvisits hwhat hopen
      · rw [enterAndPass_of_some hwhat hw, enterAndPass_of_some hwhat' hw]
        exact (hleft.applyEnter hw).passChar

/-- **So they come to the end of the text together**, by induction on the steps of one. -/
theorem run (hr : Recased d t t') (hd : d.vocabulary.IsCaseless) (hkeeps : KeepsUuid d t t')
    (hv : Visits d (whole t) s) (hv' : Visits d (whole t') s') (h : s.UpToCase s') :
    (s.run d).UpToCase (s'.run d) := by
  fun_induction Scan.run d s generalizing s' with
  | case1 s inside ih =>
    have inside' := h.cursor.inside_iff.2 inside
    rw [run_of_inside inside']
    exact ih (hv.step inside) (hv'.step inside') (hr.step hd hkeeps hv hv' h inside)
  | case2 s outside =>
    rw [run_of_outside (mt h.cursor.inside_iff.1 outside)]
    exact h

/-- A word at the end of the text is closed alike. -/
theorem closeWord (hr : Recased d t t') (hd : d.vocabulary.IsCaseless)
    (hkeeps : KeepsUuid d t t') (hv : Visits d (whole t) s) (hv' : Visits d (whole t') s')
    (h : s.UpToCase s') (outside : ¬ s.cursor.pos < s.cursor.window.stop) :
    (s.closeWord d).UpToCase (s'.closeWord d) := by
  have hthrough := hv.through
  have hend : t.length ≤ s.cursor.pos := hthrough.stop_eq ▸ Nat.le_of_not_lt outside
  have hsees := hthrough.sees
  have hsees' := hv'.through.sees
  have hleaving : s'.leaving d = s.leaving d := by
    refine h.leaving_eq hthrough.tidy.sane fun _ => ?_
    rw [hv.cursor_whole.ch_eq, hv'.cursor_whole.ch_eq, h.cursor.pos_eq]
    refine hr.charOrSpace_eq hthrough hv'.through ?_
    rw [Text.charAt_of_length_le hend, Text.charAt_of_length_le (hr.length_eq ▸ hend)]
  have hf : (s.leaving d).Fits s.style s.cursor.surroundings := leave_fits hthrough.tidy.sane
  unfold Scan.closeWord
  rw [hleaving, h.style_eq]
  split
  · rename_i hhow
    rw [hhow] at hf
    have hs : s.style = .identifier := hf
    refine h.applyLeave hsees hsees' _ (hr.agrees_endWord hd hkeeps hv hv' h hs ?_ ?_)
    · rw [← Bool.not_eq_true]
      intro hch
      rw [leaving, hs] at hhow
      have hstays : Leave.stay = .endWord := (if_pos hch).symm.trans hhow
      cases hstays
    · rintro ⟨hmark, -⟩
      rw [Text.charAt_of_length_le hend] at hmark
      exact absurd hmark (by decide)
  · rename_i hhow
    rw [hhow] at hf
    exact h.applyLeave hsees hsees' _ (hr.openRun_of_docKeyword hv hv' h hf)
  · exact h

/-- At the start the scans are at the same place. -/
theorem upToCase_whole (hr : Recased d t t') : (whole t).UpToCase (whole t') where
  cursor := by
    have hw := Window.onText_ofText t
    have hw' := Window.onText_ofText t'
    have hchar (q : Nat) : UpToCase ((whole t).cursor.window.charOrSpace q)
        ((whole t').cursor.window.charOrSpace q) := by
      rcases Nat.lt_or_ge q t.length with hlt | hge
      · rw [(through_whole t).charOrSpace_eq_charAt hlt,
          (through_whole t').charOrSpace_eq_charAt (hr.length_eq.symm ▸ hlt)]
        exact hr.upToCase q
      · rw [hr.charOrSpace_eq (through_whole t) (through_whole t')]
        · exact .refl _
        · rw [Text.charAt_of_length_le hge, Text.charAt_of_length_le (hr.length_eq ▸ hge)]
    have hstop : (whole t').cursor.window.stop = (whole t).cursor.window.stop := by
      rw [(through_whole t).stop_eq, (through_whole t').stop_eq, hr.length_eq]
    have hch : UpToCase (whole t).cursor.ch (whole t').cursor.ch := by
      rw [Visits.refl.cursor_whole (d := d).ch_eq, Visits.refl.cursor_whole (d := d).ch_eq,
        Visits.pos_whole, Visits.pos_whole]
      exact hchar 0
    have hnext : UpToCase (whole t).cursor.next (whole t').cursor.next := by
      rw [Visits.refl.cursor_whole (d := d).next_eq, Visits.refl.cursor_whole (d := d).next_eq,
        Visits.pos_whole, Visits.pos_whole]
      exact hchar 1
    exact
      { char := hchar
        start_eq := (through_whole t').start_eq.trans (through_whole t).start_eq.symm
        stop_eq := hstop
        pending_eq := rfl
        pos_eq := Visits.pos_whole.trans Visits.pos_whole.symm
        state_eq := rfl
        prev := by
          rw [whole, whole, Scan.ofWindow, Scan.ofWindow, Cursor.prev_ofWindow hw,
            Cursor.prev_ofWindow hw']
          exact .refl _
        ch := hch
        next := hnext
        atLineStart_eq := (Cursor.atLineStart_ofWindow hw').trans
          (Cursor.atLineStart_ofWindow hw).symm
        atLineEnd_eq := by
          rw [Visits.refl.cursor_whole (d := d).atLineEnd_eq,
            Visits.refl.cursor_whole (d := d).atLineEnd_eq, Visits.pos_whole, Visits.pos_whole,
            hstop]
          exact Cursor.endsLine_upToCase hch hnext _ _ }
  memory := by
    have hmemory (text : Text) : (whole text).memory = {} := by
      rw [whole, Scan.ofWindow, (Window.onText_ofText text).start_eq]
      rfl
    exact ⟨' ', by rw [hmemory]; exact .refl _, by rw [hmemory, hmemory]⟩
  literalStart_eq := rfl
  includes_eq := rfl

theorem complete (hr : Recased d t t') (hd : d.vocabulary.IsCaseless)
    (hkeeps : KeepsUuid d t t') :
    ((Scan.whole t').complete d).cursor.window.pending =
      ((Scan.whole t).complete d).cursor.window.pending := by
  have hrun := hr.run hd hkeeps .refl .refl hr.upToCase_whole
  have outside :
      ¬ ((Scan.whole t).run d).cursor.pos < ((Scan.whole t).run d).cursor.window.stop := by
    rw [(reaches_run d _).stop_eq]
    exact Nat.not_lt.2 (stop_le_pos_run d (Scan.whole t))
  have hclosed := hr.closeWord hd hkeeps (.of_run d _) (.of_run d _) hrun outside
  exact (hclosed.cursor.switchTo 0).pending_eq

end Recased

namespace Dialect

/-- **Letter case makes no difference to a dialect without regard to it.**  Let words of a text
    that stand at its start or behind white space be put into another letter case.  Then every
    character keeps its style, if the keywords that are `uuid` remain so and no others become
    so. -/
theorem lexText_recased (d : Dialect) (hd : d.vocabulary.IsCaseless) {t t' : Text}
    (hr : Recased d t t') (hkeeps : KeepsUuid d t t') :
    d.lexer.lexText t' 0 t'.length 0 = d.lexer.lexText t 0 t.length 0 := by
  rw [lexText_eq_pending, lexText_eq_pending, lex_window, lex_window, opening_zero, opening_zero]
  exact hr.complete hd hkeeps

section Examples

/-- A dialect without regard to letter case, with a type and `uuid` among its words. -/
def typeAndUuid : Dialect := caseless.withWords 0 "int uuid".toList

theorem isCaseless_typeAndUuid : typeAndUuid.vocabulary.IsCaseless :=
  isCaseless_withWords (isCaseless_ofSettings rfl) 0 _

/-- The first word of a text in another letter case. -/
theorem recased_first {d : Dialect} {t t' : Text} {e : Nat} (hlen : t'.length = t.length)
    (hword : d.IsWord t 0 e) (hcase : ∀ q < t.length, UpToCase (t.charAt q) (t'.charAt q))
    (heq : ∀ q < t.length, e ≤ q → t'.charAt q = t.charAt q) : Recased d t t' := by
  have hnul {q : Nat} (hge : t.length ≤ q) : t'.charAt q = t.charAt q := by
    rw [Text.charAt_of_length_le hge, Text.charAt_of_length_le (hlen ▸ hge)]
  refine ⟨hlen, fun q => ?_, fun q => ?_⟩
  · rcases Nat.lt_or_ge q t.length with hlt | hge
    · exact hcase q hlt
    · rw [hnul hge]
      exact .refl _
  · rcases Nat.lt_or_ge q t.length with hlt | hge
    · rcases Nat.lt_or_ge q e with hin | hbehind
      · exact .inr ⟨0, e, hword, Nat.zero_le q, hin, .inl rfl⟩
      · exact .inl (heq q hlt hbehind)
    · exact .inl (hnul hge)

theorem lexText_recased_type :
    let t := Text.ofString "Int uuid 1f"
    let t' := Text.ofString "iNT uuid 1f"
    typeAndUuid.vocabulary.IsCaseless ∧ Recased typeAndUuid t t' ∧ KeepsUuid typeAndUuid t t' ∧
      typeAndUuid.lexer.lexText t' 0 t'.length 0 = typeAndUuid.lexer.lexText t 0 t.length 0 := by
  intro t t'
  have hword : typeAndUuid.IsWord t 0 3 :=
    ⟨((Scan.whole t).step typeAndUuid).runTo typeAndUuid 3,
      ⟨⟨Scan.whole t, ⟨.refl, by decide +kernel, by decide +kernel, by decide +kernel,
        by decide +kernel⟩, .of_runTo typeAndUuid 3 _⟩, ⟨by decide +kernel, by decide +kernel⟩,
        by decide +kernel, by decide +kernel⟩, by decide +kernel⟩
  have hr : Recased typeAndUuid t t' :=
    recased_first (by decide +kernel) hword (by decide +kernel) (by decide +kernel)
  have hkeeps : KeepsUuid typeAndUuid t t' := by
    have hall : ∀ a ≤ 11, ∀ e ≤ 11, ((t'.extract a e).toList = ['u', 'u', 'i', 'd'] ↔
        (t.extract a e).toList = ['u', 'u', 'i', 'd']) := by decide +kernel
    intro a e hin _
    have hlen : t.length = 11 := by decide +kernel
    obtain ⟨ha, he⟩ := hin.le
    rw [hlen] at he
    exact hall a (Nat.le_trans ha he) e he
  exact ⟨isCaseless_typeAndUuid, hr, hkeeps,
    lexText_recased typeAndUuid isCaseless_typeAndUuid hr hkeeps⟩

/-- **A keyword that is `uuid` in other letters is not taken for it**, and the number behind it
    is shown as a number. -/
theorem lexText_recased_uuid :
    let t := Text.ofString "uuid 1"
    let t' := Text.ofString "UUID 1"
    typeAndUuid.vocabulary.IsCaseless ∧ Recased typeAndUuid t t' ∧
      typeAndUuid.lexer.lexText t 0 t.length 0 = #[5, 5, 5, 5, 0, 8] ∧
      typeAndUuid.lexer.lexText t' 0 t'.length 0 = #[5, 5, 5, 5, 0, 4] := by
  intro t t'
  have hword : typeAndUuid.IsWord t 0 4 :=
    ⟨((Scan.whole t).step typeAndUuid).runTo typeAndUuid 4,
      ⟨⟨Scan.whole t, ⟨.refl, by decide +kernel, by decide +kernel, by decide +kernel,
        by decide +kernel⟩, .of_runTo typeAndUuid 4 _⟩, ⟨by decide +kernel, by decide +kernel⟩,
        by decide +kernel, by decide +kernel⟩, by decide +kernel⟩
  exact ⟨isCaseless_typeAndUuid, recased_first (by decide +kernel) hword (by decide +kernel)
    (by decide +kernel), by decide +kernel, by decide +kernel⟩

end Examples

end Dialect

end CFamily

end StyledText
