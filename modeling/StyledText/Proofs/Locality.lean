/-
  What a lexer reads of a buffer.

  Before a scan starts, the lexer looks back for the beginning of a word, for a
  backslash and for an operator, and it looks up whether a line starts there.  All
  of it lies before the window.  From there on the scan looks no more than three
  characters behind the window.

  * `Window.Fresh`: a window before anything has been styled, moved back or not;
  * `Window.SameView`: two such windows that the lexer cannot tell apart;
  * `sameView_reopen` and `ofWindow_on`: it opens the same scan in both;
  * `sameLexed_of_sameView`: and styles them the same;
  * `Dialect.lex_local`: so it does where two buffers are the same before the window,
    in it and three characters behind it.
-/
import StyledText.Proofs.LineByLine
import StyledText.Proofs.OtherWindow

namespace StyledText

namespace Window

variable {w w' : Window} {known p : Nat}

/-! ## Windows before they are styled -/

/-- Nothing has been styled in the window, and it shows its buffer as it is. -/
structure Fresh (w : Window) : Prop where
  charAt_eq : ∀ q, w.charAt q = w.source.charAt q
  pending_eq : w.pending = #[]
  start_le : w.start ≤ w.stop
  stop_le : w.stop ≤ w.length

theorem fresh_ofBuffer (b : Buffer) (start n : Nat) : (ofBuffer b start n).Fresh where
  charAt_eq _ := charAt_ofBuffer
  pending_eq := rfl
  start_le := by
    simp only [ofBuffer]
    omega
  stop_le := stop_ofBuffer_le

theorem extendBack_of_le (h : w.start ≤ p) : w.extendBack p = w :=
  if_neg fun hp => absurd hp.1 (Nat.not_lt.2 h)

namespace Fresh

theorem extendBack_of_lt (h : w.Fresh) (hp : p < w.start) :
    w.extendBack p =
      { w with start := p, cache := w.source.text.chars.extract p w.start ++ w.cache } := by
  rw [Window.extendBack, if_pos ⟨hp, by rw [h.pending_eq]; rfl⟩]

theorem start_extendBack (h : w.Fresh) (p : Nat) : (w.extendBack p).start = min p w.start := by
  rcases Nat.lt_or_ge p w.start with hp | hp
  · rw [h.extendBack_of_lt hp, Nat.min_eq_left (Nat.le_of_lt hp)]
  · rw [extendBack_of_le hp, Nat.min_eq_right hp]

/-- **A window that is moved back shows its buffer as before.** -/
theorem extendBack (h : w.Fresh) (p : Nat) : (w.extendBack p).Fresh := by
  rcases Nat.lt_or_ge p w.start with hp | hp
  · rw [h.extendBack_of_lt hp]
    refine ⟨fun q => ?_, h.pending_eq, Nat.le_trans (Nat.le_of_lt hp) h.start_le, h.stop_le⟩
    have hlen : w.start ≤ w.source.text.chars.size := Nat.le_trans h.start_le h.stop_le
    have hsize : (w.source.text.chars.extract p w.start).size = w.start - p := by
      rw [Array.size_extract, Nat.min_eq_left hlen]
    simp only [charAt]
    split
    · rename_i hq
      rcases Nat.lt_or_ge q w.start with hlt | hge
      · rw [Array.getElem?_append_left (by rw [hsize]; omega), Array.getElem?_extract,
          if_pos (by omega), Nat.add_sub_cancel' hq]
        cases hc : w.source.text.chars[q]? with
        | none => rfl
        | some c => simp [Buffer.charAt, Text.charAt, hc]
      · have hold := h.charAt_eq q
        rw [charAt, if_pos hge] at hold
        rw [Array.getElem?_append_right (by rw [hsize]; omega), hsize,
          show q - p - (w.start - p) = q - w.start by omega, hold]
    · rfl
  · rw [extendBack_of_le hp]
    exact h

theorem charOrSpace_eq (h : w.Fresh) (q : Nat) :
    w.charOrSpace q = w.source.text.chars[q]?.getD ' ' := by
  rw [charOrSpace, charOr, h.charAt_eq]
  rcases Nat.lt_or_ge q w.length with hlt | hge
  · rw [if_neg fun hend => absurd hend.2 (Nat.not_le.2 hlt), Buffer.charAt, Text.charAt,
      Array.getElem?_eq_getElem hlt]
    rfl
  · rw [if_pos ⟨Text.charAt_of_length_le hge, hge⟩, Array.getElem?_eq_none hge]
    rfl

theorem styleAt_eq (h : w.Fresh) (q : Nat) : w.styleAt q = w.source.styleAt q := by
  rw [styleAt, h.pending_eq]
  split <;> rfl

end Fresh

/-! ## Windows that look the same to a lexer -/

/-- **A lexer cannot tell the windows apart**: they have the same bounds, the same
    text before, in and three characters behind them, the same styles before
    `known`, and lines start at the same places. -/
structure SameView (known : Nat) (w w' : Window) : Prop where
  fresh : w.Fresh
  fresh' : w'.Fresh
  start_eq : w'.start = w.start
  stop_eq : w'.stop = w.stop
  char_eq : ∀ q < w.stop + 3, w'.source.text.chars[q]? = w.source.text.chars[q]?
  style_eq : ∀ q < known, w'.source.styleAt q = w.source.styleAt q
  line_eq : ∀ p ≤ w.start, (w'.source.lineStart (w'.source.lineOf p) == p) =
    (w.source.lineStart (w.source.lineOf p) == p)

namespace SameView

theorem charAt_eq (h : w.SameView known w') {q : Nat} (hq : q < w.stop + 3) :
    w'.charAt q = w.charAt q := by
  rw [h.fresh.charAt_eq, h.fresh'.charAt_eq]
  exact congrArg (Option.getD · nul) (h.char_eq q hq)

theorem charAt_eq_of_le (h : w.SameView known w') {q : Nat} (hq : q ≤ w.start) :
    w'.charAt q = w.charAt q :=
  h.charAt_eq (Nat.lt_add_right 2 (Nat.lt_succ_of_le (Nat.le_trans hq h.fresh.start_le)))

theorem styleAt_eq (h : w.SameView known w') {q : Nat} (hq : q < known) :
    w'.styleAt q = w.styleAt q := by
  rw [h.fresh.styleAt_eq, h.fresh'.styleAt_eq, h.style_eq q hq]

theorem source_extendBack (w : Window) (p : Nat) : (w.extendBack p).source = w.source := by
  unfold Window.extendBack
  split <;> rfl

theorem extendBack (h : w.SameView known w') (p : Nat) :
    (w.extendBack p).SameView known (w'.extendBack p) where
  fresh := h.fresh.extendBack p
  fresh' := h.fresh'.extendBack p
  start_eq := by rw [h.fresh.start_extendBack, h.fresh'.start_extendBack, h.start_eq]
  stop_eq := by rw [stop_extendBack, stop_extendBack, h.stop_eq]
  char_eq := by
    rw [source_extendBack, source_extendBack, stop_extendBack]
    exact h.char_eq
  style_eq := by
    rw [source_extendBack, source_extendBack]
    exact h.style_eq
  line_eq := by
    rw [source_extendBack, source_extendBack, h.fresh.start_extendBack]
    exact fun q hq => h.line_eq q (Nat.le_trans hq (Nat.min_le_right _ _))

theorem looksLike (h : w.SameView known w') : w.LooksLike w.stop w' where
  start_eq := h.start_eq
  inside_iff _ _ := by rw [h.stop_eq]
  char_eq q hq := by rw [h.fresh.charOrSpace_eq, h.fresh'.charOrSpace_eq, h.char_eq q hq]
  stop_le := h.fresh.stop_le
  stop_le' := h.fresh'.stop_le

end SameView

end Window

namespace CFamily

variable {d : Dialect} {settings : Settings} {style : Style} {initial : UInt8}
  {w w' : Window} {known p : Nat}

/-! ## What the lexer looks back for -/

theorem runStart_le (p : Char → Bool) (w : Window) (pos : Nat) : runStart p w pos ≤ pos := by
  fun_induction runStart p w pos with
  | case1 => exact Nat.le_refl 0
  | case2 pos _ ih => exact Nat.le_succ_of_le ih
  | case3 => exact Nat.le_refl _

theorem runStart_congr {f : Char → Bool} {pos : Nat}
    (h : ∀ q ≤ pos, w'.charAt q = w.charAt q) : runStart f w' pos = runStart f w pos := by
  induction pos with
  | zero => rfl
  | succ pos ih =>
    rw [runStart, runStart, h pos (Nat.le_succ pos), h (pos + 1) (Nat.le_refl _),
      ih fun q hq => h q (Nat.le_succ_of_le hq)]

theorem wordStart?_eq (h : w.SameView known w') :
    wordStart? settings w' w'.start = wordStart? settings w w.start := by
  have hle := runStart_le (isIdentifierChar settings) w w.start
  unfold wordStart?
  rw [h.start_eq, runStart_congr fun q hq => h.charAt_eq_of_le hq]
  dsimp only
  rw [h.charAt_eq_of_le (Nat.le_trans (Nat.sub_le _ 1) hle)]

theorem docKeywordStart?_eq (h : w.SameView known w') :
    docKeywordStart? w' w'.start = docKeywordStart? w w.start := by
  have hle := runStart_le isSmallLetter w w.start
  unfold docKeywordStart?
  rw [h.start_eq, runStart_congr fun q hq => h.charAt_eq_of_le hq]
  dsimp only
  rw [h.charAt_eq_of_le (Nat.le_trans (Nat.sub_le _ 1) hle)]

theorem lt_of_docKeywordStart? {start mark : Nat} (h : docKeywordStart? w start = some mark) :
    mark < start := by
  have hle := runStart_le isSmallLetter w start
  unfold docKeywordStart? at h
  dsimp only at h
  split at h
  · exact nomatch h
  · split at h
    · cases h
      omega
    · exact nomatch h

theorem commentStyleBefore_eq (h : w.SameView known w') (hp : p ≤ known) :
    commentStyleBefore w' p = commentStyleBefore w p := by
  unfold commentStyleBefore
  by_cases hpos : 0 < p
  · rw [h.styleAt_eq (by omega)]
  · rw [if_neg fun hc => hpos hc.1, if_neg fun hc => hpos hc.1]

theorem lineContinues_eq (h : w.SameView known w') (hp : p ≤ w.start) :
    lineContinues w' p = lineContinues w p := by
  have hback (n : Nat) : w'.charAt (p - n) = w.charAt (p - n) :=
    h.charAt_eq_of_le (Nat.le_trans (Nat.sub_le p n) hp)
  simp only [lineContinues, hback]

theorem operatorBefore?_eq (h : w.SameView known w') (hk : p ≤ known) (hp : p ≤ w.start) :
    operatorBefore? w' p = operatorBefore? w p := by
  induction p with
  | zero => rfl
  | succ p ih =>
    rw [operatorBefore?, operatorBefore?, h.styleAt_eq (by omega),
      h.charAt_eq_of_le (Nat.le_of_succ_le hp), ih (by omega) (by omega)]

/-- **The lexer moves both windows back alike**, if the styles before the place that
    it moves to are the same. -/
theorem sameView_reopen (h : w.SameView known w')
    (hk : (reopen settings w style).1.start ≤ known) :
    (reopen settings w style).1.SameView known (reopen settings w' style).1 ∧
      (reopen settings w' style).2 = (reopen settings w style).2 := by
  cases style with
  | identifier | keyword | keyword2 | globalClass =>
    unfold reopen
    dsimp only
    rw [wordStart?_eq h]
    split
    · exact ⟨h.extendBack _, rfl⟩
    · exact ⟨h, rfl⟩
  | docKeyword =>
    unfold reopen at hk ⊢
    dsimp only at hk ⊢
    rw [docKeywordStart?_eq h]
    split at hk
    · rename_i mark hmark
      have hlt := lt_of_docKeywordStart? hmark
      rw [h.fresh.start_extendBack, Nat.min_eq_left (Nat.le_of_lt hlt)] at hk
      exact ⟨h.extendBack mark, commentStyleBefore_eq h hk⟩
    · exact ⟨h, rfl⟩
  | _ => exact ⟨h, rfl⟩

/-- **The scan that starts in a window that looks the same**, and before which the same
    is found. -/
theorem ofWindow_on {n : Nat} (hw : w.pending = #[]) (hw' : w'.pending = #[])
    (hlook : w.LooksLike n w') (hn : w.start ≤ n)
    (hprev : w'.charAt (w.start - 1) = w.charAt (w.start - 1))
    (hline : (w'.source.lineStart (w'.source.lineOf w.start) == w.start) =
      (w.source.lineStart (w.source.lineOf w.start) == w.start))
    (hcont : lineContinues w' w.start = lineContinues w w.start)
    (hop : operatorBefore? w' w.start = operatorBefore? w w.start) (style : Style) :
    Scan.ofWindow w' style = (Scan.ofWindow w style).on w' := by
  have hwindow : (Cursor.ofWindow w style.code).on w' =
      { Cursor.ofWindow w style.code with window := w' } := by
    show { Cursor.ofWindow w style.code with window := { w' with pending := w.pending } } = _
    rw [hw, ← hw']
  have hend (ch next : Char) :
      Cursor.endsLine ch next w.start w'.stop = Cursor.endsLine ch next w.start w.stop := by
    simp only [Cursor.endsLine, ← Nat.not_lt, hlook.inside_iff _ hn]
  have hcursor : Cursor.ofWindow w' style.code = (Cursor.ofWindow w style.code).on w' := by
    rw [hwindow]
    simp only [Cursor.ofWindow, hlook.start_eq, hlook.char_eq w.start (by omega),
      hlook.char_eq (w.start + 1) (by omega), hprev, hend, hline]
  simp only [Scan.ofWindow, Scan.on, hcursor, hlook.start_eq, hcont, hop]

/-- The scan that starts in a window that a lexer cannot tell apart. -/
theorem SameView.ofWindow_on (h : w.SameView known w') (hk : w.start ≤ known) (style : Style) :
    Scan.ofWindow w' style = (Scan.ofWindow w style).on w' :=
  CFamily.ofWindow_on h.fresh.pending_eq h.fresh'.pending_eq h.looksLike h.fresh.start_le
    (h.charAt_eq_of_le (Nat.sub_le _ 1)) (h.line_eq _ (Nat.le_refl _))
    (lineContinues_eq h (Nat.le_refl _)) (operatorBefore?_eq h hk (Nat.le_refl _)) style

theorem sees_ofWindow (w : Window) (style : Style) : (Scan.ofWindow w style).cursor.Sees :=
  ⟨fun _ => rfl, fun _ => rfl, fun _ => rfl⟩

/-! ## What the lexer gives -/

/-- Two windows are styled the same. -/
structure SameLexed (r r' : Lexed) : Prop where
  start_eq : r'.window.start = r.window.start
  stop_eq : r'.window.stop = r.window.stop
  pending_eq : r'.window.pending = r.window.pending
  endStyle_eq : r'.endStyle = r.endStyle
  includes_eq : r'.includes = r.includes

/-- **A lexer styles windows the same that it cannot tell apart.** -/
theorem sameLexed_of_sameView (h : w.SameView known w')
    (hk : (d.lex w initial).window.start ≤ known) :
    SameLexed (d.lex w initial) (d.lex w' initial) := by
  rw [d.start_lex] at hk
  obtain ⟨hview, hstyle⟩ := sameView_reopen h hk
  have hopen : d.opening w' initial =
      (d.opening w initial).on (reopen d.settings w' (.ofCode initial)).1 := by
    have hon := SameView.ofWindow_on hview hk (reopen d.settings w (.ofCode initial)).2
    rw [← hstyle] at hon
    rw [Dialect.opening, hon, hstyle]
    rfl
  obtain ⟨i, hcomplete⟩ := Scan.complete_on (d := d) hview.looksLike
    (show (d.opening w initial).cursor.Sees from sees_ofWindow _ _)
    (d.covers_opening initial h.fresh.pending_eq h.fresh.start_le)
  -- The scan in the other window is the same one, but for what is remembered.
  have hlex : d.scan w' initial =
      ((d.scan w initial).withInclude i).on (reopen d.settings w' (.ofCode initial)).1 := by
    rw [d.scan_eq, d.scan_eq, hopen]
    exact hcomplete
  exact
    { start_eq := by rw [d.start_lex, d.start_lex, hopen]; rfl
      stop_eq := by rw [d.stop_lex, d.stop_lex, h.stop_eq]
      pending_eq := by rw [Dialect.lex, hlex]; rfl
      endStyle_eq := by rw [Dialect.lex, hlex]; rfl
      includes_eq := by rw [Dialect.lex, hlex]; rfl }

namespace Dialect

variable {b b' : Buffer} {start n : Nat}

/-- The line of a place starts there if a line starts there. -/
theorem lineStart_beq_iff (h : b.Consistent) (hp : p ≤ b.length) :
    (b.lineStart (b.lineOf p) == p) = true ↔ p = 0 ∨ b.text.isLineStart p = true := by
  rw [beq_iff_eq]
  constructor
  · intro heq
    have hstart := (h.lineStart_lineOf hp).1
    rw [heq] at hstart
    exact (LineTable.mem_ofText.1 hstart).imp_right And.right
  · exact fun hline => h.lineStart_lineOf_eq
      (LineTable.mem_ofText.2 (hline.imp_right fun hline => ⟨hp, hline⟩))

/-- A line starts at a place of two texts alike if the characters before and at it
    are the same. -/
theorem lineStart_eq_of_agree (h : b.Consistent) (h' : b'.Consistent) (hp : p ≤ b.length)
    (hp' : p ≤ b'.length) (hagree : ∀ q ≤ p, b'.text.chars[q]? = b.text.chars[q]?) :
    (b'.lineStart (b'.lineOf p) == p) = (b.lineStart (b.lineOf p) == p) := by
  have hchar (q : Nat) (hq : q ≤ p) : b'.text.charAt q = b.text.charAt q :=
    congrArg (Option.getD · nul) (hagree q hq)
  rw [Bool.eq_iff_iff, lineStart_beq_iff h hp, lineStart_beq_iff h' hp', Text.isLineStart,
    Text.isLineStart, hchar p (Nat.le_refl p), hchar (p - 1) (Nat.sub_le p 1)]

/-- **Lexing is local.**  Two buffers have the same styles before `start` and the
    same characters up to three behind the window from `start` on, or end there
    both.  Then the window is styled the same in both, with the same style to go on
    with and the same include paths, whatever the buffers hold elsewhere. -/
theorem lex_local (d : Dialect) (initial : UInt8) (h : b.Consistent) (h' : b'.Consistent)
    (hlen : start + n ≤ b.length) (hlen' : start + n ≤ b'.length)
    (hstyles : ∀ q < start, b'.styleAt q = b.styleAt q)
    (hchars : ∀ q < start + n + 3, b'.text.chars[q]? = b.text.chars[q]?) :
    let r := d.lex (.ofBuffer b start n) initial
    let r' := d.lex (.ofBuffer b' start n) initial
    r'.window.start = r.window.start ∧ r'.window.stop = r.window.stop ∧
      r'.window.pending = r.window.pending ∧ r'.endStyle = r.endStyle ∧
      r'.includes = r.includes := by
  have hstart : (Window.ofBuffer b start n).start = start := Window.start_ofBuffer (by omega)
  have hstop : (Window.ofBuffer b start n).stop = start + n := Window.stop_ofBuffer hlen
  have hview : (Window.ofBuffer b start n).SameView start (.ofBuffer b' start n) :=
    { fresh := Window.fresh_ofBuffer b start n
      fresh' := Window.fresh_ofBuffer b' start n
      start_eq := by rw [hstart, Window.start_ofBuffer (by omega)]
      stop_eq := by rw [hstop, Window.stop_ofBuffer hlen']
      char_eq := by rwa [hstop]
      style_eq := hstyles
      line_eq := fun p hp =>
        have hagree : ∀ q ≤ p, b'.text.chars[q]? = b.text.chars[q]? :=
          fun q hq => hchars q (by omega)
        lineStart_eq_of_agree h h' (show p ≤ b.length by omega) (show p ≤ b'.length by omega)
          hagree }
  have hback : (d.lex (.ofBuffer b start n) initial).window.start ≤ start :=
    Nat.le_trans (d.lex_covers b start n initial).2.2.1 (Nat.le_of_eq hstart)
  have hsame := sameLexed_of_sameView hview hback
  exact ⟨hsame.start_eq, hsame.stop_eq, hsame.pending_eq, hsame.endStyle_eq, hsame.includes_eq⟩

/-- A line that includes a file. -/
def includingLine : Text := .ofString "#include <a>"

/-- The line up to the last letter of its word, and another text from there on. -/
def otherDirective : Text := .ofString "#includ(a)\nb"

theorem lex_local_otherDirective :
    let r := standard.lex (.ofBuffer (.ofText otherDirective) 0 4) 0
    (∀ q < 0 + 4 + 3, otherDirective.chars[q]? = includingLine.chars[q]?) ∧
      r.window.pending = #[9, 9, 9, 9] ∧ r.endStyle = 9 ∧ r.includes = [] := by
  have hchars : ∀ q < 0 + 4 + 3, otherDirective.chars[q]? = includingLine.chars[q]? := by decide
  have hstyles : ∀ q < 0, (Buffer.ofText otherDirective).styleAt q =
      (Buffer.ofText includingLine).styleAt q := fun q hq => absurd hq (Nat.not_lt_zero q)
  obtain ⟨-, -, hpending, hend, hincludes⟩ :=
    lex_local standard 0 (consistent_ofText includingLine) (consistent_ofText otherDirective)
      (show 0 + 4 ≤ (Buffer.ofText includingLine).length by decide) (by decide) hstyles hchars
  have hline : (standard.lex (.ofBuffer (.ofText includingLine) 0 4) 0).window.pending =
      #[9, 9, 9, 9] ∧ (standard.lex (.ofBuffer (.ofText includingLine) 0 4) 0).endStyle = 9 ∧
      (standard.lex (.ofBuffer (.ofText includingLine) 0 4) 0).includes = [] := by
    decide +kernel
  exact ⟨hchars, hpending.trans hline.1, hend.trans hline.2.1, hincludes.trans hline.2.2⟩

end Dialect

end CFamily

end StyledText
