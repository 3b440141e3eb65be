/-
  Lexing texts with other line ends.

  Whether lines end with a line feed, a carriage return or both, a lexer styles what
  stands in them the same: scans that take their steps in tandem style the same characters
  the same.

  * `Scan.cells_complete`: scans in tandem style the same to the end;
  * `Window.OnText`: a window on a whole text, where two scans are in tandem;
  * `Dialect.lexText_withLineEnds`: each character that ends no line has the same style
    whatever the lines end with.
-/
import StyledText.Proofs.Locality
import StyledText.Proofs.TandemSteps

namespace StyledText

namespace CFamily

namespace Scan

variable {d : Dialect} {e : LineEnd} {s t : Scan}

/-! ## Runs -/

namespace Tandem

theorem closeWord (h : Tandem e s t) (hm : s.Tidy)
    (outside : ¬ s.cursor.pos < s.cursor.window.stop) :
    Tandem e (s.closeWord d) (t.closeWord d) := by
  have hspace : s.cursor.ch = ' ' := by
    rw [h.cursor.whole.ch_eq, h.cursor.whole.charOrSpace_of_le (Nat.le_of_not_lt outside)]
  have hleaving : t.leaving d = s.leaving d :=
    h.leaving_eq hm fun _ => h.cursor.atLineEnd_eq (by rw [hspace]; rfl)
  have hf : (s.leaving d).Fits s.style s.cursor.surroundings := leave_fits hm.sane
  unfold Scan.closeWord
  rw [hleaving]
  split
  · rename_i hhow
    rw [hhow] at hf
    exact h.endWord hf
  · rename_i hhow
    rw [hhow] at hf
    exact h.closeDocKeyword hf
  · exact h

end Tandem

theorem Reaches.whole {c c' : Cursor} (h : Reaches c c') (hw : c.Whole) : c'.Whole := by
  induction h with
  | refl => exact hw
  | advance _ ih => exact ih.advance
  | switchTo _ _ ih => exact ih.switchTo _
  | recolour _ _ ih => exact ih.recolour _

/-- The text of a window does not hang on what is committed in it. -/
theorem Reaches.textRange_eq {c c' : Cursor} (h : Reaches c c') (a b : Nat) :
    c'.window.textRange a b = c.window.textRange a b := by
  obtain ⟨pending, hc⟩ := h.exists_pending
  rw [hc]
  rfl

theorem cells_finish (hw : s.cursor.Whole) : s.finish.cursor.window.cells =
    s.cursor.window.cells ++ s.cursor.ink.map (·, s.cursor.state) := hw.cells_switchTo 0

/-- Closing a directive makes no difference at the end of the text. -/
theorem cells_closeWord_settle (hw : s.cursor.Whole) :
    (s.settle.closeWord d).finish.cursor.window.cells =
      (s.closeWord d).finish.cursor.window.cells := by
  unfold settle
  split
  · rename_i hclose
    have hplain : (s.switchTo .plain).closeWord d = s.switchTo .plain := by
      rw [closeWord, leaving, style_switchTo]
      rfl
    have hswitch : (s.switchTo .plain).cursor.Whole := hw.switchTo _
    rw [hplain, closeWord_of_directive hclose.2, cells_finish hw, cells_finish hswitch]
    show (s.cursor.switchTo _).window.cells ++ (s.cursor.switchTo _).ink.map _ = _
    rw [hw.cells_switchTo, hw.ink_switchTo]
    exact List.append_nil _
  · rfl

/-- **Scans in tandem style the same characters the same to the end.** -/
theorem cells_complete {s t : Scan} (h : Tandem e s.settle t.settle) (hm : s.Tidy) (hm' : t.Tidy)
    (hw : s.cursor.Whole) (hw' : t.cursor.Whole) :
    (t.complete d).cursor.window.cells = (s.complete d).cursor.window.cells := by
  have hinside (u : Scan) : u.settle.cursor.pos < u.settle.cursor.window.stop ↔
      u.cursor.pos < u.cursor.window.stop := by
    unfold settle
    split <;> exact Iff.rfl
  have hiff := h.cursor.inside_iff
  rw [hinside, hinside] at hiff
  by_cases inside : s.cursor.pos < s.cursor.window.stop
  · have inside' := hiff.2 inside
    have hc : s.memory.continued = false := memory_settle s ▸ h.continued
    have hc' : t.memory.continued = false := by
      rw [← memory_settle t, h.memory_eq, h.continued]
    obtain ⟨hover, hover'⟩ := h.beginLine.atContinuation_eq_false
    obtain ⟨s', t', hs', ht', htandem⟩ := h.exists_step (d := d) hm.settle hm'.settle
    rw [step_settle hc hover] at hs'
    rw [step_settle hc' hover'] at ht'
    have hvisit : Visits d s s' := (Visits.refl.step inside).trans hs'
    have hvisit' : Visits d t t' := (Visits.refl.step inside').trans ht'
    have moved : s.cursor.pos < s'.cursor.pos :=
      Nat.lt_of_lt_of_le (pos_lt_step d inside) hs'.reaches.pos_le
    have hstop : s'.cursor.window.stop = s.cursor.window.stop := hvisit.reaches.stop_eq
    rw [← hvisit.complete_eq, ← hvisit'.complete_eq]
    exact cells_complete htandem (hvisit.tidy hm) (hvisit'.tidy hm') (hvisit.reaches.whole hw)
      (hvisit'.reaches.whole hw')
  · have outside' : ¬ t.cursor.pos < t.cursor.window.stop := mt hiff.1 inside
    rw [complete, complete, run_of_outside inside, run_of_outside outside',
      ← cells_closeWord_settle hw, ← cells_closeWord_settle hw']
    have hclosed := h.closeWord (d := d) hm.settle (mt (hinside s).1 inside)
    rw [cells_finish hclosed.cursor.whole, cells_finish hclosed.cursor.whole',
      hclosed.cursor.cells_eq, hclosed.cursor.ink_eq, hclosed.cursor.state_eq]
termination_by s.cursor.window.stop - s.cursor.pos

end Scan

end CFamily

/-! ## Places in what is kept of a list -/

/-- An element that is kept comes behind as many as are kept before it. -/
theorem getElem?_filter_length {α : Type} (keep : α → Bool) {xs : List α} {i : Nat} {x : α}
    (hx : xs[i]? = some x) (hkeep : keep x = true) :
    (xs.filter keep)[((xs.take i).filter keep).length]? = some x := by
  obtain ⟨hi, hx⟩ := List.getElem?_eq_some_iff.1 hx
  have hfilter : xs.filter keep =
      (xs.take i).filter keep ++ x :: (xs.drop (i + 1)).filter keep := by
    conv_lhs => rw [← List.take_append_drop i xs, List.filter_append,
      List.drop_eq_getElem_cons hi, hx, List.filter_cons_of_pos hkeep]
  rw [hfilter, List.getElem?_append_right (Nat.le_refl _), Nat.sub_self]
  rfl

/-- What is kept for its first component is as long as what is kept of these. -/
theorem length_filter_zip {α β : Type} (keep : α → Bool) {xs : List α} {ys : List β}
    (hlen : xs.length ≤ ys.length) :
    ((xs.zip ys).filter fun cell => keep cell.1).length = (xs.filter keep).length := by
  conv_rhs => rw [← List.map_fst_zip hlen, List.filter_map, List.length_map]
  rfl

/-! ## Windows on a whole text -/

theorem Text.Uncontinued.not_infix {text : Text} (h : text.Uncontinued) :
    ¬ ['\\', '\n'] <:+: text.toList := by
  rintro ⟨before, after, htext⟩
  have hchar (n : Nat) : text.charAt (before.length + n) =
      (['\\', '\n'] ++ after)[n]?.getD nul := by
    rw [charAt_eq, ← htext, List.append_assoc,
      List.getElem?_append_right (Nat.le_add_right _ _), Nat.add_sub_cancel_left]
  have hbreak := h before.length (hchar 0)
  rw [hchar 1] at hbreak
  exact nomatch hbreak

namespace Window

variable {w : Window} {text : Text}

/-- The window is on the whole of `text`, and nothing in it has been styled yet. -/
structure OnText (w : Window) (text : Text) : Prop where
  fresh : w.Fresh
  start_eq : w.start = 0
  stop_eq : w.stop = text.length
  text_eq : w.source.text = text
  consistent : w.source.Consistent

theorem onText_ofText (text : Text) : (ofBuffer (.ofText text) 0 text.length).OnText text where
  fresh := fresh_ofBuffer _ 0 _
  start_eq := start_ofBuffer (Nat.zero_le _)
  stop_eq := CFamily.Dialect.stop_whole text
  text_eq := rfl
  consistent := CFamily.Dialect.consistent_ofText text

theorem OnText.textRange_eq (hw : w.OnText text) : w.textRange 0 text.length = text.toList := by
  have hlen : text.length ≤ w.length := hw.stop_eq ▸ hw.fresh.stop_le
  refine List.ext_getElem ?_ fun q hq hq' => ?_
  · rw [length_textRange hlen, Text.length_toList, Nat.sub_zero]
  · simp only [textRange, List.getElem_map, List.getElem_range', Nat.zero_add, Nat.one_mul,
      hw.fresh.charAt_eq]
    rw [Buffer.charAt, hw.text_eq, Text.charAt_eq, List.getElem?_eq_getElem hq']
    rfl

end Window

namespace Cursor

variable {w w' : Window} {e : LineEnd} {text : Text} {state : UInt8}

theorem Whole.ofWindow (hw : w.OnText text) : (Cursor.ofWindow w state).Whole where
  char_eq q := (hw.fresh.charOrSpace_eq q).trans (by rw [Text.toList, Array.getElem?_toList]; rfl)
  stop_eq := by
    show w.stop = w.source.text.length
    rw [hw.text_eq, hw.stop_eq]
  boundary_le := by
    show w.start + w.pending.size ≤ w.start
    rw [hw.fresh.pending_eq]
    exact Nat.le_refl _
  pos_le := hw.fresh.start_le
  ch_eq := rfl
  next_eq := rfl
  atLineEnd_eq := rfl

theorem rest_ofWindow (hw : w.OnText text) : (Cursor.ofWindow w state).rest = text.toList := by
  show w.source.text.toList.drop w.start = text.toList
  rw [hw.start_eq, hw.text_eq, List.drop_zero]

theorem cells_ofWindow (hw : w.OnText text) : w.cells = [] := by
  rw [Window.cells, hw.fresh.pending_eq, List.zip_nil_right]
  rfl

theorem openRun_ofWindow (hw : w.OnText text) : (Cursor.ofWindow w state).openRun = [] := by
  show w.textRange (w.start + w.pending.size) w.start = []
  rw [hw.fresh.pending_eq, hw.start_eq]
  rfl

theorem prev_ofWindow (hw : w.OnText text) : (Cursor.ofWindow w state).prev = ' ' :=
  if_pos hw.start_eq

theorem atLineStart_ofWindow (hw : w.OnText text) :
    (Cursor.ofWindow w state).atLineStart = true := by
  show (w.source.lineStart (w.source.lineOf w.start) == w.start) = true
  rw [hw.start_eq]
  exact (CFamily.Dialect.lineStart_beq_iff hw.consistent (Nat.zero_le _)).2 (.inl rfl)

/-- **At the start of two texts with different line ends, cursors are in tandem.** -/
theorem Tandem.ofWindow (hw : w.OnText text) (hw' : w'.OnText (text.withLineEnds e))
    (hcr : '\r' ∉ text.toList) (hcont : text.Uncontinued) :
    Tandem e (Cursor.ofWindow w state) (Cursor.ofWindow w' state) where
  whole := .ofWindow hw
  whole' := .ofWindow hw'
  rest_eq := by rw [rest_ofWindow hw, rest_ofWindow hw', Text.withLineEnds, Text.toList_ofList]
  lineFeeds := (rest_ofWindow hw).symm ▸ hcr
  uncontinued := (rest_ofWindow hw).symm ▸ hcont.not_infix
  cells_eq := (cells_ofWindow hw').trans (cells_ofWindow hw).symm
  ink_eq := by rw [ink, ink, openRun_ofWindow hw, openRun_ofWindow hw']
  run_eq _ := by rw [openRun_ofWindow hw, openRun_ofWindow hw']
  state_eq := rfl
  prev := by
    rw [prev_ofWindow hw, prev_ofWindow hw']
    exact .refl _
  atLineStart_eq := by rw [atLineStart_ofWindow hw, atLineStart_ofWindow hw']

end Cursor

/-! ## Lexing whole texts -/

namespace CFamily

variable {w w' : Window} {e : LineEnd} {text : Text} {p : Nat}

/-- **At the start of two texts with different line ends, scans are in tandem.** -/
theorem Scan.Tandem.ofWindow (hw : w.OnText text) (hw' : w'.OnText (text.withLineEnds e))
    (hcr : '\r' ∉ text.toList) (hcont : text.Uncontinued) :
    Scan.Tandem e (.ofWindow w .plain) (.ofWindow w' .plain) where
  cursor := .ofWindow hw hw' hcr hcont
  memory_eq := by
    simp only [Scan.ofWindow]
    rw [hw.start_eq, hw'.start_eq]
    rfl
  literal_eq := rfl
  continued := rfl

namespace Dialect

variable (d : Dialect)

/-- What the lexer has styled is the text, and the styles are those of the text. -/
theorem cells_lex (text : Text) :
    (d.lex (.ofBuffer (.ofText text) 0 text.length) 0).window.cells =
      (text.toList.zip (d.lexer.lexText text 0 text.length 0).toList).filter
        fun cell => !isLineBreak cell.1 := by
  have hw := Window.onText_ofText text
  have hboundary := (d.lex_covers (.ofText text) 0 text.length 0).2.2.2.1
  have hstop := (d.lex_covers (.ofText text) 0 text.length 0).2.1
  have hreach := (d.reaches_closed (d.opening (.ofBuffer (.ofText text) 0 text.length) 0)).switchTo
    .plain
  have hrange : (d.lex (.ofBuffer (.ofText text) 0 text.length) 0).window.textRange 0 text.length =
      text.toList := by
    rw [← hw.textRange_eq]
    rw [opening_zero] at hreach
    rw [lex_window, opening_zero]
    exact hreach.textRange_eq 0 text.length
  rw [Window.cells, start_lex_zero, hboundary, hstop, hw.stop_eq, hrange, lexText_eq_pending]

/-- **The characters that end no line are styled the same whatever the lines end with.** -/
theorem cells_lex_withLineEnds (hcr : '\r' ∉ text.toList) (hcont : text.Uncontinued) :
    (d.lex (.ofBuffer (.ofText (text.withLineEnds e)) 0
        (text.withLineEnds e).length) 0).window.cells =
      (d.lex (.ofBuffer (.ofText text) 0 text.length) 0).window.cells := by
  have hw := Window.onText_ofText text
  have hw' := Window.onText_ofText (text.withLineEnds e)
  have htandem := Scan.Tandem.ofWindow hw hw' hcr hcont
  rw [lex_window, lex_window, opening_zero, opening_zero]
  exact Scan.cells_complete htandem.settle (.ofWindow _ _) (.ofWindow _ _) htandem.cursor.whole
    htandem.cursor.whole'

/-- **A character that ends no line is styled as the one at its place among these.** -/
theorem getElem?_cells_lex {c : Char} {code : UInt8} (hc : text.toList[p]? = some c)
    (hb : isLineBreak c = false)
    (hcode : (d.lexer.lexText text 0 text.length 0)[p]? = some code) :
    (d.lex (.ofBuffer (.ofText text) 0 text.length) 0).window.cells[
      ((text.toList.take p).filter (!isLineBreak ·)).length]? = some (c, code) := by
  have hsize : (d.lexer.lexText text 0 text.length 0).toList.length = text.toList.length := by
    rw [Array.length_toList, size_lexText, Text.length_toList]
    omega
  have hcell : (text.toList.zip (d.lexer.lexText text 0 text.length 0).toList)[p]? =
      some (c, code) := by
    rw [List.getElem?_zip_eq_some]
    exact ⟨hc, Array.getElem?_toList.trans hcode⟩
  have hplace := getElem?_filter_length (fun cell => !isLineBreak cell.1) hcell (by rw [hb]; rfl)
  rw [List.zip_eq_zipWith, List.take_zipWith, ← List.zip_eq_zipWith, ← List.zip_eq_zipWith,
    length_filter_zip (!isLineBreak ·)] at hplace
  · rwa [cells_lex]
  · rw [List.length_take, List.length_take, hsize]

/-- **Lexing does not hang on what the lines end with.**  No line of `text` ends with a
    carriage return or goes on behind a backslash.  Then each of its characters that ends
    no line has the same style as in the text in which the lines end with carriage
    returns, or with a carriage return and a line feed each. -/
theorem lexText_withLineEnds (text : Text) (e : LineEnd) (hcr : '\r' ∉ text.toList)
    (hcont : text.Uncontinued) (hp : p < text.length)
    (hb : isLineBreak (text.charAt p) = false) :
    (text.withLineEnds e).charAt (e.place text p) = text.charAt p ∧
      (d.lexer.lexText (text.withLineEnds e) 0 (text.withLineEnds e).length 0)[e.place text p]? =
        (d.lexer.lexText text 0 text.length 0)[p]? := by
  have hc : text.toList[p]? = some (text.charAt p) := by
    rw [Text.charAt_eq, List.getElem?_eq_getElem (by rwa [Text.length_toList])]
    rfl
  have hc' := LineEnd.getElem?_place (e := e) hc hb
  have hsize (text : Text) : (d.lexer.lexText text 0 text.length 0).size = text.length := by
    rw [size_lexText]
    omega
  have hplace : e.place text p < (text.withLineEnds e).length := by
    rw [← Text.length_toList]
    exact (List.getElem?_eq_some_iff.1 hc').1
  obtain ⟨code, hcode⟩ : ∃ code, (d.lexer.lexText text 0 text.length 0)[p]? = some code :=
    ⟨_, Array.getElem?_eq_getElem (by rwa [hsize])⟩
  obtain ⟨code', hcode'⟩ : ∃ code', (d.lexer.lexText (text.withLineEnds e) 0
      (text.withLineEnds e).length 0)[e.place text p]? = some code' :=
    ⟨_, Array.getElem?_eq_getElem (by rwa [hsize])⟩
  -- Both are in the same place among the characters that end no line.
  have hcell := d.getElem?_cells_lex hc hb hcode
  have hcell' := d.getElem?_cells_lex hc' hb hcode'
  rw [LineEnd.take_place, LineEnd.filter_spread, d.cells_lex_withLineEnds hcr hcont,
    hcell] at hcell'
  rw [hcode, hcode', ← (Prod.mk.inj (Option.some.inj hcell')).2, Text.charAt_eq, hc']
  exact ⟨rfl, rfl⟩

section Examples

/-- A directive without a name, and a literal that is not closed on its line. -/
def unclosedString : Text := .ofString "#\n\"a\nb"

/-- The line ends themselves can be styled otherwise: the directive ends before the line
    feed, but not before the carriage return. -/
theorem lexText_withLineEnds_unclosedString :
    '\r' ∉ unclosedString.toList ∧ unclosedString.Uncontinued ∧ 3 < unclosedString.length ∧
      isLineBreak (unclosedString.charAt 3) = false ∧
      unclosedString.withLineEnds .crlf = .ofString "#\r\n\"a\r\nb" ∧
      standard.lexer.lexText unclosedString 0 6 0 = #[9, 0, 12, 12, 12, 11] ∧
      (standard.lexer.lexText (unclosedString.withLineEnds .crlf) 0 8 0)[4]? = some 12 := by
  have hwhole : standard.lexer.lexText unclosedString 0 unclosedString.length 0 =
      #[9, 0, 12, 12, 12, 11] := by decide +kernel
  obtain ⟨-, hstyle⟩ := standard.lexText_withLineEnds unclosedString .crlf (by decide) (by decide)
    (show 3 < unclosedString.length by decide) (by decide)
  rw [hwhole] at hstyle
  exact ⟨by decide, by decide, by decide, by decide, by decide, hwhole, hstyle⟩

end Examples

end Dialect

end CFamily

end StyledText
