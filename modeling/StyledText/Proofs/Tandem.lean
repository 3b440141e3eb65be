/-
  Two cursors on texts with different line ends.

  A text and the same text with other line ends can be walked side by side.  The two
  cursors are at different places then, but what is left to them differs in the line ends
  only, and what they have passed is the same but for the line ends.

  * `Window.cells` and `Cursor.ink`: what has been styled, and what is in the open run,
    without the line ends;
  * `Cursor.Whole`: a cursor in a window on a whole text;
  * `Cursor.Tandem`: two cursors on texts with different line ends; `advance`, `switchTo`,
    `recolour`, `skipWhile` and, over the end of a line, `passBreak` keep them so;
  * `SameInk`: two cursors at the same place, between which only a line end makes a
    difference.
-/
import StyledText.Proofs.LineEnds
import StyledText.Proofs.Words

namespace StyledText

/-! ## What has been styled, without the line ends -/

/-- Elements with one style among them: it does not matter whether they are left out
    before or behind that. -/
theorem filter_zip_replicate {α β : Type} (keep : α → Bool) (xs : List α) (y : β) :
    (xs.zip (List.replicate xs.length y)).filter (fun cell => keep cell.1) =
      (xs.filter keep).map (·, y) := by
  induction xs with
  | nil => rfl
  | cons x xs ih =>
    rw [List.length_cons, List.replicate_succ, List.zip_cons_cons, List.filter_cons,
      List.filter_cons, ih]
    split <;> rfl

namespace Window

variable {w : Window} {p : Nat} {style : UInt8}

/-- The characters of a window that have been styled, without the line ends, and their
    styles. -/
def cells (w : Window) : List (Char × UInt8) :=
  ((w.textRange w.start w.boundary).zip w.pending.toList).filter fun cell => !isLineBreak cell.1

theorem textRange_append {a b c : Nat} (hab : a ≤ b) (hbc : b ≤ c) (hc : c ≤ w.length) :
    w.textRange a c = w.textRange a b ++ w.textRange b c := by
  have hrange : List.range' a (b - a) ++ List.range' b (c - b) = List.range' a (c - a) := by
    have happend := @List.range'_append_1 a (b - a) (c - b)
    rwa [Nat.add_sub_cancel' hab, show b - a + (c - b) = c - a by omega] at happend
  rw [textRange, textRange, textRange, ← List.map_append, Nat.min_eq_left hc,
    Nat.min_eq_left (Nat.le_trans hbc hc), hrange]

theorem length_textRange {a b : Nat} (hb : b ≤ w.length) : (w.textRange a b).length = b - a := by
  rw [textRange, List.length_map, List.length_range', Nat.min_eq_left hb]

/-- **A commit gives its style to the characters that had none.** -/
theorem cells_commitBefore (hp : w.boundary ≤ p) (hstop : p ≤ w.stop) (hlen : w.stop ≤ w.length) :
    (w.commitBefore p style).cells = w.cells ++
      ((w.textRange w.boundary p).filter (!isLineBreak ·)).map (·, style) := by
  have hboundary : (w.commitBefore p style).boundary = p := by
    rw [boundary_commitBefore, Nat.min_eq_left hstop, Nat.max_eq_right hp]
  have hpending : (w.commitBefore p style).pending.toList =
      w.pending.toList ++ List.replicate (p - w.boundary) style := by
    rw [commitBefore, Array.toList_append, Array.toList_replicate, Nat.min_eq_left hstop]
  have hstart : w.start ≤ w.boundary := Nat.le_add_right _ _
  have hlength : (w.textRange w.boundary p).length = p - w.boundary :=
    length_textRange (Nat.le_trans hstop hlen)
  rw [cells, hboundary, hpending]
  show ((w.textRange w.start p).zip _).filter _ = _
  rw [textRange_append hstart hp (Nat.le_trans hstop hlen), List.zip_append, List.filter_append,
    ← hlength, filter_zip_replicate (!isLineBreak ·)]
  · rfl
  · rw [length_textRange (by omega), Array.length_toList, boundary, Nat.add_sub_cancel_left]

end Window

namespace Cursor

variable {e : LineEnd} {c c' c'' : Cursor} {state : UInt8}

/-- The characters of the open run, without the line ends. -/
def ink (c : Cursor) : List Char := c.openRun.filter (!isLineBreak ·)

/-- The characters of the text from the cursor on. -/
def rest (c : Cursor) : List Char := c.window.source.text.toList.drop c.pos

/-! ## Windows on a whole text -/

/-- **A cursor in a window that ends with the text**, which sees the text at all times. -/
structure Whole (c : Cursor) : Prop where
  char_eq : ∀ q, c.window.charOrSpace q = c.window.source.text.toList[q]?.getD ' '
  stop_eq : c.window.stop = c.window.length
  boundary_le : c.window.boundary ≤ c.pos
  pos_le : c.pos ≤ c.window.stop
  ch_eq : c.ch = c.window.charOrSpace c.pos
  next_eq : c.next = c.window.charOrSpace (c.pos + 1)
  atLineEnd_eq : c.atLineEnd = endsLine c.ch c.next c.pos c.window.stop

namespace Whole

theorem peek_eq (h : c.Whole) (n : Nat) : c.peek n = c.rest[n]?.getD ' ' := by
  rw [peek, h.char_eq, rest, List.getElem?_drop]

theorem ch_eq_peek (h : c.Whole) : c.ch = c.peek 0 := h.ch_eq

theorem next_eq_peek (h : c.Whole) : c.next = c.peek 1 := h.next_eq

theorem length_eq (h : c.Whole) : c.window.source.text.toList.length = c.window.stop := by
  rw [Text.length_toList, h.stop_eq]
  rfl

theorem charOrSpace_of_le (h : c.Whole) {q : Nat} (hq : c.window.stop ≤ q) :
    c.window.charOrSpace q = ' ' := by
  rw [h.char_eq, List.getElem?_eq_none (h.length_eq ▸ hq)]
  rfl

theorem advance (h : c.Whole) : c.advance.Whole := by
  have hboundary := h.boundary_le
  have hpos := h.pos_le
  by_cases inside : c.pos < c.window.stop
  · rw [advance_of_lt inside]
    exact
      { h with
        boundary_le := Nat.le_succ_of_le hboundary
        pos_le := inside
        ch_eq := h.next_eq
        next_eq := rfl
        atLineEnd_eq := rfl }
  · have hge : c.window.stop ≤ c.pos := Nat.le_of_not_lt inside
    rw [advance_of_not_lt inside]
    exact
      { h with
        ch_eq := (h.charOrSpace_of_le hge).symm
        next_eq := (h.charOrSpace_of_le (Nat.le_succ_of_le hge)).symm
        atLineEnd_eq := by simp [endsLine, hge] }

theorem switchTo (h : c.Whole) (state : UInt8) : (c.switchTo state).Whole :=
  { h with
    boundary_le := by
      have hboundary := h.boundary_le
      have hpos := h.pos_le
      simp only [Cursor.switchTo, Window.boundary_commitBefore]
      omega }

theorem recolour (h : c.Whole) (state : UInt8) : (c.recolour state).Whole := { h with }

theorem rest_of_inside (h : c.Whole) (inside : c.pos < c.window.stop) :
    c.rest = c.ch :: c.advance.rest := by
  have hlt : c.pos < c.window.source.text.toList.length := h.length_eq ▸ inside
  rw [rest, List.drop_eq_getElem_cons hlt, h.ch_eq, h.char_eq, List.getElem?_eq_getElem hlt,
    advance_of_lt inside]
  rfl

theorem rest_of_outside (h : c.Whole) (outside : ¬ c.pos < c.window.stop) : c.rest = [] :=
  List.drop_eq_nil_of_le (h.length_eq ▸ Nat.le_of_not_lt outside)

theorem inside_iff (h : c.Whole) : c.pos < c.window.stop ↔ c.rest ≠ [] := by
  constructor
  · intro inside
    rw [h.rest_of_inside inside]
    exact List.cons_ne_nil _ _
  · intro hne
    by_contra outside
    exact hne (h.rest_of_outside outside)

theorem openRun_advance (h : c.Whole) (inside : c.pos < c.window.stop) :
    c.advance.openRun = c.openRun ++ [c.ch] := by
  have hboundary := h.boundary_le
  have hlen : c.pos < c.window.length := h.stop_eq ▸ inside
  have hlast : c.window.textRange c.pos (c.pos + 1) = [c.ch] := by
    rw [Window.textRange, Nat.min_eq_left hlen, h.ch_eq, Window.charOrSpace,
      Window.charOr_of_lt hlen, Nat.succ_sub (Nat.le_refl _), Nat.sub_self]
    rfl
  rw [openRun, openRun, window_advance, pos_advance, if_pos inside,
    Window.textRange_append hboundary (Nat.le_succ _) hlen, hlast]

theorem openRun_switchTo (h : c.Whole) (state : UInt8) : (c.switchTo state).openRun = [] := by
  have hboundary := h.boundary_le
  have hpos := h.pos_le
  rw [openRun, Window.textRange, Cursor.switchTo, Window.boundary_commitBefore]
  exact List.map_eq_nil_iff.2 (List.range'_eq_nil_iff.2 (by dsimp only; omega))

theorem cells_switchTo (h : c.Whole) (state : UInt8) :
    (c.switchTo state).window.cells = c.window.cells ++ c.ink.map (·, c.state) :=
  Window.cells_commitBefore h.boundary_le h.pos_le (Nat.le_of_eq h.stop_eq)

theorem ink_switchTo (h : c.Whole) (state : UInt8) : (c.switchTo state).ink = [] := by
  rw [ink, h.openRun_switchTo]
  rfl

theorem ink_advance (h : c.Whole) (inside : c.pos < c.window.stop) :
    c.advance.ink = c.ink ++ [c.ch].filter (!isLineBreak ·) := by
  rw [ink, h.openRun_advance inside, List.filter_append, ink]

/-- The end of a line leaves no ink. -/
theorem ink_advance_of_isLineBreak (h : c.Whole) (hb : isLineBreak c.ch = true) :
    c.advance.ink = c.ink := by
  by_cases inside : c.pos < c.window.stop
  · rw [h.ink_advance inside, List.filter_cons, hb]
    exact List.append_nil _
  · rw [advance_of_not_lt inside]
    rfl

/-- A line feed is the last character of its line. -/
theorem atLineEnd_of_lf (h : c.Whole) (hlf : c.ch = '\n') : c.atLineEnd = true := by
  rw [h.atLineEnd_eq, hlf, endsLine, Bool.or_eq_true]
  exact .inl rfl

/-- A line ends within the text. -/
theorem inside_of_isLineBreak (h : c.Whole) (hb : isLineBreak c.ch = true) :
    c.pos < c.window.stop := by
  by_contra outside
  rw [h.ch_eq, h.charOrSpace_of_le (Nat.le_of_not_lt outside)] at hb
  exact absurd hb (by decide)

end Whole

/-! ## Two cursors at the same place of the same text -/

/-- **Two cursors are at the same place and in the same style, and they have passed the
    same ink**, styled the same. -/
structure SameInk (c c' : Cursor) : Prop where
  whole : c.Whole
  whole' : c'.Whole
  rest_eq : c'.rest = c.rest
  cells_eq : c'.window.cells = c.window.cells
  ink_eq : c'.ink = c.ink
  state_eq : c'.state = c.state
  prev_eq : c'.prev = c.prev
  atLineStart_eq : c'.atLineStart = c.atLineStart

/-- **It makes no difference whether a run is closed before or behind a line end.** -/
theorem sameInk_swap (h : c.Whole) (hb : isLineBreak c.ch = true) (state : UInt8) :
    SameInk (c.advance.switchTo state) (c.switchTo state).advance := by
  have inside := h.inside_of_isLineBreak hb
  have hswitch := h.switchTo state
  have inside' : (c.switchTo state).pos < (c.switchTo state).window.stop := inside
  have hb' : isLineBreak (c.switchTo state).ch = true := hb
  constructor
  case whole => exact h.advance.switchTo state
  case whole' => exact hswitch.advance
  case cells_eq =>
    rw [h.advance.cells_switchTo, window_advance, h.cells_switchTo, window_advance,
      h.ink_advance_of_isLineBreak hb, state_advance]
  case ink_eq =>
    rw [hswitch.ink_advance_of_isLineBreak hb', h.ink_switchTo, h.advance.ink_switchTo]
  all_goals rw [advance_of_lt inside', advance_of_lt inside]
  all_goals rfl

/-! ## Texts with different line ends -/

/-- **Two cursors in tandem, on texts that differ in their line ends.**  Lines end with
    line feeds in the first of the texts, and none goes on behind a backslash. -/
structure Tandem (e : LineEnd) (c c' : Cursor) : Prop where
  whole : c.Whole
  whole' : c'.Whole
  rest_eq : c'.rest = e.spread c.rest
  lineFeeds : '\r' ∉ c.rest
  uncontinued : ¬ ['\\', '\n'] <:+: c.rest
  cells_eq : c'.window.cells = c.window.cells
  ink_eq : c'.ink = c.ink
  run_eq : (CFamily.Style.ofCode c.state).isLookedUp = true → c'.openRun = c.openRun
  state_eq : c'.state = c.state
  prev : UpToBreak c.prev c'.prev
  atLineStart_eq : c'.atLineStart = c.atLineStart

/-- Behind characters that end no line, the texts go on alike. -/
theorem upToBreak_getD (n : Nat) (cs : List Char)
    (h : ∀ k < n, isLineBreak (cs[k]?.getD ' ') = false) :
    UpToBreak (cs[n]?.getD ' ') ((e.spread cs)[n]?.getD ' ') := by
  induction n generalizing cs with
  | zero =>
    cases cs with
    | nil => exact .refl _
    | cons c cs =>
      by_cases hc : c = '\n'
      · rw [hc, LineEnd.spread_lf]
        exact .inr ⟨rfl, by cases e <;> rfl⟩
      · rw [LineEnd.spread_cons hc]
        exact .refl _
  | succ n ih =>
    cases cs with
    | nil => exact .refl _
    | cons c cs =>
      have hc : isLineBreak c = false := h 0 (Nat.succ_pos n)
      rw [LineEnd.spread_cons_of_not_isLineBreak hc]
      exact ih cs fun k hk => h (k + 1) (Nat.succ_lt_succ hk)

/-- Moves over the end of a line. -/
def passEnd (e : LineEnd) (c : Cursor) : Cursor :=
  match e with
  | .cr => c.advance
  | .crlf => c.advance.advance

namespace Tandem

theorem congr_left (h : Tandem e c c') (hs : SameInk c c'')
    (hl : (CFamily.Style.ofCode c.state).isLookedUp = false) : Tandem e c'' c' where
  whole := hs.whole'
  whole' := h.whole'
  rest_eq := by rw [hs.rest_eq, h.rest_eq]
  lineFeeds := hs.rest_eq ▸ h.lineFeeds
  uncontinued := hs.rest_eq ▸ h.uncontinued
  cells_eq := by rw [hs.cells_eq, h.cells_eq]
  ink_eq := by rw [hs.ink_eq, h.ink_eq]
  run_eq hl' := by
    rw [hs.state_eq, hl] at hl'
    exact nomatch hl'
  state_eq := by rw [hs.state_eq, h.state_eq]
  prev := hs.prev_eq ▸ h.prev
  atLineStart_eq := by rw [hs.atLineStart_eq, h.atLineStart_eq]

theorem congr_right (h : Tandem e c c') (hs : SameInk c' c'')
    (hl : (CFamily.Style.ofCode c.state).isLookedUp = false) : Tandem e c c'' where
  whole := h.whole
  whole' := hs.whole'
  rest_eq := by rw [hs.rest_eq, h.rest_eq]
  lineFeeds := h.lineFeeds
  uncontinued := h.uncontinued
  cells_eq := by rw [hs.cells_eq, h.cells_eq]
  ink_eq := by rw [hs.ink_eq, h.ink_eq]
  run_eq hl' := by
    rw [hl] at hl'
    exact nomatch hl'
  state_eq := by rw [hs.state_eq, h.state_eq]
  prev := hs.prev_eq ▸ h.prev
  atLineStart_eq := by rw [hs.atLineStart_eq, h.atLineStart_eq]

/-! ### What the cursors see -/

theorem inside_iff (h : Tandem e c c') : c'.pos < c'.window.stop ↔ c.pos < c.window.stop := by
  rw [h.whole.inside_iff, h.whole'.inside_iff, h.rest_eq]
  refine not_congr ⟨fun hnil => ?_, fun hnil => by rw [hnil]; rfl⟩
  cases hrest : c.rest with
  | nil => rfl
  | cons ch cs =>
    rw [hrest] at hnil
    by_cases hch : ch = '\n'
    · rw [hch, LineEnd.spread_lf] at hnil
      cases e <;> exact nomatch hnil
    · rw [LineEnd.spread_cons hch] at hnil
      exact nomatch hnil

theorem peek (h : Tandem e c c') {n : Nat} (hn : ∀ k < n, isLineBreak (c.peek k) = false) :
    UpToBreak (c.peek n) (c'.peek n) := by
  rw [h.whole.peek_eq, h.whole'.peek_eq, h.rest_eq]
  exact upToBreak_getD n c.rest fun k hk => h.whole.peek_eq k ▸ hn k hk

theorem ch (h : Tandem e c c') : UpToBreak c.ch c'.ch := by
  rw [h.whole.ch_eq_peek, h.whole'.ch_eq_peek]
  exact h.peek fun k hk => absurd hk (Nat.not_lt_zero k)

theorem next (h : Tandem e c c') (hb : isLineBreak c.ch = false) : UpToBreak c.next c'.next := by
  rw [h.whole.next_eq_peek, h.whole'.next_eq_peek]
  refine h.peek fun k hk => ?_
  obtain rfl : k = 0 := by omega
  rwa [← h.whole.ch_eq_peek]

/-- **The cursors see the same to the end of the line, whatever ends it.** -/
theorem surroundings (h : Tandem e c c') : c.surroundings.UpToBreak c'.surroundings where
  prev := h.prev
  ch := h.ch
  atLineStart_eq := h.atLineStart_eq
  next := h.next
  next2 hb hn := by
    refine h.peek fun k hk => ?_
    rcases (by omega : k = 0 ∨ k = 1) with rfl | rfl
    · rwa [← h.whole.ch_eq_peek]
    · rwa [← h.whole.next_eq_peek]
  next3 hb hn hn2 := by
    refine h.peek fun k hk => ?_
    rcases (by omega : k = 0 ∨ k = 1 ∨ k = 2) with rfl | rfl | rfl
    · rwa [← h.whole.ch_eq_peek]
    · rwa [← h.whole.next_eq_peek]
    · exact hn2

/-- Before the end of the line neither cursor is on its last character. -/
theorem atLineEnd_eq (h : Tandem e c c') (hb : isLineBreak c.ch = false) :
    c'.atLineEnd = c.atLineEnd := by
  obtain ⟨hlf, hcr⟩ := isLineBreak_eq_false.1 hb
  have hch := h.ch.eq_of_not_isLineBreak hb
  rw [h.whole.atLineEnd_eq, h.whole'.atLineEnd_eq, hch]
  simp only [endsLine, beq_false_of_ne hlf, beq_false_of_ne hcr, Bool.false_and, Bool.false_or,
    ← Nat.not_lt, h.inside_iff]

/-- The characters before the one that is looked at are those of the word. -/
theorem all_peek_eq (h : Tandem e c c') {cs : List Char}
    (hcs : ∀ ch ∈ cs, isLineBreak ch = false) (k : Nat)
    (hk : ∀ j < k, isLineBreak (c.peek j) = false) :
    (cs.zipIdx k).all (fun (expected, n) => c'.peek n == expected) =
      (cs.zipIdx k).all fun (expected, n) => c.peek n == expected := by
  induction cs generalizing k with
  | nil => rfl
  | cons ch cs ih =>
    have hbreak := hcs ch List.mem_cons_self
    rw [List.zipIdx_cons, List.all_cons, List.all_cons]
    dsimp only
    rw [(h.peek hk).beq_eq hbreak]
    by_cases hch : c.peek k = ch
    · rw [ih (fun ch hmem => hcs ch (List.mem_cons_of_mem _ hmem)) (k + 1) fun j hj => ?_]
      rcases Nat.lt_or_eq_of_le (Nat.le_of_lt_succ hj) with hlt | rfl
      · exact hk j hlt
      · rwa [hch]
    · rw [beq_false_of_ne hch, Bool.false_and, Bool.false_and]

theorem lookingAt_eq (h : Tandem e c c') {cs : List Char}
    (hcs : ∀ ch ∈ cs, isLineBreak ch = false) : c'.lookingAt cs = c.lookingAt cs :=
  h.all_peek_eq hcs 0 fun j hj => absurd hj (Nat.not_lt_zero j)

/-! ### How they move -/

/-- **Cursors that pass a character that ends no line stay in tandem.** -/
theorem advance (h : Tandem e c c') (hb : isLineBreak c.ch = false) :
    Tandem e c.advance c'.advance := by
  have hch := h.ch.eq_of_not_isLineBreak hb
  by_cases inside : c.pos < c.window.stop
  · have inside' := h.inside_iff.2 inside
    have hrest := h.whole.rest_of_inside inside
    have hrest' : c'.advance.rest = e.spread c.advance.rest := by
      have hspread := h.rest_eq
      rw [h.whole'.rest_of_inside inside', hrest,
        LineEnd.spread_cons_of_not_isLineBreak hb] at hspread
      exact (List.cons.inj hspread).2
    constructor
    case whole => exact h.whole.advance
    case whole' => exact h.whole'.advance
    case rest_eq => exact hrest'
    case lineFeeds =>
      intro hmem
      exact h.lineFeeds (hrest ▸ List.mem_cons_of_mem _ hmem)
    case uncontinued =>
      intro hinfix
      exact h.uncontinued (hrest ▸ List.infix_cons hinfix)
    case cells_eq => rw [window_advance, window_advance, h.cells_eq]
    case ink_eq =>
      rw [h.whole.ink_advance inside, h.whole'.ink_advance inside', h.ink_eq, hch]
    case run_eq =>
      intro hl
      rw [state_advance] at hl
      rw [h.whole.openRun_advance inside, h.whole'.openRun_advance inside', h.run_eq hl, hch]
    case state_eq => rw [state_advance, state_advance, h.state_eq]
    all_goals rw [advance_of_lt inside, advance_of_lt inside']
    case prev => exact h.ch
    case atLineStart_eq => exact h.atLineEnd_eq hb
  · rw [advance_of_not_lt inside, advance_of_not_lt (mt h.inside_iff.1 inside)]
    have hadvance := h.whole.advance
    have hadvance' := h.whole'.advance
    rw [advance_of_not_lt inside] at hadvance
    rw [advance_of_not_lt (mt h.inside_iff.1 inside)] at hadvance'
    exact
      { h with
        whole := hadvance
        whole' := hadvance'
        prev := .refl _
        atLineStart_eq := rfl }

/-- **Runs can be given a style and closed** without a look at the text. -/
theorem close (h : Tandem e c c') (code state : UInt8) :
    Tandem e ((c.recolour code).switchTo state) ((c'.recolour code).switchTo state) :=
  have hw := h.whole.recolour code
  have hw' := h.whole'.recolour code
  { h with
    whole := hw.switchTo state
    whole' := hw'.switchTo state
    cells_eq := by
      rw [hw.cells_switchTo, hw'.cells_switchTo]
      show c'.window.cells ++ c'.ink.map (·, code) = c.window.cells ++ c.ink.map (·, code)
      rw [h.cells_eq, h.ink_eq]
    ink_eq := by rw [hw.ink_switchTo, hw'.ink_switchTo]
    run_eq := fun _ => by rw [hw.openRun_switchTo, hw'.openRun_switchTo]
    state_eq := rfl }

theorem switchTo (h : Tandem e c c') (state : UInt8) :
    Tandem e (c.switchTo state) (c'.switchTo state) := by
  have hclose := h.close c.state state
  rwa [recolour_eq rfl, recolour_eq h.state_eq] at hclose

theorem recolour (h : Tandem e c c') {state : UInt8}
    (hl : (CFamily.Style.ofCode state).isLookedUp = false) :
    Tandem e (c.recolour state) (c'.recolour state) :=
  { h with
    whole := h.whole.recolour state
    whole' := h.whole'.recolour state
    run_eq := fun hl' => by
      rw [show (c.recolour state).state = state from rfl, hl] at hl'
      exact nomatch hl'
    state_eq := rfl }

theorem skipWhile {p : Char → Bool} (hp : ∀ ch, p ch = true → isLineBreak ch = false)
    (hcr : p '\r' = p '\n') (h : Tandem e c c') : Tandem e (c.skipWhile p) (c'.skipWhile p) := by
  fun_induction Cursor.skipWhile p c generalizing c' with
  | case1 c inside hch ih =>
    rw [Cursor.skipWhile.eq_def p c', dif_pos (h.inside_iff.2 inside),
      if_pos (by rwa [h.ch.apply p hcr])]
    exact ih (h.advance (hp _ hch))
  | case2 c inside hch =>
    rw [Cursor.skipWhile.eq_def p c', dif_pos (h.inside_iff.2 inside),
      if_neg (by rwa [h.ch.apply p hcr])]
    exact h
  | case3 c outside =>
    rw [Cursor.skipWhile.eq_def p c', dif_neg (mt h.inside_iff.1 outside)]
    exact h

/-- The line ends of the first text are line feeds. -/
theorem ch_eq_lf (h : Tandem e c c') (hb : isLineBreak c.ch = true) : c.ch = '\n' := by
  refine (isLineBreak_iff.1 hb).resolve_right fun hcr => h.lineFeeds ?_
  rw [h.whole.rest_of_inside (h.whole.inside_of_isLineBreak hb), hcr]
  exact List.mem_cons_self

theorem atLineEnd_of_isLineBreak (h : Tandem e c c') (hb : isLineBreak c.ch = true) :
    c.atLineEnd = true := h.whole.atLineEnd_of_lf (h.ch_eq_lf hb)

/-- Behind a line end a line starts. -/
theorem atLineStart_advance (h : Tandem e c c') (hb : isLineBreak c.ch = true) :
    c.advance.atLineStart = true := by
  rw [advance_of_lt (h.whole.inside_of_isLineBreak hb)]
  exact h.atLineEnd_of_isLineBreak hb

theorem rest_passBreak (h : Tandem e c c') (hb : isLineBreak c.ch = true) :
    c'.rest = e.chars ++ e.spread c.advance.rest := by
  rw [h.rest_eq, h.whole.rest_of_inside (h.whole.inside_of_isLineBreak hb), h.ch_eq_lf hb,
    LineEnd.spread_lf]

/-- With carriage returns alone, no line feed is left. -/
theorem getD_spread_cr_ne (cs : List Char) : (LineEnd.cr.spread cs)[0]?.getD ' ' ≠ '\n' := by
  cases cs with
  | nil => decide
  | cons c cs =>
    by_cases hc : c = '\n'
    · rw [hc]
      exact (by decide : '\r' ≠ '\n')
    · rw [LineEnd.spread_cons hc]
      exact hc

/-- A carriage return alone is the last character of its line. -/
theorem atLineEnd_cr (h : Tandem .cr c c') (hb : isLineBreak c.ch = true) :
    c'.atLineEnd = true := by
  have inside' := h.inside_iff.2 (h.whole.inside_of_isLineBreak hb)
  have hfirst := h.rest_passBreak hb
  rw [h.whole'.rest_of_inside inside'] at hfirst
  obtain ⟨hcr, hrest'⟩ := List.cons.inj hfirst
  have hnext : c'.next ≠ '\n' := by
    rw [h.whole'.next_eq_peek, h.whole'.peek_eq, h.whole'.rest_of_inside inside', hrest']
    exact getD_spread_cr_ne _
  rw [h.whole'.atLineEnd_eq, hcr, endsLine, bne_iff_ne.2 hnext]
  rfl

/-- A carriage return before a line feed is not the last character of its line. -/
theorem atLineEnd_crlf (h : Tandem .crlf c c') (hb : isLineBreak c.ch = true) :
    c'.atLineEnd = false ∧ c'.advance.pos < c'.advance.window.stop ∧ c'.advance.ch = '\n' := by
  have inside' := h.inside_iff.2 (h.whole.inside_of_isLineBreak hb)
  have hfirst := h.rest_passBreak hb
  rw [h.whole'.rest_of_inside inside'] at hfirst
  obtain ⟨hcr, hrest'⟩ := List.cons.inj hfirst
  have hsecond : c'.advance.pos < c'.advance.window.stop := by
    rw [h.whole'.advance.inside_iff, hrest']
    exact List.cons_ne_nil _ _
  rw [h.whole'.advance.rest_of_inside hsecond] at hrest'
  have hlf : c'.next = '\n' := by
    have hch : c'.advance.ch = c'.next := by rw [advance_of_lt inside']
    exact hch.symm.trans (List.cons.inj hrest').1
  refine ⟨?_, hsecond, (List.cons.inj hrest').1⟩
  rw [h.whole'.atLineEnd_eq, hcr, hlf, endsLine, decide_eq_false (Nat.not_le.2 inside')]
  rfl

/-- **Cursors that pass the end of a line stay in tandem**, one of them by as many
    characters as the line ends with. -/
theorem passBreak (h : Tandem e c c') (hb : isLineBreak c.ch = true)
    (hl : (CFamily.Style.ofCode c.state).isLookedUp = false) :
    Tandem e c.advance (c'.passEnd e) := by
  have inside := h.whole.inside_of_isLineBreak hb
  have inside' := h.inside_iff.2 inside
  have hb' : isLineBreak c'.ch = true := h.ch.isLineBreak_eq.trans hb
  have hrest := h.whole.rest_of_inside inside
  have hends : c.advance.atLineStart = true := h.atLineStart_advance hb
  have hprev : isLineBreak c.advance.prev = true := by
    rw [advance_of_lt inside]
    exact hb
  -- It remains to be said where the second cursor comes to.
  suffices hpass : (c'.passEnd e).Whole ∧ (c'.passEnd e).rest = e.spread c.advance.rest ∧
      (c'.passEnd e).window = c'.window ∧ (c'.passEnd e).ink = c'.ink ∧
      (c'.passEnd e).state = c'.state ∧ isLineBreak (c'.passEnd e).prev = true ∧
      (c'.passEnd e).atLineStart = true by
    obtain ⟨hwhole', hrest', hwindow', hink', hstate', hprev', hends'⟩ := hpass
    exact
      { whole := h.whole.advance
        whole' := hwhole'
        rest_eq := hrest'
        lineFeeds := fun hmem => h.lineFeeds (hrest ▸ List.mem_cons_of_mem _ hmem)
        uncontinued := fun hinfix => h.uncontinued (hrest ▸ List.infix_cons hinfix)
        cells_eq := by rw [hwindow', window_advance, h.cells_eq]
        ink_eq := by rw [hink', h.whole.ink_advance_of_isLineBreak hb, h.ink_eq]
        run_eq := fun hl' => by
          rw [state_advance, hl] at hl'
          exact nomatch hl'
        state_eq := by rw [hstate', state_advance, h.state_eq]
        prev := .inr ⟨hprev, hprev'⟩
        atLineStart_eq := by rw [hends, hends'] }
  have hfirst := h.rest_passBreak hb
  rw [h.whole'.rest_of_inside inside'] at hfirst
  cases e with
  | cr =>
    have hrest' := (List.cons.inj hfirst).2
    refine ⟨h.whole'.advance, hrest', window_advance _, h.whole'.ink_advance_of_isLineBreak hb',
      state_advance _, ?_, ?_⟩
    · rw [passEnd, advance_of_lt inside']
      exact hb'
    · rw [passEnd, advance_of_lt inside']
      exact h.atLineEnd_cr hb
  | crlf =>
    obtain ⟨-, hsecond, hlf⟩ := h.atLineEnd_crlf hb
    have hwhole := h.whole'.advance
    have hrest' := (List.cons.inj hfirst).2
    rw [hwhole.rest_of_inside hsecond] at hrest'
    have hb'' : isLineBreak c'.advance.ch = true := by
      rw [hlf]
      rfl
    refine ⟨hwhole.advance, (List.cons.inj hrest').2, ?_, ?_, ?_, ?_, ?_⟩
    · rw [passEnd, window_advance, window_advance]
    · rw [passEnd, hwhole.ink_advance_of_isLineBreak hb'', h.whole'.ink_advance_of_isLineBreak hb']
    · rw [passEnd, state_advance, state_advance]
    · rw [passEnd, advance_of_lt hsecond]
      exact hb''
    · rw [passEnd, advance_of_lt hsecond]
      exact hwhole.atLineEnd_of_lf hlf

end Tandem

end Cursor

end StyledText
