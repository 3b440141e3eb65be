/-
  Lexing the same stretch twice.

  A lexer may move its window back, and then writes styles before the stretch that it
  was asked for.  It only looks at styles before the place that it moves back to.  So
  what it has written does not change what it finds when it is asked again.

  * `Buffer.styleAt_setStyles_of_lt`: styles put in leave those before them alone;
  * `Buffer.setStyles_setStyles`: putting them in again changes nothing;
  * `Document.lex_lex`: nor does lexing again.
-/
import StyledText.Proofs.Locality
import StyledText.Proofs.Restyling

namespace StyledText

/-! ## Styles put in twice -/

namespace Buffer

variable {b : Buffer} {p q : Nat} {values : Array UInt8}

/-- The styles that are put in, if that changes anything. -/
theorem setStyles?_eq_some {b' : Buffer} (h : b.setStyles? p values = some b') :
    ∃ styles, b.styles = some styles ∧ p < styles.size ∧
      b' = { b with
        styles := some (styles.extract 0 p ++
          values.extract 0 (min (p + values.size) styles.size - p) ++
          styles.extract (min (p + values.size) styles.size) styles.size) } := by
  unfold setStyles? at h
  obtain ⟨styles, hs, h⟩ := Option.bind_eq_some_iff.1 h
  dsimp only at h
  split at h
  · exact nomatch h
  · rename_i hchange
    exact ⟨styles, hs, Nat.lt_of_not_le fun hle => hchange (.inl hle), (Option.some.inj h).symm⟩

theorem setStyles_eq_or (b : Buffer) (p : Nat) (values : Array UInt8) :
    b.setStyles p values = b ∨ b.setStyles? p values = some (b.setStyles p values) := by
  unfold setStyles
  cases b.setStyles? p values with
  | none => exact .inl rfl
  | some b' => exact .inr rfl

/-- Only the styles change when styles are put in. -/
theorem exists_setStyles_eq (b : Buffer) (p : Nat) (values : Array UInt8) :
    ∃ styles, b.setStyles p values = { b with styles } := by
  rcases setStyles_eq_or b p values with h | h
  · exact ⟨b.styles, h⟩
  · obtain ⟨styles, -, -, heq⟩ := setStyles?_eq_some h
    exact ⟨_, heq⟩

/-- **Styles put in leave those before them alone**, whether they fit or not. -/
theorem styleAt_setStyles_of_lt (hq : q < p) : (b.setStyles p values).styleAt q = b.styleAt q := by
  rcases setStyles_eq_or b p values with h | h
  · rw [h]
  · obtain ⟨styles, hs, hp, heq⟩ := setStyles?_eq_some h
    rw [heq, styleAt, styleAt, hs, Option.bind_some, Option.bind_some, Array.append_assoc,
      getElem?_extract_zero_append hq (Nat.le_of_lt hp)]

/-- **Putting styles in again changes nothing.** -/
theorem setStyles_setStyles (b : Buffer) (p : Nat) (values : Array UInt8) :
    (b.setStyles p values).setStyles p values = b.setStyles p values := by
  rcases setStyles_eq_or b p values with h | h
  · rw [h, h]
  · obtain ⟨styles, hs, hp, heq⟩ := setStyles?_eq_some h
    rw [heq]
    generalize hstop : min (p + values.size) styles.size = stop
    generalize hfresh : values.extract 0 (stop - p) = fresh
    have hfirst : (styles.extract 0 p).size = p := by
      rw [Array.size_extract]
      omega
    have hsize : fresh.size = stop - p := by
      rw [← hfresh, Array.size_extract]
      omega
    generalize hall : styles.extract 0 p ++ fresh ++ styles.extract stop styles.size = all
    have hallSize : all.size = styles.size := by
      rw [← hall, Array.size_append, Array.size_append, hfirst, hsize, Array.size_extract]
      omega
    -- What would be put in stands there already.
    have hthere : all.extract p stop = fresh := by
      refine Array.ext_getElem? fun i => ?_
      rw [Array.getElem?_extract, ← hall]
      by_cases hi : i < stop - p
      · rw [if_pos (by rw [hall]; omega),
          Array.getElem?_append_left (by rw [Array.size_append]; omega),
          Array.getElem?_append_right (by omega), hfirst, Nat.add_sub_cancel_left]
      · rw [if_neg (by omega), Array.getElem?_eq_none (by omega)]
    rw [setStyles, setStyles?]
    simp only [Option.bind_eq_bind, Option.bind_some, hallSize, hstop, hfresh, hthere, or_true,
      if_true, Option.getD_none]

end Buffer

/-! ## Lexing twice -/

namespace Document

open CFamily

variable {d : Dialect} {doc : Document}

/-- A buffer in which the styles of a window have been put looks to the lexer like
    the one that it has styled. -/
theorem sameLexed_setStyles (d : Dialect) (b : Buffer) (start n : Nat) (initial : UInt8)
    {r : Lexed} (hr : d.lex (.ofBuffer b start n) initial = r) :
    SameLexed r
      (d.lex (.ofBuffer (b.setStyles r.window.start r.window.pending) start n) initial) := by
  obtain ⟨styles, heq⟩ := b.exists_setStyles_eq r.window.start r.window.pending
  have hbelow (q : Nat) (hq : q < r.window.start) :
      (b.setStyles r.window.start r.window.pending).styleAt q = b.styleAt q :=
    Buffer.styleAt_setStyles_of_lt hq
  rw [heq] at hbelow ⊢
  have hview : (Window.ofBuffer b start n).SameView r.window.start
      (.ofBuffer { b with styles } start n) :=
    { fresh := Window.fresh_ofBuffer b start n
      fresh' := Window.fresh_ofBuffer _ start n
      start_eq := rfl
      stop_eq := rfl
      char_eq := fun q _ => rfl
      style_eq := hbelow
      line_eq := fun p _ => rfl }
  subst hr
  exact sameLexed_of_sameView hview (Nat.le_refl _)

/-- The position up to which styles are known, with a window styled. -/
def progress (w : Window) (known : Nat) : Nat :=
  if w.start ≤ known then max known w.boundary else known

theorem progress_progress (w : Window) (known : Nat) :
    progress w (progress w known) = progress w known := by
  unfold progress
  by_cases h : w.start ≤ known
  · rw [if_pos h, if_pos (by omega)]
    omega
  · rw [if_neg h, if_neg h]

theorem lex_eq (hlexer : doc.lexer = some d.lexer) (start n : Nat) (initial : UInt8)
    {r : Lexed} (hr : d.lex (.ofBuffer doc.buffer start n) initial = r) :
    doc.lex start n initial =
      ({ doc with
          buffer := doc.buffer.setStyles r.window.start r.window.pending
          endStyled := progress r.window doc.endStyled
          includes := r.includes },
        Lexer.stylesFrom r.window (Window.ofBuffer doc.buffer start n).start) := by
  subst hr
  rw [lex, hlexer]
  rfl

/-- **Lexing a stretch again changes nothing.**  With a lexer for a C-like language,
    the same styles are given, and the document, with its styles, its include paths
    and its styling progress, stays as the first run has left it. -/
theorem lex_lex (doc : Document) (hlexer : doc.lexer = some d.lexer) (start n : Nat)
    (initial : UInt8) :
    (doc.lex start n initial).1.lex start n initial = doc.lex start n initial := by
  obtain ⟨r, hr⟩ : ∃ r, d.lex (.ofBuffer doc.buffer start n) initial = r := ⟨_, rfl⟩
  obtain ⟨r', hr'⟩ : ∃ r', d.lex (.ofBuffer
      (doc.buffer.setStyles r.window.start r.window.pending) start n) initial = r' := ⟨_, rfl⟩
  have hsame : SameLexed r r' := hr' ▸ sameLexed_setStyles d doc.buffer start n initial hr
  have hasked : (Window.ofBuffer (doc.buffer.setStyles r.window.start r.window.pending)
      start n).start = (Window.ofBuffer doc.buffer start n).start := by
    obtain ⟨styles, heq⟩ := doc.buffer.exists_setStyles_eq r.window.start r.window.pending
    rw [heq]
    rfl
  have hprogress (known : Nat) : progress r'.window known = progress r.window known := by
    simp only [progress, Window.boundary, hsame.start_eq, hsame.pending_eq]
  have hgiven (start : Nat) :
      Lexer.stylesFrom r'.window start = Lexer.stylesFrom r.window start := by
    simp only [Lexer.stylesFrom, hsame.start_eq, hsame.pending_eq]
  obtain ⟨first, hfirst⟩ : ∃ first : Document, first = { doc with
      buffer := doc.buffer.setStyles r.window.start r.window.pending
      endStyled := progress r.window doc.endStyled
      includes := r.includes } := ⟨_, rfl⟩
  have hbuffer : first.buffer = doc.buffer.setStyles r.window.start r.window.pending := by
    rw [hfirst]
  rw [lex_eq hlexer start n initial hr, ← hfirst,
    lex_eq (hfirst ▸ hlexer) start n initial (hbuffer ▸ hr')]
  rw [hsame.start_eq, hsame.pending_eq, hprogress, hsame.includes_eq, hbuffer, hasked, hgiven,
    Buffer.setStyles_setStyles, hfirst, progress_progress]

/-- A document in which nothing has been styled. -/
def assignment : Document := (Document.ofText (.ofString "a = int")).setLexer oneWord.lexer

/-- The stretch begins within a word, so that the word is styled as a whole. -/
theorem lex_lex_assignment :
    assignment.lexer = some oneWord.lexer ∧
      ((assignment.lex 5 2 11).1.lex 5 2 11).2 = #[5, 5] ∧
      ((assignment.lex 5 2 11).1.lex 5 2 11).1.buffer.styles = some #[0, 0, 0, 0, 5, 5, 5] := by
  rw [lex_lex (d := oneWord) assignment rfl]
  exact ⟨rfl, by decide +kernel⟩

end Document

end StyledText
