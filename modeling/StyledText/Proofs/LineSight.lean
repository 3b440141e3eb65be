/-
  What a transition sees of the text ends with the line.

  A transition looks up to three characters ahead, but it looks behind a
  character only where that one could be part of a longer mark, and no character
  that ends a line is part of any.  So two places that look alike to the end of
  their line are left, and entered, alike.

  * `SameLine`: two places look alike to the end of their line;
  * `leave_congr` and `enter?_congr`: the transitions are the same there;
  * `Fits` and `leave_fits`: what each answer of `leave` says about the style and
    the character, among others that no line end is ever skipped, and that a
    style in which a line ends is settled;
  * `Enter.Meets` and `enter?_meets`: what each answer of `enter?` says about the
    characters and about what is remembered.
-/
import Mathlib.Logic.Basic
import Mathlib.Tactic.SplitIfs
import StyledText.CFamily.Transition

namespace StyledText

/-- A line end is white space. -/
theorem isSpace_of_isLineBreak {c : Char} (hb : isLineBreak c = true) : isSpace c = true := by
  rcases isLineBreak_iff.1 hb with rfl | rfl <;> decide

/-- A class of characters without the line ends. -/
theorem not_isLineBreak_of {p : Char → Bool} (hlf : p '\n' = false) (hcr : p '\r' = false)
    (c : Char) (h : p c = true) : isLineBreak c = false := by
  rw [isLineBreak_eq_false]
  constructor
  · rintro rfl
    rw [hlf] at h
    exact nomatch h
  · rintro rfl
    rw [hcr] at h
    exact nomatch h

/-- **Two places look alike to the end of their line.** -/
structure Surroundings.SameLine (here there : Surroundings) : Prop where
  prev_eq : there.prev = here.prev
  ch_eq : there.ch = here.ch
  atLineStart_eq : there.atLineStart = here.atLineStart
  atLineEnd_eq : there.atLineEnd = here.atLineEnd
  next_eq : isLineBreak here.ch = false → there.next = here.next
  next2_eq : isLineBreak here.ch = false → isLineBreak here.next = false →
    there.next2 = here.next2
  next3_eq : isLineBreak here.ch = false → isLineBreak here.next = false →
    isLineBreak here.next2 = false → there.next3 = here.next3

namespace CFamily

variable {here there : Surroundings} {style : Style} {memory memory' : Memory}
  {settings : Settings}

/-! ## The same transitions -/

theorem closesComment_congr (h : here.SameLine there) :
    closesComment there = closesComment here := by
  unfold closesComment
  rw [h.ch_eq]
  by_cases hc : here.ch = '*'
  · rw [h.next_eq (by rw [hc]; rfl)]
  · rw [beq_false_of_ne hc, Bool.false_and, Bool.false_and]

theorem beginsDocKeyword_congr (h : here.SameLine there) (after : List Char) :
    beginsDocKeyword there after = beginsDocKeyword here after := by
  unfold beginsDocKeyword
  rw [h.ch_eq, h.prev_eq]
  by_cases hc : here.ch = '@' ∨ here.ch = '\\'
  · rw [h.next_eq (by rcases hc with hc | hc <;> rw [hc] <;> rfl)]
  · obtain ⟨h1, h2⟩ := not_or.1 hc
    simp only [beq_false_of_ne h1, beq_false_of_ne h2, Bool.or_self, Bool.false_and]

theorem leaveLiteral_congr (h : here.SameLine there) (close : Char) :
    leaveLiteral there close = leaveLiteral here close := by
  unfold leaveLiteral
  rw [h.ch_eq, h.atLineEnd_eq]

theorem leaveDirective_congr (h : here.SameLine there) (hc : memory'.continued = memory.continued)
    (hi : memory'.inInclude = memory.inInclude) :
    leaveDirective there memory' settings = leaveDirective here memory settings := by
  unfold leaveDirective
  rw [h.ch_eq, h.atLineStart_eq, hc, hi]
  by_cases hs : here.ch = '/'
  · rw [h.next_eq (by rw [hs]; rfl)]
  · simp [hs]

/-- **A style ends alike at places that look alike**, if what it hangs on is
    remembered alike. -/
theorem leave_congr (h : here.SameLine there) (hc : memory'.continued = memory.continued)
    (hi : memory'.inInclude = memory.inInclude)
    (hs : style = .string → memory'.stringClose = memory.stringClose)
    (hd : style = .docKeyword → memory'.docStyle = memory.docStyle) :
    leave style there memory' settings = leave style here memory settings := by
  cases style with
  | plain | operator | keyword | keyword2 | globalClass | docKeywordError => rfl
  | number | identifier | uuid => simp only [leave, h.ch_eq, h.prev_eq]
  | lineComment | unclosed => simp only [leave, h.atLineStart_eq]
  | directive => exact leaveDirective_congr h hc hi
  | blockComment => simp only [leave, closesComment_congr h]
  | docComment => simp only [leave, closesComment_congr h, beginsDocKeyword_congr h]
  | docLineComment => simp only [leave, h.atLineStart_eq, beginsDocKeyword_congr h]
  | docKeyword => simp only [leave, closesComment_congr h, h.ch_eq, hd rfl]
  | string => simp only [leave, leaveLiteral_congr h, hs rfl]
  | character => exact leaveLiteral_congr h '\''
  | verbatim =>
    simp only [leave, h.ch_eq]
    by_cases hq : here.ch = '"'
    · rw [h.next_eq (by rw [hq]; rfl)]
    · simp [hq]
  | regex =>
    simp only [leave, h.ch_eq, h.atLineStart_eq]
    by_cases hq : here.ch = '\\'
    · rw [h.next_eq (by rw [hq]; rfl)]
    · simp [hq]

/-- **The same begins at places that look alike.** -/
theorem enter?_congr (h : here.SameLine there) (hv : memory'.visible = memory.visible)
    (hu : memory'.afterUuid = memory.afterUuid) (hi : memory'.inInclude = memory.inInclude)
    (hp : permitsRegex memory'.lastVisible = permitsRegex memory.lastVisible) :
    enter? there memory' settings = enter? here memory settings := by
  unfold enter?
  simp only [h.ch_eq, hv, hu, hi, hp]
  by_cases hb : isLineBreak here.ch = true
  · rcases isLineBreak_iff.1 hb with hc | hc <;> simp [hc]
  · -- A slash is followed by up to two more characters of its mark.
    rw [Bool.not_eq_true] at hb
    rw [h.next_eq hb]
    by_cases hn : isLineBreak here.next = true
    · rcases isLineBreak_iff.1 hn with hc | hc <;> simp [hc]
    · rw [Bool.not_eq_true] at hn
      rw [h.next2_eq hb hn]
      by_cases hn2 : isLineBreak here.next2 = true
      · rcases isLineBreak_iff.1 hn2 with hc | hc <;> simp [hc]
      · rw [h.next3_eq hb hn (Bool.not_eq_true _ ▸ hn2)]

/-- Nothing begins with the end of a line. -/
theorem enter?_of_isLineBreak (h : isLineBreak here.ch = true) :
    enter? here memory settings = none := by
  rcases isLineBreak_iff.1 h with hc | hc <;> simp only [enter?, hc] <;> rfl

/-! ## What an answer says -/

/-- The styles that a line can end in: their run keeps its style, and nothing but
    the style itself tells how they go on. -/
def Style.isSettled : Style → Bool
  | plain | blockComment | docComment | lineComment | docLineComment | directive | unclosed
  | verbatim | regex => true
  | _ => false

/-- The styles whose open run may still turn out to be in another style. -/
def Style.isTentative : Style → Bool
  | identifier | docKeyword | string | character => true
  | _ => false

theorem Style.not_isTentative {style : Style} (h : style.isSettled = true) :
    style.isTentative = false := by
  cases style <;> first | rfl | exact absurd h Bool.false_ne_true

/-- What a lexer remembers for its literals and comments is never out of place:
    a string is closed by `"` or `>`, and a documentation keyword is in a
    documenting comment. -/
structure Memory.Sane (memory : Memory) : Prop where
  stringClose : memory.stringClose = '"' ∨ memory.stringClose = '>'
  docStyle : memory.docStyle = .docComment ∨ memory.docStyle = .docLineComment

/-- **What the answer to how `style` ends at a place says about the two.** -/
def Leave.Fits (style : Style) (here : Surroundings) : Leave → Prop
  | .stay => here.atLineEnd = true → isLineBreak here.ch = true → style.isSettled = true
  | .switch next => next = .plain
  | .switchAfter next => next = .plain ∧ isLineBreak here.ch = false
  | .switchAfterPair next =>
    next = .plain ∧ isLineBreak here.ch = false ∧ isLineBreak here.next = false
  | .recolour next => next = .unclosed ∧ style.isTentative = true
  | .skipNext => isLineBreak here.ch = false ∧ (here.ch = '\\' ∨ isLineBreak here.next = false)
  | .endWord => style = .identifier
  | .openDocKeyword =>
    (style = .docComment ∨ style = .docLineComment) ∧ isLineBreak here.ch = false
  | .closeDocKeyword => style = .docKeyword
  | .breakDocKeyword =>
    style = .docKeyword ∧ isLineBreak here.ch = false ∧ isLineBreak here.next = false
  | .openLiteral literal =>
    isLineBreak here.ch = false ∧ ∀ close, literal = .string close → close = '"' ∨ close = '>'
  | .closeLiteral => (style = .string ∨ style = .character) ∧ isLineBreak here.ch = false
  | .closeRegex => isLineBreak here.ch = false

theorem closesComment_iff : closesComment here = true ↔ here.ch = '*' ∧ here.next = '/' := by
  simp [closesComment]

theorem not_isLineBreak_of_beginsDocKeyword {after : List Char}
    (h : beginsDocKeyword here after = true) : isLineBreak here.ch = false := by
  simp only [beginsDocKeyword, Bool.and_eq_true, Bool.or_eq_true, beq_iff_eq] at h
  rcases h.1.1 with hc | hc <;> rw [hc] <;> rfl

theorem leaveLiteral_fits {close : Char} (hs : style = .string ∨ style = .character)
    (hc : isLineBreak close = false) : (leaveLiteral here close).Fits style here := by
  unfold leaveLiteral
  split_ifs with h1 h2 h3
  · exact ⟨rfl, by rcases hs with rfl | rfl <;> rfl⟩
  · have hch : here.ch = '\\' := by simp_all
    exact ⟨by rw [hch]; rfl, Or.inl hch⟩
  · have hch : here.ch = close := by simpa using h3
    exact ⟨hs, by rw [hch]; exact hc⟩
  · exact fun hend _ => absurd hend h1

theorem leaveDirective_fits : (leaveDirective here memory settings).Fits .directive here := by
  unfold leaveDirective
  split_ifs with h1 h2 h3 h4 h5 h6 h7
  · exact rfl
  · exact rfl
  · exact fun _ _ => rfl
  · exact rfl
  · have hch : here.ch = '"' := by simpa using h5
    exact ⟨by rw [hch]; rfl, fun close h => by cases h; exact Or.inl rfl⟩
  · have hch : here.ch = '<' := by simp_all
    exact ⟨by rw [hch]; rfl, fun close h => by cases h; exact Or.inr rfl⟩
  · have hch : here.ch = '\'' := by simpa using h7
    exact ⟨by rw [hch]; rfl, fun close h => nomatch h⟩
  · exact fun _ _ => rfl

/-- **Every answer fits the style and the place.** -/
theorem leave_fits (hm : memory.Sane) : (leave style here memory settings).Fits style here := by
  cases style with
  | plain => exact fun _ _ => rfl
  | operator | keyword | keyword2 | globalClass | docKeywordError => exact rfl
  | number =>
    simp only [leave]
    split_ifs with h
    · intro _ hb
      rcases isLineBreak_iff.1 hb with hc | hc <;> simp [hc] at h <;> exact absurd h (by decide)
    · exact rfl
  | identifier =>
    simp only [leave]
    split_ifs with h
    · intro _ hb
      rcases isLineBreak_iff.1 hb with hc | hc <;>
        · simp [isIdentifierChar, hc] at h
          exact absurd h (by decide)
    · exact rfl
  | directive => exact leaveDirective_fits
  | blockComment =>
    simp only [leave]
    split_ifs with h
    · obtain ⟨h1, h2⟩ := closesComment_iff.1 h
      exact ⟨rfl, by rw [h1]; rfl, by rw [h2]; rfl⟩
    · exact fun _ _ => rfl
  | docComment =>
    simp only [leave]
    split_ifs with h h'
    · obtain ⟨h1, h2⟩ := closesComment_iff.1 h
      exact ⟨rfl, by rw [h1]; rfl, by rw [h2]; rfl⟩
    · exact ⟨Or.inl rfl, not_isLineBreak_of_beginsDocKeyword h'⟩
    · exact fun _ _ => rfl
  | lineComment | unclosed =>
    simp only [leave]
    split_ifs
    · exact rfl
    · exact fun _ _ => rfl
  | docLineComment =>
    simp only [leave]
    split_ifs with h h'
    · exact rfl
    · exact ⟨Or.inr rfl, not_isLineBreak_of_beginsDocKeyword h'⟩
    · exact fun _ _ => rfl
  | docKeyword =>
    simp only [leave]
    split_ifs with h h'
    · obtain ⟨h1, h2⟩ := closesComment_iff.1 h.2
      exact ⟨rfl, by rw [h1]; rfl, by rw [h2]; rfl⟩
    · intro _ hb
      rcases isLineBreak_iff.1 hb with hc | hc <;> rw [hc] at h' <;> exact absurd h' (by decide)
    · exact rfl
  | string =>
    refine leaveLiteral_fits (Or.inl rfl) ?_
    rcases hm.stringClose with hc | hc <;> rw [hc] <;> rfl
  | character => exact leaveLiteral_fits (Or.inr rfl) rfl
  | verbatim =>
    simp only [leave]
    split_ifs with h h'
    · have hch : here.ch = '"' := by simpa using h
      have hnext : here.next = '"' := by simpa using h'
      exact ⟨by rw [hch]; rfl, Or.inr (by rw [hnext]; rfl)⟩
    · have hch : here.ch = '"' := by simpa using h
      exact ⟨rfl, by rw [hch]; rfl⟩
    · exact fun _ _ => rfl
  | regex =>
    simp only [leave]
    split_ifs with h1 h2 h3
    · exact rfl
    · have hch : here.ch = '/' := by simpa using h2
      exact (by rw [hch]; rfl : isLineBreak here.ch = false)
    · have hch : here.ch = '\\' := by simp_all
      exact ⟨by rw [hch]; rfl, Or.inl hch⟩
    · exact fun _ _ => rfl
  | uuid =>
    simp only [leave]
    split_ifs with h
    · exact rfl
    · intro _ hb
      rcases isLineBreak_iff.1 hb with hc | hc <;> simp [hc] at h

/-- **At which characters, and knowing what, an answer is given** to what begins. -/
def Enter.Meets (here : Surroundings) (memory : Memory) : Enter → Prop
  | .verbatim => here.ch = '@' ∧ here.next = '"'
  | .number | .identifier => True
  | .uuid => memory.afterUuid = true
  | .blockComment _ => here.ch = '/' ∧ here.next = '*'
  | .lineComment _ => here.ch = '/' ∧ here.next = '/'
  | .regex => here.ch = '/' ∧ permitsRegex memory.lastVisible = true
  | .literal (.string close) =>
    here.ch = '"' ∧ close = '"' ∨ (here.ch = '<' ∧ close = '>') ∧ memory.inInclude = true
  | .literal .character => here.ch = '\''
  | .directive => here.ch = '#' ∧ memory.visible = 0
  | .operator => isOperator here.ch = true

theorem enter?_meets {what : Enter} (h : enter? here memory settings = some what) :
    what.Meets here memory := by
  unfold enter? at h
  dsimp only at h
  rcases ite_eq_iff.1 h with ⟨hmark, h⟩ | ⟨-, h⟩
  · cases h
    simpa [Enter.Meets] using hmark
  -- A number and a word may both be an identifier after `uuid`.
  iterate 2
    rcases ite_eq_iff.1 h with ⟨-, h⟩ | ⟨-, h⟩
    · rcases ite_eq_iff.1 (Option.some.inj h) with ⟨huuid, h⟩ | ⟨-, h⟩
      · cases h
        exact huuid
      · cases h
        trivial
  iterate 4
    rcases ite_eq_iff.1 h with ⟨hmark, h⟩ | ⟨-, h⟩
    · cases h
      simpa [Enter.Meets] using hmark
  rcases ite_eq_iff.1 h with ⟨hmark, h⟩ | ⟨-, h⟩
  · cases h
    simp only [Bool.and_eq_true, beq_iff_eq] at hmark
    exact .inr ⟨⟨hmark.1, rfl⟩, hmark.2⟩
  iterate 3
    rcases ite_eq_iff.1 h with ⟨hmark, h⟩ | ⟨-, h⟩
    · cases h
      simpa [Enter.Meets] using hmark
  cases h

/-- A string that begins in plain text is closed by `"` or `>`. -/
theorem close_of_enter? {close : Char}
    (h : enter? here memory settings = some (.literal (.string close))) :
    close = '"' ∨ close = '>' := by
  rcases enter?_meets h with ⟨-, hquote⟩ | ⟨⟨-, hangle⟩, -⟩
  · exact .inl hquote
  · exact .inr hangle

end CFamily

end StyledText
