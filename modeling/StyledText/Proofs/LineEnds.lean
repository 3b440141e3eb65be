/-
  Line ends of other kinds.

  A line can end with a line feed, with a carriage return, or with both.  A transition
  does not tell these from one another, except where it asks whether a character is the
  last of its line, which it does in an open literal only.

  * `LineEnd` and `Text.withLineEnds`: a text with other line ends;
  * `UpToBreak`: two characters are the same, or both end a line;
  * `Surroundings.UpToBreak`: two places look alike to the end of their line, whatever
    ends it;
  * `leave_upToBreak` and `enter?_upToBreak`: the transitions are the same there.
-/
import StyledText.Proofs.LineSight

namespace StyledText

/-! ## Texts with other line ends -/

/-- What can stand at the end of a line in place of a line feed. -/
inductive LineEnd where
  /-- A carriage return. -/
  | cr
  /-- A carriage return and a line feed. -/
  | crlf
deriving DecidableEq

namespace LineEnd

variable {e : LineEnd} {c : Char} {cs : List Char}

/-- The characters of a line end. -/
def chars : LineEnd → List Char
  | cr => ['\r']
  | crlf => ['\r', '\n']

/-- The characters `cs`, with `e` in place of each line feed. -/
def spread (e : LineEnd) (cs : List Char) : List Char :=
  cs.flatMap fun c => if c = '\n' then e.chars else [c]

@[simp] theorem spread_nil : e.spread [] = [] := rfl

theorem spread_append (cs cs' : List Char) :
    e.spread (cs ++ cs') = e.spread cs ++ e.spread cs' := List.flatMap_append

@[simp] theorem spread_lf : e.spread ('\n' :: cs) = e.chars ++ e.spread cs := rfl

theorem spread_cons (h : c ≠ '\n') : e.spread (c :: cs) = c :: e.spread cs := by
  rw [spread, List.flatMap_cons, if_neg h]
  rfl

/-- A character that ends no line stays as it is. -/
theorem spread_cons_of_not_isLineBreak (h : isLineBreak c = false) :
    e.spread (c :: cs) = c :: e.spread cs := spread_cons (isLineBreak_eq_false.1 h).1

/-- **The characters that end no line are the same in both texts.** -/
theorem filter_spread (cs : List Char) :
    (e.spread cs).filter (!isLineBreak ·) = cs.filter (!isLineBreak ·) := by
  induction cs with
  | nil => rfl
  | cons c cs ih =>
    by_cases hc : c = '\n'
    · rw [hc, spread_lf, List.filter_append, ih]
      cases e <;> rfl
    · rw [spread_cons hc, List.filter_cons, List.filter_cons, ih]

/-- The place of the character at `p` in the text with other line ends. -/
def place (e : LineEnd) (text : Text) (p : Nat) : Nat := (e.spread (text.toList.take p)).length

end LineEnd

/-- The text with `e` in place of each line feed. -/
def Text.withLineEnds (text : Text) (e : LineEnd) : Text := .ofList (e.spread text.toList)

namespace LineEnd

variable {e : LineEnd} {text : Text} {p : Nat}

theorem toList_withLineEnds (p : Nat) : (text.withLineEnds e).toList =
    e.spread (text.toList.take p) ++ e.spread (text.toList.drop p) := by
  rw [Text.withLineEnds, Text.toList_ofList, ← spread_append, List.take_append_drop]

theorem take_place : (text.withLineEnds e).toList.take (e.place text p) =
    e.spread (text.toList.take p) := by
  rw [toList_withLineEnds p]
  exact List.take_left

/-- **A character that ends no line is at its place in the text with other line ends.** -/
theorem getElem?_place {c : Char} (hc : text.toList[p]? = some c) (hb : isLineBreak c = false) :
    (text.withLineEnds e).toList[e.place text p]? = some c := by
  obtain ⟨hp, hc⟩ := List.getElem?_eq_some_iff.1 hc
  rw [toList_withLineEnds p, place, List.getElem?_append_right (Nat.le_refl _), Nat.sub_self,
    List.drop_eq_getElem_cons hp, hc, spread_cons_of_not_isLineBreak hb]
  rfl

end LineEnd

/-! ## Characters that are the same but for the kind of a line end -/

/-- The characters are the same, or both end a line. -/
def UpToBreak (c c' : Char) : Prop := c' = c ∨ isLineBreak c = true ∧ isLineBreak c' = true

namespace UpToBreak

variable {c c' : Char}

theorem refl (c : Char) : UpToBreak c c := .inl rfl

theorem eq_of_not_isLineBreak (h : UpToBreak c c') (hc : isLineBreak c = false) : c' = c := by
  rcases h with h | h
  · exact h
  · rw [hc] at h
    exact nomatch h.1

/-- **What does not tell the line ends from one another takes both characters alike.** -/
theorem apply {α : Type} (h : UpToBreak c c') (p : Char → α) (hp : p '\r' = p '\n') :
    p c' = p c := by
  rcases h with rfl | ⟨hc, hc'⟩
  · rfl
  · rcases isLineBreak_iff.1 hc with rfl | rfl <;> rcases isLineBreak_iff.1 hc' with rfl | rfl
    · rfl
    · exact hp
    · exact hp.symm
    · rfl

theorem isLineBreak_eq (h : UpToBreak c c') : isLineBreak c' = isLineBreak c := h.apply _ rfl

theorem isSpace_eq (h : UpToBreak c c') : isSpace c' = isSpace c := h.apply _ rfl

/-- Both are the character `x`, which ends no line, or neither is. -/
theorem beq_eq (h : UpToBreak c c') {x : Char} (hx : isLineBreak x = false) :
    (c' == x) = (c == x) := by
  obtain ⟨hlf, hcr⟩ := isLineBreak_eq_false.1 hx
  refine h.apply (· == x) ?_
  rw [beq_false_of_ne hlf.symm, beq_false_of_ne hcr.symm]

end UpToBreak

/-- **Two places look alike to the end of their line, whatever ends it.** -/
structure Surroundings.UpToBreak (here there : Surroundings) : Prop where
  prev : StyledText.UpToBreak here.prev there.prev
  ch : StyledText.UpToBreak here.ch there.ch
  atLineStart_eq : there.atLineStart = here.atLineStart
  next : isLineBreak here.ch = false → StyledText.UpToBreak here.next there.next
  next2 : isLineBreak here.ch = false → isLineBreak here.next = false →
    StyledText.UpToBreak here.next2 there.next2
  next3 : isLineBreak here.ch = false → isLineBreak here.next = false →
    isLineBreak here.next2 = false → StyledText.UpToBreak here.next3 there.next3

namespace CFamily

variable {here there : Surroundings} {style : Style} {memory : Memory} {settings : Settings}

/-! ## The same transitions -/

theorem closesComment_upToBreak (h : here.UpToBreak there) :
    closesComment there = closesComment here := by
  unfold closesComment
  rw [h.ch.beq_eq rfl]
  by_cases hc : here.ch = '*'
  · rw [(h.next (by rw [hc]; rfl)).beq_eq rfl]
  · rw [beq_false_of_ne hc, Bool.false_and, Bool.false_and]

theorem beginsDocKeyword_upToBreak (h : here.UpToBreak there) {after : List Char}
    (hafter : after.contains '\r' = after.contains '\n') :
    beginsDocKeyword there after = beginsDocKeyword here after := by
  unfold beginsDocKeyword
  rw [h.ch.beq_eq rfl, h.ch.beq_eq rfl, h.prev.isSpace_eq, h.prev.apply after.contains hafter]
  by_cases hc : here.ch = '@' ∨ here.ch = '\\'
  · rw [(h.next (by rcases hc with hc | hc <;> rw [hc] <;> rfl)).isSpace_eq]
  · obtain ⟨h1, h2⟩ := not_or.1 hc
    simp only [beq_false_of_ne h1, beq_false_of_ne h2, Bool.or_self, Bool.false_and]

theorem leaveDirective_upToBreak (h : here.UpToBreak there) :
    leaveDirective there memory settings = leaveDirective here memory settings := by
  unfold leaveDirective
  have hmark : (there.ch == '/' && (there.next == '*' || there.next == '/')) =
      (here.ch == '/' && (here.next == '*' || here.next == '/')) := by
    rw [h.ch.beq_eq rfl]
    by_cases hc : here.ch = '/'
    · have hnext := h.next (by rw [hc]; rfl)
      rw [hnext.beq_eq rfl, hnext.beq_eq rfl]
    · rw [beq_false_of_ne hc, Bool.false_and, Bool.false_and]
  rw [h.atLineStart_eq, h.ch.isSpace_eq, hmark, h.ch.beq_eq rfl, h.ch.beq_eq rfl,
    h.ch.beq_eq rfl]

theorem leaveLiteral_upToBreak (h : here.UpToBreak there)
    (hend : there.atLineEnd = here.atLineEnd) {close : Char} (hclose : isLineBreak close = false) :
    leaveLiteral there close = leaveLiteral here close := by
  unfold leaveLiteral
  rw [hend, h.ch.beq_eq rfl, h.ch.beq_eq hclose]

/-- **A style ends alike whatever ends the line.**  Only an open literal is ended by the
    last character of its line. -/
theorem leave_upToBreak (h : here.UpToBreak there) (hm : memory.Sane)
    (hend : style = .string ∨ style = .character → there.atLineEnd = here.atLineEnd) :
    leave style there memory settings = leave style here memory settings := by
  cases style with
  | plain | operator | keyword | keyword2 | globalClass | docKeywordError => rfl
  | number =>
    rw [leave, leave, h.ch.apply isWordChar rfl, h.ch.beq_eq rfl, h.ch.beq_eq rfl,
      h.ch.beq_eq rfl, h.ch.beq_eq rfl, h.prev.beq_eq rfl, h.prev.beq_eq rfl]
  | identifier => rw [leave, leave, h.ch.apply (isIdentifierChar settings) rfl]
  | uuid =>
    have hbreak : (there.ch == '\r' || there.ch == '\n') = (here.ch == '\r' || here.ch == '\n') :=
      h.ch.apply (fun c => c == '\r' || c == '\n') rfl
    rw [leave, leave, hbreak, h.ch.beq_eq rfl]
  | lineComment | unclosed => rw [leave, leave, h.atLineStart_eq]
  | directive => exact leaveDirective_upToBreak h
  | blockComment => rw [leave, leave, closesComment_upToBreak h]
  | docComment =>
    rw [leave, leave, closesComment_upToBreak h, beginsDocKeyword_upToBreak h rfl]
  | docLineComment =>
    rw [leave, leave, h.atLineStart_eq, beginsDocKeyword_upToBreak h rfl]
  | docKeyword =>
    rw [leave, leave, closesComment_upToBreak h, h.ch.apply isSmallLetter rfl]
  | string =>
    refine leaveLiteral_upToBreak h (hend (.inl rfl)) ?_
    rcases hm.stringClose with hc | hc <;> rw [hc] <;> rfl
  | character => exact leaveLiteral_upToBreak h (hend (.inr rfl)) rfl
  | verbatim =>
    rw [leave, leave, h.ch.beq_eq rfl]
    by_cases hq : here.ch = '"'
    · rw [(h.next (by rw [hq]; rfl)).beq_eq rfl]
    · rw [beq_false_of_ne hq]
      rfl
  | regex =>
    have hskip : (there.ch == '\\' && (there.next == '\\' || there.next == '/')) =
        (here.ch == '\\' && (here.next == '\\' || here.next == '/')) := by
      rw [h.ch.beq_eq rfl]
      by_cases hq : here.ch = '\\'
      · have hnext := h.next (by rw [hq]; rfl)
        rw [hnext.beq_eq rfl, hnext.beq_eq rfl]
      · rw [beq_false_of_ne hq, Bool.false_and, Bool.false_and]
    rw [leave, leave, h.atLineStart_eq, h.ch.beq_eq rfl, hskip]

/-- **The same begins whatever ends the line.** -/
theorem enter?_upToBreak (h : here.UpToBreak there) :
    enter? there memory settings = enter? here memory settings := by
  by_cases hb : isLineBreak here.ch = true
  · rw [enter?_of_isLineBreak hb, enter?_of_isLineBreak (by rw [h.ch.isLineBreak_eq, hb])]
  rw [Bool.not_eq_true] at hb
  have hnext := h.next hb
  have hquote : (there.next == '"') = (here.next == '"') := hnext.beq_eq rfl
  have hstar : (there.next == '*') = (here.next == '*') := hnext.beq_eq rfl
  have hslash : (there.next == '/') = (here.next == '/') := hnext.beq_eq rfl
  unfold enter?
  simp only [h.ch.eq_of_not_isLineBreak hb, hquote, hstar, hslash, hnext.apply isDigit rfl]
  -- A slash is followed by up to two more characters of its mark.
  by_cases hn : isLineBreak here.next = true
  · rcases isLineBreak_iff.1 hn with hc | hc <;> simp [hc]
  rw [Bool.not_eq_true] at hn
  have hnext2 := h.next2 hb hn
  have hstar2 : (there.next2 == '*') = (here.next2 == '*') := hnext2.beq_eq rfl
  have hslash2 : (there.next2 == '/') = (here.next2 == '/') := hnext2.beq_eq rfl
  have hbang2 : (there.next2 == '!') = (here.next2 == '!') := hnext2.beq_eq rfl
  simp only [hstar2, hslash2, hbang2]
  by_cases hn2 : isLineBreak here.next2 = true
  · rcases isLineBreak_iff.1 hn2 with hc | hc <;> simp [hc]
  rw [Bool.not_eq_true] at hn2
  have hslash3 : (there.next3 == '/') = (here.next3 == '/') := (h.next3 hb hn hn2).beq_eq rfl
  simp only [bne, hslash3]

end CFamily

end StyledText
