/-
  Moves of two scans on texts with different line ends.

  The scan of a text and that of the same text with other line ends make the same moves,
  as long as they do not come to the end of a line: they see the same there, and so the
  same styles end and begin.

  * `Scan.Tandem`: two scans on texts with different line ends; each move keeps them so;
  * `Tandem.applyLeave` and `Tandem.applyEnter`: so does what ends and begins.
-/
import StyledText.Proofs.Tandem

namespace StyledText

namespace CFamily

namespace Scan

variable {d : Dialect} {e : LineEnd} {s t : Scan} {next : Style} {how : Leave} {what : Enter}

/-! ## Moves -/

/-- **Two scans in tandem**: their cursors are, and they remember the same. -/
structure Tandem (e : LineEnd) (s t : Scan) : Prop where
  cursor : s.cursor.Tandem e t.cursor
  memory_eq : t.memory = s.memory
  literal_eq : t.literalStart.isSome = s.literalStart.isSome
  continued : s.memory.continued = false

namespace Tandem

theorem style_eq (h : Tandem e s t) : t.style = s.style := congrArg Style.ofCode h.cursor.state_eq

theorem advance (h : Tandem e s t) (hb : isLineBreak s.cursor.ch = false) :
    Tandem e s.advance t.advance :=
  { h with cursor := h.cursor.advance hb }

theorem switchTo (h : Tandem e s t) (next : Style) : Tandem e (s.switchTo next) (t.switchTo next) :=
  { h with cursor := h.cursor.switchTo next.code }

theorem recolour (h : Tandem e s t) (hl : next.isLookedUp = false) :
    Tandem e (s.recolour next) (t.recolour next) :=
  { h with cursor := h.cursor.recolour (by rwa [Style.ofCode_code]) }

theorem skipWhile {p : Char → Bool} (hp : ∀ ch, p ch = true → isLineBreak ch = false)
    (hcr : p '\r' = p '\n') (h : Tandem e s t) : Tandem e (s.skipWhile p) (t.skipWhile p) :=
  { h with cursor := h.cursor.skipWhile hp hcr }

theorem remember (h : Tandem e s t) (f : Memory → Memory) (hf : (f s.memory).continued = false) :
    Tandem e (s.remember f) (t.remember f) :=
  { h with
    memory_eq := congrArg f h.memory_eq
    continued := hf }

theorem beginLine (h : Tandem e s t) : Tandem e s.beginLine t.beginLine := by
  unfold Scan.beginLine
  rw [h.cursor.atLineStart_eq, h.style_eq]
  split
  · dsimp only
    split
    · exact (h.switchTo s.style).remember _ h.continued
    · exact h.remember _ h.continued
  · exact h

theorem passChar (h : Tandem e s t) (hb : isLineBreak s.cursor.ch = false) :
    Tandem e s.passChar t.passChar := by
  rw [passChar_eq, passChar_eq, h.cursor.ch.eq_of_not_isLineBreak hb, h.style_eq]
  split
  · exact (h.remember _ rfl).advance hb
  · exact (h.remember _ rfl).advance hb

/-! ## How styles end -/

theorem openRun_eq (h : Tandem e s t) (hl : s.style.isLookedUp = true) :
    t.cursor.openRun = s.cursor.openRun := h.cursor.run_eq hl

/-- A run that is given another style and closed. -/
theorem close (h : Tandem e s t) (found next : Style) :
    Tandem e ((s.recolour found).switchTo next) ((t.recolour found).switchTo next) :=
  { h with cursor := h.cursor.close found.code next.code }

theorem endWord (h : Tandem e s t) (hs : s.style = .identifier) :
    Tandem e (s.endWord d) (t.endWord d) := by
  unfold Scan.endWord
  rw [h.openRun_eq (by rw [hs]; rfl)]
  generalize s.cursor.openRun = word
  dsimp only
  have hnoted (noted uuid : Bool) : Tandem e
      (if noted then s.remember fun m => { m with afterUuid := uuid } else s)
      (if noted then t.remember fun m => { m with afterUuid := uuid } else t) := by
    split
    · exact h.remember _ h.continued
    · exact h
  cases d.vocabulary.classify? word with
  | some found => exact (hnoted _ _).close found .plain
  | none => exact (hnoted _ _).switchTo .plain

theorem closeDocKeyword (h : Tandem e s t) (hs : s.style = .docKeyword) :
    Tandem e (s.closeDocKeyword d) (t.closeDocKeyword d) := by
  unfold Scan.closeDocKeyword
  rw [h.openRun_eq (by rw [hs]; rfl), h.cursor.ch.isSpace_eq, h.memory_eq]
  dsimp only
  split
  · exact h.switchTo _
  · exact h.close .docKeywordError _

theorem openLiteral (h : Tandem e s t) (literal : Literal) (inDirective keepPlace : Bool) :
    Tandem e (s.openLiteral literal inDirective keepPlace)
      (t.openLiteral literal inDirective keepPlace) where
  cursor := h.cursor.switchTo literal.style.code
  memory_eq := by
    cases literal with
    | string close | character => simp only [Scan.openLiteral, h.memory_eq]
  literal_eq := by
    simp only [Scan.openLiteral, h.memory_eq]
    split <;> rfl
  continued := h.continued

theorem closeLiteral (h : Tandem e s t) (hb : isLineBreak s.cursor.ch = false) :
    Tandem e (s.closeLiteral d) (t.closeLiteral d) := by
  have hclosed : Tandem e
      (s.advance.switchTo (if s.memory.inDirective then .directive else .plain))
      (t.advance.switchTo (if t.memory.inDirective then .directive else .plain)) := by
    rw [h.memory_eq]
    exact (h.advance hb).switchTo _
  unfold Scan.closeLiteral
  dsimp only
  cases hs : s.literalStart with
  | none =>
    have ht : t.literalStart = none := by
      rw [← Option.isNone_iff_eq_none, ← Option.not_isSome, h.literal_eq, hs]
      rfl
    rw [ht]
    exact hclosed
  | some start =>
    obtain ⟨start', ht⟩ := Option.isSome_iff_exists.1 (h.literal_eq.trans (by rw [hs]; rfl))
    rw [ht]
    exact
      { cursor := hclosed.cursor
        memory_eq := congrArg (fun m : Memory => { m with inInclude := false }) hclosed.memory_eq
        literal_eq := rfl
        continued := hclosed.continued }

/-- **Scans that act alike on the end of a style stay in tandem.** -/
theorem applyLeave (h : Tandem e s t) (hf : how.Fits s.style s.cursor.surroundings) :
    Tandem e (s.applyLeave d s.style how) (t.applyLeave d s.style how) := by
  cases how with
  | stay => exact h
  | switch next => exact h.switchTo next
  | switchAfter next => exact (h.advance hf.2).switchTo next
  | switchAfterPair next =>
    exact ((h.advance hf.2.1).advance (not_isLineBreak_advance hf.2.2)).switchTo next
  | recolour next =>
    rw [hf.1]
    exact h.recolour rfl
  | skipNext => exact h.advance hf.1
  | endWord => exact h.endWord hf
  | openDocKeyword => exact (h.remember _ h.continued).switchTo .docKeyword
  | closeDocKeyword => exact h.closeDocKeyword hf
  | breakDocKeyword =>
    have hfirst : isLineBreak (s.recolour .docKeywordError).cursor.ch = false := hf.2.1
    have hsecond : isLineBreak (s.recolour .docKeywordError).cursor.next = false := hf.2.2
    exact (((h.recolour rfl).advance hfirst).advance
      (not_isLineBreak_advance hsecond)).switchTo .plain
  | openLiteral literal => exact h.openLiteral literal true true
  | closeLiteral => exact h.closeLiteral hf.2
  | closeRegex =>
    have hletter := not_isLineBreak_of (p := isSmallLetter) rfl rfl
    exact ((h.advance hf).skipWhile hletter rfl).switchTo .plain

/-! ## What begins -/

theorem entering?_eq (h : Tandem e s t) : t.entering? d = s.entering? d := by
  have hmore : t.cursor.more = s.cursor.more := by
    rw [Cursor.more, Cursor.more, decide_eq_decide]
    exact h.cursor.inside_iff
  unfold entering?
  rw [hmore, h.style_eq, h.memory_eq, enter?_upToBreak h.cursor.surroundings]

theorem applyEnter (h : Tandem e s t) (hb : isLineBreak s.cursor.ch = false)
    (hw : what ≠ .directive) : Tandem e (s.applyEnter what) (t.applyEnter what) := by
  cases what with
  | verbatim => exact (h.switchTo .verbatim).advance hb
  | blockComment doc => exact (h.switchTo _).advance hb
  | uuid => exact (h.remember _ h.continued).switchTo .uuid
  | literal literal =>
    cases literal with
    | string close => exact h.openLiteral (.string close) false true
    | character => exact h.openLiteral .character false false
  | directive => exact absurd rfl hw
  | _ => exact h.switchTo _

end Tandem

end Scan

end CFamily

end StyledText
