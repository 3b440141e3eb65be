/-
  Two scans of texts that differ in letter case.

  A text and the same text with letters in the other case can be scanned side by side.  The
  two scans are at the same place, have committed the same styles and remember the same, but
  for the case of the last visible character, as long as each word and each keyword is looked
  up with the same result, and as long as the letters behind a regular expression and the word
  of a directive are told alike.

  * `Cursor.UpToCase`: two cursors on such texts; their moves keep them so;
  * `Scan.UpToCase`: two scans of such texts;
  * `Scan.Agrees`: what they have to tell alike when a style ends;
  * `UpToCase.applyLeave` and `UpToCase.applyEnter`: what ends and begins keeps them so.
-/
import StyledText.Proofs.LetterCase
import StyledText.Proofs.Words

namespace StyledText

/-! ## Cursors -/

namespace Cursor

variable {c c' : Cursor}

/-- **Two cursors at the same place, with the same styles behind them**, on texts that are the
    same but for letter case. -/
structure UpToCase (c c' : Cursor) : Prop where
  char : ∀ q, StyledText.UpToCase (c.window.charOrSpace q) (c'.window.charOrSpace q)
  start_eq : c'.window.start = c.window.start
  stop_eq : c'.window.stop = c.window.stop
  pending_eq : c'.window.pending = c.window.pending
  pos_eq : c'.pos = c.pos
  state_eq : c'.state = c.state
  prev : StyledText.UpToCase c.prev c'.prev
  ch : StyledText.UpToCase c.ch c'.ch
  next : StyledText.UpToCase c.next c'.next
  atLineStart_eq : c'.atLineStart = c.atLineStart
  atLineEnd_eq : c'.atLineEnd = c.atLineEnd

/-- A line ends before and behind letters of either case alike. -/
theorem endsLine_upToCase {ch ch' next next' : Char} (h : StyledText.UpToCase ch ch')
    (hnext : StyledText.UpToCase next next') (pos stop : Nat) :
    endsLine ch' next' pos stop = endsLine ch next pos stop := by
  rw [endsLine, endsLine, h.beq_eq (by decide), h.beq_eq (by decide), bne, bne,
    hnext.beq_eq (by decide)]

namespace UpToCase

theorem inside_iff (h : c.UpToCase c') : c'.pos < c'.window.stop ↔ c.pos < c.window.stop := by
  rw [h.pos_eq, h.stop_eq]

theorem boundary_eq (h : c.UpToCase c') : c'.window.boundary = c.window.boundary := by
  rw [Window.boundary, Window.boundary, h.start_eq, h.pending_eq]

theorem surroundings (h : c.UpToCase c') : c.surroundings.UpToCase c'.surroundings where
  prev := h.prev
  ch := h.ch
  next := h.next
  next2 := by
    show StyledText.UpToCase (c.peek 2) (c'.peek 2)
    rw [peek, peek, h.pos_eq]
    exact h.char _
  next3 := by
    show StyledText.UpToCase (c.peek 3) (c'.peek 3)
    rw [peek, peek, h.pos_eq]
    exact h.char _
  atLineStart_eq := h.atLineStart_eq
  atLineEnd_eq := h.atLineEnd_eq

theorem advance (h : c.UpToCase c') : c.advance.UpToCase c'.advance := by
  by_cases inside : c.pos < c.window.stop
  · rw [advance_of_lt inside, advance_of_lt (h.inside_iff.2 inside)]
    have hnext2 : StyledText.UpToCase (c.window.charOrSpace (c.pos + 2))
        (c'.window.charOrSpace (c'.pos + 2)) := by
      rw [h.pos_eq]
      exact h.char _
    exact
      { h with
        pos_eq := congrArg (· + 1) h.pos_eq
        prev := h.ch
        ch := h.next
        next := hnext2
        atLineStart_eq := h.atLineEnd_eq
        atLineEnd_eq := by
          rw [endsLine_upToCase h.next hnext2, h.pos_eq, h.stop_eq] }
  · rw [advance_of_not_lt inside, advance_of_not_lt (mt h.inside_iff.1 inside)]
    exact
      { h with
        prev := .refl _
        ch := .refl _
        next := .refl _
        atLineStart_eq := rfl
        atLineEnd_eq := rfl }

theorem recolour (h : c.UpToCase c') (state : UInt8) :
    (c.recolour state).UpToCase (c'.recolour state) :=
  { h with state_eq := rfl }

theorem switchTo (h : c.UpToCase c') (state : UInt8) :
    (c.switchTo state).UpToCase (c'.switchTo state) :=
  { h with
    pending_eq := by
      simp only [Cursor.switchTo, Window.commitBefore, h.pending_eq, h.pos_eq, h.stop_eq,
        h.boundary_eq, h.state_eq]
    state_eq := rfl }

/-- Cursors that skip the same characters stay at the same place. -/
theorem skipWhile {p : Char → Bool} (h : c.UpToCase c') (hs : c.Sees) (hs' : c'.Sees)
    (hp : ∀ q, c.pos ≤ q → q ≤ (c.skipWhile p).pos →
      p (c'.window.charOrSpace q) = p (c.window.charOrSpace q)) :
    (c.skipWhile p).UpToCase (c'.skipWhile p) := by
  fun_induction Cursor.skipWhile p c generalizing c' with
  | case1 c inside hch ih =>
    have inside' := h.inside_iff.2 inside
    have hle : c.pos ≤ (c.advance.skipWhile p).pos :=
      Nat.le_trans (pos_le_advance c) (CFamily.Scan.Reaches.refl.skipWhile p).pos_le
    have hch' : p c'.ch = true := by
      rw [hs'.ch_eq inside', h.pos_eq, hp c.pos (Nat.le_refl _) hle, ← hs.ch_eq inside, hch]
    rw [Cursor.skipWhile.eq_def p c', dif_pos inside', if_pos hch']
    refine ih h.advance hs.advance hs'.advance fun q hq => ?_
    rw [window_advance, window_advance]
    exact hp q (Nat.le_trans (pos_le_advance c) hq)
  | case2 c inside hch =>
    have inside' := h.inside_iff.2 inside
    have hch' : ¬ p c'.ch = true := by
      rw [hs'.ch_eq inside', h.pos_eq, hp c.pos (Nat.le_refl _) (Nat.le_refl _),
        ← hs.ch_eq inside]
      exact hch
    rw [Cursor.skipWhile.eq_def p c', dif_pos inside', if_neg hch']
    exact h
  | case3 c outside =>
    rw [Cursor.skipWhile.eq_def p c', dif_neg (mt h.inside_iff.1 outside)]
    exact h

end UpToCase

end Cursor

namespace CFamily

namespace Scan

variable {d : Dialect} {s t : Scan} {next : Style} {how : Leave} {what : Enter}

/-! ## Scans -/

/-- **Two scans at the same place of texts that are the same but for letter case.**  They have
    done the same up to there. -/
structure UpToCase (s t : Scan) : Prop where
  cursor : s.cursor.UpToCase t.cursor
  memory : ∃ c, StyledText.UpToCase s.memory.lastVisible c ∧
    t.memory = { s.memory with lastVisible := c }
  literalStart_eq : t.literalStart = s.literalStart
  includes_eq : t.includes = s.includes

namespace UpToCase

theorem style_eq (h : s.UpToCase t) : t.style = s.style := congrArg Style.ofCode h.cursor.state_eq

theorem inInclude_eq (h : s.UpToCase t) : t.memory.inInclude = s.memory.inInclude := by
  obtain ⟨c, -, hm⟩ := h.memory
  rw [hm]

theorem inDirective_eq (h : s.UpToCase t) : t.memory.inDirective = s.memory.inDirective := by
  obtain ⟨c, -, hm⟩ := h.memory
  rw [hm]

theorem docStyle_eq (h : s.UpToCase t) : t.memory.docStyle = s.memory.docStyle := by
  obtain ⟨c, -, hm⟩ := h.memory
  rw [hm]

/-! ### Moves -/

theorem advance (h : s.UpToCase t) : s.advance.UpToCase t.advance :=
  { h with cursor := h.cursor.advance }

theorem switchTo (h : s.UpToCase t) (next : Style) :
    (s.switchTo next).UpToCase (t.switchTo next) :=
  { h with cursor := h.cursor.switchTo next.code }

theorem recolour (h : s.UpToCase t) (next : Style) :
    (s.recolour next).UpToCase (t.recolour next) :=
  { h with cursor := h.cursor.recolour next.code }

/-- What is remembered can be changed, if the last visible character has no part in it. -/
theorem remember (h : s.UpToCase t) (f : Memory → Memory)
    (hf : ∀ m c, f { m with lastVisible := c } = { f m with lastVisible := c } := by intros; rfl)
    (hlast : ∀ m, (f m).lastVisible = m.lastVisible := by intros; rfl) :
    (s.remember f).UpToCase (t.remember f) :=
  { h with
    memory := by
      obtain ⟨c, hc, hm⟩ := h.memory
      refine ⟨c, ?_, ?_⟩
      · show StyledText.UpToCase (f s.memory).lastVisible c
        rwa [hlast]
      · show f t.memory = _
        rw [hm, hf]
        rfl }

theorem beginLine (h : s.UpToCase t) : s.beginLine.UpToCase t.beginLine := by
  unfold Scan.beginLine
  rw [h.cursor.atLineStart_eq, h.style_eq]
  split
  · dsimp only
    split
    · exact (h.switchTo s.style).remember _
    · exact h.remember _
  · exact h

theorem passContinuation (h : s.UpToCase t) :
    s.passContinuation.UpToCase t.passContinuation := by
  have hfirst := h.advance
  unfold Scan.passContinuation
  dsimp only
  rw [hfirst.cursor.ch.beq_eq (by decide), hfirst.cursor.next.beq_eq (by decide)]
  split
  · exact (hfirst.advance.remember _).advance
  · exact (hfirst.remember _).advance

theorem passChar (h : s.UpToCase t) : s.passChar.UpToCase t.passChar := by
  rw [passChar_eq, passChar_eq, h.cursor.ch.isSpace_eq, h.style_eq]
  split
  · exact (h.remember _).advance
  · refine advance { h with memory := ⟨t.cursor.ch, h.cursor.ch, ?_⟩ }
    obtain ⟨c, -, hm⟩ := h.memory
    simp only [Scan.remember, hm]

theorem atContinuation_eq (h : s.UpToCase t) : t.atContinuation = s.atContinuation := by
  rw [atContinuation, atContinuation, h.cursor.ch.beq_eq (by decide), h.cursor.next.isLineBreak_eq]

/-! ### How styles end -/

/-- The style ends alike, if a keyword in a comment goes on alike. -/
theorem leaving_eq (h : s.UpToCase t) (hm : s.memory.Sane)
    (hdoc : s.style = .docKeyword → t.cursor.ch = s.cursor.ch) : t.leaving d = s.leaving d := by
  have hmemory : leave s.style t.cursor.surroundings t.memory d.settings =
      leave s.style t.cursor.surroundings s.memory d.settings := by
    obtain ⟨c, -, hm⟩ := h.memory
    rw [hm]
    cases s.style <;> rfl
  rw [leaving, leaving, h.style_eq, hmemory, leave_upToCase h.cursor.surroundings hm hdoc]

theorem openLiteral (h : s.UpToCase t) (literal : Literal) (inDirective keepPlace : Bool) :
    (s.openLiteral literal inDirective keepPlace).UpToCase
      (t.openLiteral literal inDirective keepPlace) where
  cursor := h.cursor.switchTo literal.style.code
  memory := by
    obtain ⟨c, hc, hm⟩ := h.memory
    refine ⟨c, hc, ?_⟩
    cases literal <;> simp only [Scan.openLiteral, hm]
  literalStart_eq := by
    simp only [Scan.openLiteral, h.inInclude_eq, h.cursor.pos_eq]
  includes_eq := h.includes_eq

theorem closeLiteral (h : s.UpToCase t) : (s.closeLiteral d).UpToCase (t.closeLiteral d) := by
  have hclosed : (s.advance.switchTo (if s.memory.inDirective then .directive else .plain)).UpToCase
      (t.advance.switchTo (if t.memory.inDirective then .directive else .plain)) := by
    rw [h.inDirective_eq]
    exact h.advance.switchTo _
  unfold Scan.closeLiteral
  dsimp only
  rw [h.literalStart_eq]
  split
  · exact hclosed
  · have hcleared := hclosed.remember fun m => { m with inInclude := false }
    exact
      { hcleared with
        literalStart_eq := rfl
        includes_eq := by rw [hclosed.includes_eq, hclosed.cursor.pos_eq] }

end UpToCase

/-- **What two scans have to tell alike when a style ends**: which list a word is of, whether it
    is `uuid`, what a keyword of a comment is, and which letters belong to a regular
    expression. -/
def Agrees (d : Dialect) (s t : Scan) : Leave → Prop
  | .endWord => d.vocabulary.classify? t.cursor.openRun = d.vocabulary.classify? s.cursor.openRun ∧
    d.vocabulary.primary.contains t.cursor.openRun =
      d.vocabulary.primary.contains s.cursor.openRun ∧
    (d.vocabulary.primary.contains s.cursor.openRun = true →
      (t.cursor.openRun = ['u', 'u', 'i', 'd'] ↔ s.cursor.openRun = ['u', 'u', 'i', 'd']))
  | .closeDocKeyword => t.cursor.openRun = s.cursor.openRun
  | .closeRegex => ∀ q, s.cursor.advance.pos ≤ q →
    q ≤ (s.cursor.advance.skipWhile isSmallLetter).pos →
    isSmallLetter (t.cursor.window.charOrSpace q) = isSmallLetter (s.cursor.window.charOrSpace q)
  | _ => True

namespace UpToCase

theorem endWord (h : s.UpToCase t) (ha : Agrees d s t .endWord) :
    (s.endWord d).UpToCase (t.endWord d) := by
  obtain ⟨hclass, hprimary, huuid⟩ := ha
  unfold Scan.endWord
  dsimp only
  rw [hclass, hprimary]
  -- First the scans take note of `uuid`, then they colour the word.
  have hnoted : UpToCase
      (if d.vocabulary.primary.contains s.cursor.openRun then
        s.remember fun m => { m with afterUuid := s.cursor.openRun == ['u', 'u', 'i', 'd'] } else s)
      (if d.vocabulary.primary.contains s.cursor.openRun then
        t.remember fun m =>
          { m with afterUuid := t.cursor.openRun == ['u', 'u', 'i', 'd'] } else t) := by
    split
    · rename_i hword
      have hsame : (t.cursor.openRun == ['u', 'u', 'i', 'd']) =
          (s.cursor.openRun == ['u', 'u', 'i', 'd']) := by
        rw [Bool.eq_iff_iff, beq_iff_eq, beq_iff_eq]
        exact huuid hword
      rw [hsame]
      exact h.remember _
    · exact h
  cases d.vocabulary.classify? s.cursor.openRun with
  | none => exact hnoted.switchTo .plain
  | some found => exact (hnoted.recolour found).switchTo .plain

theorem closeDocKeyword (h : s.UpToCase t) (ha : Agrees d s t .closeDocKeyword) :
    (s.closeDocKeyword d).UpToCase (t.closeDocKeyword d) := by
  have hrun : t.cursor.openRun = s.cursor.openRun := ha
  unfold Scan.closeDocKeyword
  dsimp only
  rw [hrun, h.cursor.ch.isSpace_eq, h.docStyle_eq]
  split
  · exact h.switchTo _
  · exact (h.recolour _).switchTo _

/-- **Scans that tell alike what ends stay alike.** -/
theorem applyLeave (h : s.UpToCase t) (hs : s.cursor.Sees) (ht : t.cursor.Sees) (style : Style)
    (ha : Agrees d s t how) : (s.applyLeave d style how).UpToCase (t.applyLeave d style how) := by
  cases how with
  | stay => exact h
  | switch next => exact h.switchTo next
  | switchAfter next => exact h.advance.switchTo next
  | switchAfterPair next => exact h.advance.advance.switchTo next
  | recolour next => exact h.recolour next
  | skipNext => exact h.advance
  | endWord => exact h.endWord ha
  | openDocKeyword => exact (h.remember _).switchTo .docKeyword
  | closeDocKeyword => exact h.closeDocKeyword ha
  | breakDocKeyword => exact (h.recolour .docKeywordError).advance.advance.switchTo .plain
  | openLiteral literal => exact h.openLiteral literal true true
  | closeLiteral => exact h.closeLiteral
  | closeRegex =>
    have hafter := h.advance
    have hskipped :
        (s.advance.skipWhile isSmallLetter).UpToCase (t.advance.skipWhile isSmallLetter) :=
      { hafter with
        cursor := hafter.cursor.skipWhile hs.advance ht.advance fun q hq hq' => by
          show isSmallLetter (t.cursor.advance.window.charOrSpace q) =
            isSmallLetter (s.cursor.advance.window.charOrSpace q)
          rw [Cursor.window_advance, Cursor.window_advance]
          exact ha q hq hq' }
    exact hskipped.switchTo .plain

/-! ### What begins -/

theorem entering?_eq (h : s.UpToCase t) : t.entering? d = s.entering? d := by
  have hmore : t.cursor.more = s.cursor.more := by
    rw [Cursor.more, Cursor.more, decide_eq_decide]
    exact h.cursor.inside_iff
  obtain ⟨c, hc, hm⟩ := h.memory
  unfold entering?
  rw [hmore, h.style_eq, hm, enter?_upToCase h.cursor.surroundings hc]

theorem directiveWord (h : s.UpToCase t) (hs : s.cursor.Sees) (ht : t.cursor.Sees) :
    s.directiveWord.UpToCase t.directiveWord := by
  have hmark := (h.switchTo .directive).advance
  have hsees {u : Scan} (hu : u.cursor.Sees) : (u.switchTo .directive).advance.cursor.Sees :=
    (Reaches.refl.switchTo .directive).advance.sees hu
  exact
    { hmark with
      cursor := hmark.cursor.skipWhile (hsees hs) (hsees ht) fun q _ _ =>
        (hmark.cursor.char q).apply isBlank (by decide) }

/-- Directives are opened alike, if both or neither include a file. -/
theorem openDirective (h : s.UpToCase t) (hs : s.cursor.Sees) (ht : t.cursor.Sees)
    (hword : s.directiveWord.cursor.atLineEnd = false →
      t.directiveWord.cursor.lookingAt ['i', 'n', 'c', 'l', 'u', 'd', 'e'] =
        s.directiveWord.cursor.lookingAt ['i', 'n', 'c', 'l', 'u', 'd', 'e']) :
    s.openDirective.UpToCase t.openDirective := by
  have hpassed := h.directiveWord hs ht
  rw [openDirective_eq, openDirective_eq, hpassed.cursor.atLineEnd_eq]
  split
  · exact hpassed.switchTo .plain
  · rename_i hopen
    rw [hword (Bool.not_eq_true _ ▸ hopen)]
    split
    · exact hpassed.remember fun m => { m with inInclude := true }
    · exact hpassed

theorem applyEnter (h : s.UpToCase t) (hw : what ≠ .directive) :
    (s.applyEnter what).UpToCase (t.applyEnter what) := by
  cases what with
  | verbatim => exact (h.switchTo .verbatim).advance
  | blockComment doc => exact (h.switchTo _).advance
  | uuid => exact (h.remember _).switchTo .uuid
  | literal literal =>
    cases literal with
    | string close => exact h.openLiteral (.string close) false true
    | character => exact h.openLiteral .character false false
  | directive => exact absurd rfl hw
  | _ => exact h.switchTo _

end UpToCase

end Scan

end CFamily

end StyledText
