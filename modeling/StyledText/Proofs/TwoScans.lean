/-
  Two scans side by side.

  Two scans that are in the same style, and remember the same of what the rest of
  a line hangs on, stay so step by step, and style what they pass alike.  Before
  a limit they may be in windows that differ behind it.  Then they come to the
  start of the line there together, and what lies behind has no part in it.

  * `Alike`: the two scans, with everything that they have to agree on;
  * one lemma for each move and for each answer of `leave` and `enter?`;
  * `Alike.step`: after a step they are alike again, or on the start of the line
    at the limit;
  * `Alike.runTo` and `Alike.run`: so they are after any number of steps.
-/
import StyledText.Proofs.Landing

namespace StyledText.CFamily.Scan

variable {d : Dialect} {limit : Option Nat} {start : Nat} {s t : Scan} {next : Style}
  {how : Leave} {what : Enter}

/-! ## What two scans agree on -/

/-- The style may end in a way that hangs on what is remembered of its beginning. -/
def remembersBeginning : Style → Bool
  | .string | .character | .docKeyword => true
  | _ => false

theorem not_remembersBeginning {style : Style} (h : style.isSettled = true) :
    remembersBeginning style = false := by
  cases style <;> first | rfl | exact absurd h Bool.false_ne_true

/-- **The scans remember the same of the beginning of a run in `style`.** -/
structure Recalls (style : Style) (s t : Scan) : Prop where
  stringClose_eq : style = .string → t.memory.stringClose = s.memory.stringClose
  docStyle_eq : style = .docKeyword → t.memory.docStyle = s.memory.docStyle
  inDirective_eq : style = .string ∨ style = .character →
    t.memory.inDirective = s.memory.inDirective
  literalStart_eq : style = .string ∨ style = .character → t.literalStart = s.literalStart

theorem Recalls.of_not (h : remembersBeginning next = false) : Recalls next s t := by
  constructor
  case stringClose_eq => rintro rfl; exact nomatch h
  case docStyle_eq => rintro rfl; exact nomatch h
  all_goals rintro (rfl | rfl) <;> exact nomatch h

theorem Recalls.docKeyword (h : t.memory.docStyle = s.memory.docStyle) :
    Recalls .docKeyword s t := by
  constructor
  case stringClose_eq => intro hs; exact nomatch hs
  case docStyle_eq => exact fun _ => h
  all_goals rintro (hs | hs) <;> exact nomatch hs

theorem Recalls.literal {literal : Literal}
    (hclose : ∀ close, literal = .string close → t.memory.stringClose = s.memory.stringClose)
    (hdir : t.memory.inDirective = s.memory.inDirective)
    (hplace : t.literalStart = s.literalStart) : Recalls literal.style s t := by
  constructor
  case stringClose_eq =>
    intro hs
    cases literal with
    | string close => exact hclose close rfl
    | character => exact nomatch hs
  case docStyle_eq =>
    intro hs
    cases literal with
    | string close => exact nomatch hs
    | character => exact nomatch hs
  case inDirective_eq => exact fun _ => hdir
  case literalStart_eq => exact fun _ => hplace

/-- **Two scans are alike.**  They are at the same place, have styled the same
    from `start` on, are in the same style, and remember the same of the line and
    of the beginning of the open run. -/
structure Alike (limit : Option Nat) (start : Nat) (s t : Scan) : Prop where
  abreast : s.cursor.Abreast limit t.cursor
  painted : Painted start s.cursor t.cursor
  continued_eq : t.memory.continued = s.memory.continued
  visible_eq : t.memory.visible = s.memory.visible
  afterUuid_eq : t.memory.afterUuid = s.memory.afterUuid
  inInclude_eq : t.memory.inInclude = s.memory.inInclude
  permits_eq : permitsRegex t.memory.lastVisible = permitsRegex s.memory.lastVisible
  recalls : Recalls s.style s t
  includes_eq : t.includes.filter (start ≤ ·.start) = s.includes.filter (start ≤ ·.start)

/-- The two scans have come to the start of a line together. -/
structure Arrived (b start : Nat) (s t : Scan) : Prop where
  landed : Landed b s
  landed' : Landed b t
  state_eq : t.cursor.state = s.cursor.state
  painted : Painted start s.cursor t.cursor

namespace Alike

theorem style_eq (h : Alike limit start s t) : t.style = s.style :=
  congrArg Style.ofCode h.abreast.state_eq

/-! ## Moves -/

theorem advance (h : Alike limit start s t) (hb : Before limit (s.cursor.pos + 1)) :
    Alike limit start s.advance t.advance :=
  { h with
    abreast := h.abreast.advance hb
    painted := h.painted.advance h.abreast
    recalls := by
      rw [style_advance]
      exact { h.recalls with } }

theorem advance_of_not_isLineBreak (h : Alike limit start s t)
    (hc : isLineBreak s.cursor.ch = false) : Alike limit start s.advance t.advance :=
  h.advance (h.abreast.before_succ hc)

theorem switchTo (h : Alike limit start s t) (hn : remembersBeginning next = false) :
    Alike limit start (s.switchTo next) (t.switchTo next) :=
  { h with
    abreast := h.abreast.switchTo _
    painted := h.painted.switchTo h.abreast next
    recalls := by
      rw [style_switchTo]
      exact .of_not hn }

theorem recolour (h : Alike limit start s t) (hs : s.style.isTentative = true)
    (hn : remembersBeginning next = false) :
    Alike limit start (s.recolour next) (t.recolour next) :=
  { h with
    abreast := h.abreast.recolour _
    painted := h.painted.recolour hs next
    recalls := by
      rw [style_recolour]
      exact .of_not hn }

theorem skipWhile {p : Char → Bool} (hp : ∀ ch, p ch = true → isLineBreak ch = false)
    (h : Alike limit start s t) : Alike limit start (s.skipWhile p) (t.skipWhile p) :=
  { h with
    abreast := h.abreast.skipWhile hp
    painted := h.painted.skipWhile hp h.abreast
    recalls := by
      rw [style_skipWhile]
      exact { h.recalls with } }

theorem beginLine (h : Alike limit start s t) : Alike limit start s.beginLine t.beginLine := by
  unfold Scan.beginLine
  rw [h.abreast.atLineStart_eq, h.style_eq]
  split
  · dsimp only
    split
    · -- The part of the literal on the line before is closed, but the literal goes on.
      have hsame : Alike limit start (s.switchTo s.style) (t.switchTo s.style) :=
        { h with
          abreast := h.abreast.switchTo _
          painted := h.painted.switchTo h.abreast _
          recalls := by
            rw [style_switchTo]
            exact { h.recalls with } }
      exact { hsame with
        visible_eq := rfl
        afterUuid_eq := rfl
        inInclude_eq := rfl
        recalls := { hsame.recalls with } }
    · exact { h with
        visible_eq := rfl
        afterUuid_eq := rfl
        inInclude_eq := rfl
        recalls := { h.recalls with } }
  · exact h

theorem passChar (h : Alike limit start s t) (hb : Before limit (s.cursor.pos + 1)) :
    Alike limit start s.passChar t.passChar := by
  unfold Scan.passChar
  dsimp only
  rw [h.abreast.ch_eq, h.style_eq]
  split
  · have hcount : Alike limit start (s.remember fun m => { m with continued := false })
        (t.remember fun m => { m with continued := false }) :=
      { h with continued_eq := rfl, recalls := { h.recalls with } }
    exact hcount.advance hb
  · have hcount : Alike limit start
        (s.remember fun m =>
          { m with visible := m.visible + 1, lastVisible := s.cursor.ch, continued := false })
        (t.remember fun m =>
          { m with visible := m.visible + 1, lastVisible := s.cursor.ch, continued := false }) :=
      { h with
        continued_eq := rfl
        visible_eq := congrArg (· + 1) h.visible_eq
        permits_eq := rfl
        recalls := { h.recalls with } }
    exact hcount.advance hb

/-! ## How a style ends -/

theorem leaving_eq (h : Alike limit start s t) : t.leaving d = s.leaving d := by
  unfold leaving
  rw [h.style_eq]
  exact leave_congr h.abreast.surroundings h.continued_eq h.inInclude_eq h.recalls.stringClose_eq
    h.recalls.docStyle_eq

/-- A word has the same text in both scans. -/
theorem openRun_eq (h : Alike limit start s t) (hs : s.style.isTentative = true) :
    t.cursor.openRun = s.cursor.openRun :=
  h.abreast.openRun_eq (h.painted.run_eq hs) h.painted.covers.pos_le h.painted.covers'.pos_le

theorem remembersBeginning_of_classify? {v : Vocabulary} {word : List Char}
    (h : v.classify? word = some next) : remembersBeginning next = false := by
  unfold Vocabulary.classify? at h
  split at h
  · cases h
    rfl
  · split at h
    · cases h
      rfl
    · split at h
      · cases h
        rfl
      · exact nomatch h

theorem endWord (h : Alike limit start s t) (hs : s.style = .identifier) :
    Alike limit start (s.endWord d) (t.endWord d) := by
  have htent : s.style.isTentative = true := by
    rw [hs]
    rfl
  unfold Scan.endWord
  dsimp only
  rw [h.openRun_eq htent]
  generalize s.cursor.openRun = word
  -- First the scans take note of `uuid`, then they colour the word.
  have hnoted : Alike limit start
      (if d.vocabulary.primary.contains word then
        s.remember fun m => { m with afterUuid := word == ['u', 'u', 'i', 'd'] } else s)
      (if d.vocabulary.primary.contains word then
        t.remember fun m => { m with afterUuid := word == ['u', 'u', 'i', 'd'] } else t) := by
    split
    · exact { h with afterUuid_eq := rfl, recalls := { h.recalls with } }
    · exact h
  cases hclass : d.vocabulary.classify? word with
  | none => exact hnoted.switchTo rfl
  | some found =>
    refine (hnoted.recolour ?_ (remembersBeginning_of_classify? hclass)).switchTo rfl
    split
    · exact htent
    · exact htent

theorem closeDocKeyword (h : Alike limit start s t) (hm : s.Tidy) (hs : s.style = .docKeyword) :
    Alike limit start (s.closeDocKeyword d) (t.closeDocKeyword d) := by
  have htent : s.style.isTentative = true := by
    rw [hs]
    rfl
  have hdoc : remembersBeginning s.memory.docStyle = false := by
    rcases hm.sane.docStyle with hd | hd <;> rw [hd] <;> rfl
  unfold Scan.closeDocKeyword
  dsimp only
  rw [h.abreast.ch_eq, h.openRun_eq htent, h.recalls.docStyle_eq hs]
  split
  · exact h.switchTo hdoc
  · exact (h.recolour htent rfl).switchTo hdoc

theorem openLiteral (h : Alike limit start s t) (literal : Literal) (inDirective keepPlace : Bool) :
    Alike limit start (s.openLiteral literal inDirective keepPlace)
      (t.openLiteral literal inDirective keepPlace) :=
  { h with
    abreast := h.abreast.switchTo _
    painted := h.painted.switchTo h.abreast _
    recalls := by
      rw [show (s.openLiteral literal inDirective keepPlace).style = literal.style
        from style_switchTo]
      refine .literal ?_ rfl ?_
      · rintro close rfl
        rfl
      · simp only [Scan.openLiteral, h.inInclude_eq, h.abreast.pos_eq] }

theorem closeLiteral (h : Alike limit start s t) (hs : s.style = .string ∨ s.style = .character)
    (hc : isLineBreak s.cursor.ch = false) :
    Alike limit start (s.closeLiteral d) (t.closeLiteral d) := by
  have hnext :
      remembersBeginning (if s.memory.inDirective then .directive else .plain) = false := by
    split <;> rfl
  have hclosed : Alike limit start
      (s.advance.switchTo (if s.memory.inDirective then .directive else .plain))
      (t.advance.switchTo (if s.memory.inDirective then .directive else .plain)) :=
    (h.advance_of_not_isLineBreak hc).switchTo hnext
  unfold Scan.closeLiteral
  dsimp only
  rw [h.recalls.inDirective_eq hs, h.recalls.literalStart_eq hs]
  cases s.literalStart with
  | none => exact hclosed
  | some l =>
    refine { hclosed with inInclude_eq := rfl, recalls := ?_, includes_eq := ?_ }
    · exact .of_not ((congrArg remembersBeginning (style_switchTo (s := s.advance))).trans hnext)
    · dsimp only
      split
      · rw [List.filter_append, List.filter_append, hclosed.includes_eq, hclosed.abreast.pos_eq]
      · exact hclosed.includes_eq

theorem applyLeave (h : Alike limit start s t) (hm : s.Tidy)
    (hf : how.Fits s.style s.cursor.surroundings) :
    Alike limit start (s.applyLeave d s.style how) (t.applyLeave d s.style how) := by
  cases how with
  | stay => exact h
  | switch next =>
    rw [show next = .plain from hf]
    exact h.switchTo rfl
  | switchAfter next =>
    rw [show next = .plain from hf.1]
    exact (h.advance_of_not_isLineBreak hf.2).switchTo rfl
  | switchAfterPair next =>
    rw [show next = .plain from hf.1]
    have hnext := not_isLineBreak_advance hf.2.2
    exact ((h.advance_of_not_isLineBreak hf.2.1).advance_of_not_isLineBreak hnext).switchTo rfl
  | recolour next =>
    rw [show next = .unclosed from hf.1]
    exact h.recolour hf.2 rfl
  | skipNext => exact h.advance_of_not_isLineBreak hf.1
  | endWord => exact h.endWord hf
  | openDocKeyword =>
    exact { h with
      abreast := h.abreast.switchTo _
      painted := h.painted.switchTo h.abreast _
      recalls := by
        rw [show (s.applyLeave d s.style .openDocKeyword).style = .docKeyword from style_switchTo]
        exact .docKeyword rfl }
  | closeDocKeyword => exact h.closeDocKeyword hm hf
  | breakDocKeyword =>
    have htent : s.style.isTentative = true := by
      rw [hf.1]
      rfl
    have hnext := not_isLineBreak_advance (s := s.recolour .docKeywordError) hf.2.2
    exact (((h.recolour htent rfl).advance_of_not_isLineBreak hf.2.1).advance_of_not_isLineBreak
      hnext).switchTo rfl
  | openLiteral literal => exact h.openLiteral literal true true
  | closeLiteral => exact h.closeLiteral hf.1 hf.2
  | closeRegex =>
    have hletters := not_isLineBreak_of (p := isSmallLetter) rfl rfl
    exact ((h.advance_of_not_isLineBreak hf).skipWhile hletters).switchTo rfl

/-! ## What begins -/

theorem entering?_eq (h : Alike limit start s t) : t.entering? d = s.entering? d := by
  have hmore : t.cursor.more = s.cursor.more := by
    simp only [Cursor.more, h.abreast.inside_iff]
  unfold entering?
  rw [hmore, h.style_eq, enter?_congr h.abreast.surroundings h.visible_eq h.afterUuid_eq
    h.inInclude_eq h.permits_eq]

theorem openDirective (h : Alike limit start s t) (hc : isLineBreak s.cursor.ch = false) :
    Alike limit start s.openDirective t.openDirective := by
  have hpassed : Alike limit start ((s.switchTo .directive).advance.skipWhile isBlank)
      ((t.switchTo .directive).advance.skipWhile isBlank) :=
    ((h.switchTo rfl).advance_of_not_isLineBreak hc).skipWhile
      (not_isLineBreak_of (p := isBlank) rfl rfl)
  unfold Scan.openDirective
  dsimp only
  rw [hpassed.abreast.atLineEnd_eq, hpassed.abreast.lookingAt_eq (by simp [isLineBreak])]
  split
  · exact hpassed.switchTo rfl
  · split
    · exact { hpassed with inInclude_eq := rfl, recalls := { hpassed.recalls with } }
    · exact hpassed

theorem applyEnter (h : Alike limit start s t) (hc : isLineBreak s.cursor.ch = false) :
    Alike limit start (s.applyEnter what) (t.applyEnter what) := by
  cases what with
  | verbatim => exact (h.switchTo rfl).advance_of_not_isLineBreak hc
  | number => exact h.switchTo rfl
  | identifier => exact h.switchTo rfl
  | uuid =>
    have hnoted : Alike limit start (s.remember fun m => { m with afterUuid := false })
        (t.remember fun m => { m with afterUuid := false }) :=
      { h with afterUuid_eq := rfl, recalls := { h.recalls with } }
    exact hnoted.switchTo rfl
  | blockComment doc =>
    have hdoc : remembersBeginning (if doc then .docComment else .blockComment) = false := by
      split <;> rfl
    exact (h.switchTo hdoc).advance_of_not_isLineBreak hc
  | lineComment doc =>
    have hdoc : remembersBeginning (if doc then .docLineComment else .lineComment) = false := by
      split <;> rfl
    exact h.switchTo hdoc
  | regex => exact h.switchTo rfl
  | literal literal =>
    cases literal with
    | string close => exact h.openLiteral _ _ _
    | character => exact h.openLiteral _ _ _
  | directive => exact h.openDirective hc
  | operator => exact h.switchTo rfl

/-! ## Steps -/

/-- **Scans that pass a character go on alike, or have passed the last character
    before the limit.** -/
theorem pass (h : Alike limit start s t) (hp : s.MayPass) :
    Alike limit start s.passChar t.passChar ∨
      ∃ b ∈ limit, Arrived b start s.passChar t.passChar := by
  by_cases hb : Before limit (s.cursor.pos + 1)
  · exact Or.inl (h.passChar hb)
  · right
    -- The limit is right behind the cursor, where a line ends in both windows.
    simp only [Before, not_forall] at hb
    obtain ⟨b, hlimit, hb⟩ := hb
    obtain ⟨q, rfl, hq, hq'⟩ := h.abreast.windows.ends b hlimit
    have hbefore := h.abreast.before _ hlimit
    obtain rfl : q = s.cursor.pos := by omega
    have hset : s.style.isSettled = true := by
      have inside := hq.1
      refine hp ?_ ?_
      · rw [h.abreast.sees.atLineEnd_eq inside]
        exact hq.2.1
      · rw [h.abreast.sees.ch_eq inside]
        exact hq.2.2
    have hpos := h.abreast.pos_eq
    refine ⟨_, hlimit, landed_passChar h.abreast.sees h.painted.covers hq hset, ?_, ?_, ?_⟩
    · rw [← hpos] at hq' ⊢
      exact landed_passChar h.abreast.sees' h.painted.covers' hq' (h.style_eq ▸ hset)
    · rw [cursor_passChar, cursor_passChar, Cursor.state_advance, Cursor.state_advance,
        h.abreast.state_eq]
    · rw [cursor_passChar, cursor_passChar]
      exact h.painted.advance h.abreast

/-- A line ends in a backslash in both scans or in none. -/
theorem atContinuation_eq (h : Alike limit start s t) :
    t.atContinuation = s.atContinuation := by
  unfold atContinuation
  rw [h.abreast.ch_eq]
  by_cases hc : s.cursor.ch = '\\'
  · rw [h.abreast.next_eq (h.abreast.before_succ (by rw [hc]; rfl))]
  · rw [beq_false_of_ne hc, Bool.false_and, Bool.false_and]

theorem mark_of_atContinuation (hover : s.atContinuation = true) :
    s.cursor.ch = '\\' ∧ isLineBreak s.cursor.next = true := by
  simpa [atContinuation] using hover

/-- **The limit lies behind a joined line end**, be it one character or two: the next line
    does not start at the limit. -/
theorem before_joined (h : Alike limit start s t)
    (inside : s.cursor.pos < s.cursor.window.stop) (hover : s.atContinuation = true) :
    Before limit (s.advance.cursor.pos + 1) ∧
      (s.advance.cursor.ch = '\r' → s.advance.cursor.next = '\n' →
        Before limit (s.advance.advance.cursor.pos + 1)) := by
  obtain ⟨hmark, hbreak⟩ := mark_of_atContinuation hover
  have hadvanced := Cursor.advance_of_lt inside
  have hpos : s.advance.cursor.pos = s.cursor.pos + 1 := congrArg Cursor.pos hadvanced
  have hch : s.advance.cursor.ch = s.cursor.window.charOrSpace (s.cursor.pos + 1) :=
    (congrArg Cursor.ch hadvanced).trans (h.abreast.sees.next_eq inside)
  have hnext : s.advance.cursor.next = s.cursor.window.charOrSpace (s.cursor.pos + 2) :=
    congrArg Cursor.next hadvanced
  have hunjoined (b : Nat) (hb : b ∈ limit) := h.abreast.windows.unjoined b hb s.cursor.pos
    (h.abreast.sees.ch_eq inside ▸ hmark) (h.abreast.sees.next_eq inside ▸ hbreak)
  have hbehind : Before limit (s.advance.cursor.pos + 1) := by
    intro b hb
    have hlt : s.cursor.pos + 1 < b := h.abreast.before_succ (by rw [hmark]; rfl) b hb
    have hne := (hunjoined b hb).1
    omega
  refine ⟨hbehind, fun hcr hlf b hb => ?_⟩
  by_cases hmore : s.advance.cursor.pos < s.advance.cursor.window.stop
  · have hlt := hbehind b hb
    have hne := (hunjoined b hb).2 (hch ▸ hcr) (hnext ▸ hlf)
    have hlast : s.advance.advance.cursor.pos = s.advance.cursor.pos + 1 :=
      (Cursor.pos_advance _).trans (if_pos hmore)
    omega
  · exact (h.advance (h.abreast.before_succ (by rw [hmark]; rfl))).abreast.before_of_outside
      hmore _ b hb

/-- Scans that note that the line goes on pass its last character alike. -/
theorem advance_continued (h : Alike limit start s t) (hb : Before limit (s.cursor.pos + 1)) :
    Alike limit start (s.remember fun m => { m with continued := true }).advance
      (t.remember fun m => { m with continued := true }).advance := by
  have hnoted : Alike limit start (s.remember fun m => { m with continued := true })
      (t.remember fun m => { m with continued := true }) :=
    { h with continued_eq := rfl, recalls := { h.recalls with } }
  exact hnoted.advance hb

/-- **Scans pass a joined line end alike.** -/
theorem passContinuation (h : Alike limit start s t)
    (inside : s.cursor.pos < s.cursor.window.stop) (hover : s.atContinuation = true) :
    Alike limit start s.passContinuation t.passContinuation := by
  have hpassed : Alike limit start s.advance t.advance :=
    h.advance (h.abreast.before_succ (by rw [(mark_of_atContinuation hover).1]; rfl))
  obtain ⟨hone, htwo⟩ := h.before_joined inside hover
  unfold Scan.passContinuation
  dsimp only
  rw [hpassed.abreast.ch_eq, hpassed.abreast.next_eq hone]
  split
  · rename_i hpair
    simp only [Bool.and_eq_true, beq_iff_eq] at hpair
    exact (hpassed.advance hone).advance_continued (htwo hpair.1 hpair.2)
  · exact hpassed.advance_continued hone

theorem enterAndPass (h : Alike limit start s t) (hp : s.MayPass) :
    Alike limit start (s.enterAndPass d) (t.enterAndPass d) ∨
      ∃ b ∈ limit, Arrived b start (s.enterAndPass d) (t.enterAndPass d) := by
  unfold Scan.enterAndPass
  rw [h.entering?_eq]
  split
  · rename_i hw
    exact Or.inl (h.applyEnter (not_isLineBreak_of_entering? hw))
  · rename_i what hne hw
    have hc := not_isLineBreak_of_entering? hw
    exact (h.applyEnter hc).pass (mayPass_applyEnter hc hne)
  · exact h.pass hp

/-- **Scans that are alike on a line take a step alike**, or have come to the
    start of the line at the limit. -/
theorem step (h : Alike limit start s.beginLine t.beginLine) (hm : s.Tidy)
    (inside : s.cursor.pos < s.cursor.window.stop) :
    Alike limit start (s.step d) (t.step d) ∨
      ∃ b ∈ limit, Arrived b start (s.step d) (t.step d) := by
  have inside' := inside_beginLine inside
  have hfits : (s.beginLine.leaving d).Fits s.beginLine.style s.beginLine.cursor.surroundings :=
    leave_fits hm.beginLine.sane
  have hleft : Alike limit start (s.beginLine.leaveStyle d) (t.beginLine.leaveStyle d) := by
    unfold leaveStyle
    rw [h.leaving_eq, h.style_eq]
    exact h.applyLeave hm.beginLine hfits
  unfold Scan.step
  dsimp only
  rw [h.atContinuation_eq]
  cases hover : s.beginLine.atContinuation with
  | true => exact Or.inl (h.passContinuation inside' hover)
  | false => exact hleft.enterAndPass (mayPass_applyLeave hm.beginLine hfits hover)

/-! ## Runs -/

theorem pos_eq_of_beginLine (h : Alike limit start s.beginLine t.beginLine) :
    t.cursor.pos = s.cursor.pos := by
  rw [← pos_beginLine (s := t), h.abreast.pos_eq, pos_beginLine]

theorem inside_iff_of_beginLine (h : Alike limit start s.beginLine t.beginLine) :
    t.cursor.pos < t.cursor.window.stop ↔ s.cursor.pos < s.cursor.window.stop := by
  have hi := h.abreast.inside_iff
  rwa [pos_beginLine, pos_beginLine, (reaches_beginLine t).stop_eq,
    (reaches_beginLine s).stop_eq] at hi

/-- **Scans that are alike come to the start of the line at the limit together.** -/
theorem runTo {b : Nat} (h : Alike (some b) start s.beginLine t.beginLine) (hm : s.Tidy) :
    Arrived b start (s.runTo d b) (t.runTo d b) := by
  fun_induction Scan.runTo d b s generalizing t with
  | case1 s inside ih =>
    have hpos := h.pos_eq_of_beginLine
    rw [Scan.runTo.eq_def d b t, dif_pos ⟨hpos ▸ inside.1, h.inside_iff_of_beginLine.2 inside.2⟩]
    rcases h.step (d := d) hm inside.2 with halike | ⟨b', hb, harrived⟩
    · exact ih halike.beginLine (hm.step inside.2)
    · cases Option.mem_some.1 hb
      rw [runTo_of_le (Nat.le_of_eq harrived.landed.pos_eq.symm),
        runTo_of_le (Nat.le_of_eq harrived.landed'.pos_eq.symm)]
      exact harrived
  | case2 s outside =>
    -- The limit is ahead, and in the window.
    have hbefore := h.abreast.before b rfl
    obtain ⟨q, rfl, hq, -⟩ := h.abreast.windows.ends b rfl
    have := hq.1
    rw [pos_beginLine] at hbefore
    rw [(reaches_beginLine s).stop_eq] at this
    exact absurd ⟨hbefore, by omega⟩ outside

/-- **Without a limit scans that are alike stay so to the end of the window.** -/
theorem run (h : Alike none start s.beginLine t.beginLine) (hm : s.Tidy)
    (inside : s.cursor.pos < s.cursor.window.stop) : Alike none start (s.run d) (t.run d) := by
  fun_induction Scan.run d s generalizing t with
  | case1 s _ ih =>
    rw [run_of_inside (h.inside_iff_of_beginLine.2 inside)]
    rcases h.step (d := d) hm inside with halike | ⟨_, hb, -⟩
    · by_cases hmore : (s.step d).cursor.pos < (s.step d).cursor.window.stop
      · exact ih halike.beginLine (hm.step inside) hmore
      · rw [run_of_outside hmore, run_of_outside (mt halike.abreast.inside_iff.1 hmore)]
        exact halike
    · exact absurd hb (Option.not_mem_none _)
  | case2 s outside => exact absurd inside outside

theorem closeWord (h : Alike limit start s t) (hm : s.Tidy) :
    Alike limit start (s.closeWord d) (t.closeWord d) := by
  have hf : (s.leaving d).Fits s.style s.cursor.surroundings := leave_fits hm.sane
  unfold Scan.closeWord
  rw [h.leaving_eq, h.style_eq]
  split
  · rename_i hl
    exact h.applyLeave hm (hl ▸ hf)
  · rename_i hl
    exact h.applyLeave hm (hl ▸ hf)
  · exact h

end Alike

/-- **Two scans have the same outcome from `start` on.** -/
structure SameOutcome (start : Nat) (s t : Scan) : Prop where
  state_eq : t.cursor.state = s.cursor.state
  committed?_eq : ∀ q, start ≤ q → q < s.cursor.window.stop →
    t.cursor.window.committed? q = s.cursor.window.committed? q
  includes_eq : t.includes.filter (start ≤ ·.start) = s.includes.filter (start ≤ ·.start)

theorem SameOutcome.finish (hp : Painted start s.cursor t.cursor)
    (hpos : t.cursor.pos = s.cursor.pos) (hstate : t.cursor.state = s.cursor.state)
    (hincludes : t.includes.filter (start ≤ ·.start) = s.includes.filter (start ≤ ·.start))
    (hend : s.cursor.window.stop ≤ s.cursor.pos) : SameOutcome start s.finish t.finish where
  state_eq := hstate
  committed?_eq := by
    intro q hq hlt
    have hlt : q < s.cursor.window.stop := hlt
    rw [committed?_finish hp.covers' (Nat.le_trans hp.start_le' hq) (by omega),
      committed?_finish hp.covers (Nat.le_trans hp.start_le hq) (by omega),
      hp.shown_eq q hq (by omega)]
  includes_eq := hincludes

/-- **Scans that are alike at the start of a line have the same outcome.** -/
theorem Alike.complete (h : Alike none start s.beginLine t.beginLine) (hm : s.Tidy)
    (inside : s.cursor.pos < s.cursor.window.stop) :
    SameOutcome start (s.complete d) (t.complete d) := by
  have hrun : Alike none start (s.run d) (t.run d) := h.run hm inside
  have hclosed := hrun.closeWord (d := d) hm.run
  refine .finish hclosed.painted hclosed.abreast.pos_eq hclosed.abreast.state_eq
    hclosed.includes_eq ?_
  rw [((reaches_run d s).trans (reaches_closeWord d _)).stop_eq]
  exact Nat.le_trans (stop_le_pos_run d s) (reaches_closeWord d _).pos_le

end StyledText.CFamily.Scan
