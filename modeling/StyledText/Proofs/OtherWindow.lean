/-
  Scans in another window.

  A scan sees the text around its cursor and nothing else.  Put into another window
  that looks the same as far as it sees, it takes the same steps, whatever the two
  buffers hold elsewhere.  Only the word of a directive is read further ahead.  Where
  the windows differ within it, one scan may take the line for an including one and
  the other not; but then letters are all that is left of the window, and to them it
  makes no difference.

  * `Window.LooksLike`: two windows look the same up to a place;
  * `Scan.on`: the same scan in another window, and one lemma `_on` for each move and
    each answer of `leave` and `enter?`;
  * `step_on`: a step in the other window is the same step;
  * `run_on` and `complete_on`: so is a run to the end of the window, but for what is
    remembered of the directive.
-/
import StyledText.Proofs.Landing

namespace StyledText

namespace Window

variable {n p : Nat} {w v : Window}

/-- **Up to `n`, the window `v` looks like `w`**: both start at the same place, as much
    of them lies before `n`, and three more characters can be seen. -/
structure LooksLike (n : Nat) (w v : Window) : Prop where
  start_eq : v.start = w.start
  inside_iff : ∀ p ≤ n, p < v.stop ↔ p < w.stop
  char_eq : ∀ q < n + 3, v.charOrSpace q = w.charOrSpace q
  stop_le : w.stop ≤ w.length
  stop_le' : v.stop ≤ v.length

theorem LooksLike.min_stop_eq (h : w.LooksLike n v) (hp : p ≤ n) :
    min p v.stop = min p w.stop := by
  by_cases hv : v.stop < p
  · have := h.inside_iff v.stop (by omega)
    have := h.inside_iff w.stop
    omega
  · have := h.inside_iff w.stop
    omega

end Window

namespace Cursor

variable {n : Nat} {c : Cursor} {v : Window}

/-- The cursor in another window, with the same styles committed. -/
def on (c : Cursor) (v : Window) : Cursor :=
  { c with window := { v with pending := c.window.pending } }

theorem on_advance (h : c.window.LooksLike n v) (hn : c.advance.pos ≤ n) :
    (c.on v).advance = c.advance.on v := by
  by_cases inside : c.pos < c.window.stop
  · rw [pos_advance, if_pos inside] at hn
    have inside' : (c.on v).pos < (c.on v).window.stop :=
      (h.inside_iff c.pos (by omega)).2 inside
    have hchar : v.charOrSpace (c.pos + 2) = c.window.charOrSpace (c.pos + 2) :=
      h.char_eq _ (by omega)
    have hend (next : Char) : endsLine c.next next (c.pos + 1) v.stop =
        endsLine c.next next (c.pos + 1) c.window.stop := by
      simp only [endsLine, ← Nat.not_lt, h.inside_iff _ hn]
    rw [advance_of_lt inside, advance_of_lt inside', on, on]
    simp only [mk.injEq, true_and]
    exact ⟨hchar, (congrArg (endsLine c.next · (c.pos + 1) v.stop) hchar).trans (hend _)⟩
  · rw [pos_advance, if_neg inside] at hn
    have outside' : ¬ (c.on v).pos < (c.on v).window.stop :=
      mt (h.inside_iff c.pos hn).1 inside
    rw [advance_of_not_lt inside, advance_of_not_lt outside', on, on]

theorem on_switchTo (h : c.window.LooksLike n v) (hn : c.pos ≤ n) (state : UInt8) :
    (c.on v).switchTo state = (c.switchTo state).on v := by
  simp only [switchTo, on, Window.commitBefore, Window.boundary, h.start_eq, h.min_stop_eq hn]

/-- An open run is read off the characters before the cursor. -/
theorem openRun_congr {c' : Cursor} (hb : c'.window.boundary = c.window.boundary)
    (hpos : c'.pos = c.pos) (hlen : c.pos ≤ c.window.length) (hlen' : c'.pos ≤ c'.window.length)
    (hchar : ∀ q < c.pos, c'.window.charOrSpace q = c.window.charOrSpace q) :
    c'.openRun = c.openRun := by
  unfold openRun Window.textRange
  rw [hb, Nat.min_eq_left hlen, Nat.min_eq_left hlen', hpos]
  refine List.map_congr_left fun q hq => ?_
  rw [List.mem_range'_1] at hq
  have hchar := hchar q (by omega)
  rwa [Window.charOrSpace, Window.charOrSpace, Window.charOr_of_lt (by omega),
    Window.charOr_of_lt (by omega)] at hchar

/-- The open run has the same text in the other window. -/
theorem openRun_on (h : c.window.LooksLike n v) (hn : c.pos ≤ n) (hp : c.pos ≤ c.window.stop) :
    (c.on v).openRun = c.openRun := by
  have hmin := h.min_stop_eq hn
  have hstop : c.pos ≤ v.stop := by omega
  exact openRun_congr (congrArg (· + c.window.pending.size) h.start_eq) rfl
    (Nat.le_trans hp h.stop_le) (Nat.le_trans hstop h.stop_le') fun q hq => h.char_eq q (by omega)

end Cursor

namespace CFamily

/-- How a style ends does not hang on what is further ahead than the next
    character. -/
theorem leave_ahead {style : Style} {here : Surroundings} {memory : Memory} {settings : Settings}
    (next2 next3 : Char) :
    leave style { here with next2, next3 } memory settings = leave style here memory settings := by
  cases style <;> rfl

namespace Scan

variable {d : Dialect} {n : Nat} {c c' : Cursor} {v : Window} {s : Scan} {next : Style}
  {how : Leave} {what : Enter} {i : Bool}

theorem Reaches.looksLike (hr : Reaches c c') (h : c.window.LooksLike n v) :
    c'.window.LooksLike n v := by
  obtain ⟨pending, hc⟩ := hr.exists_pending
  rw [hc]
  exact { h with }

theorem Reaches.sees (hr : Reaches c c') (h : c.Sees) : c'.Sees := by
  induction hr with
  | refl => exact h
  | advance _ ih => exact ih.advance
  | switchTo _ _ ih => exact { ih with }
  | recolour _ _ ih => exact { ih with }

/-! ## Moves -/

/-- The scan in another window. -/
def on (s : Scan) (v : Window) : Scan := { s with cursor := s.cursor.on v }

theorem advance_on (h : s.cursor.window.LooksLike n v) (hn : s.advance.cursor.pos ≤ n) :
    (s.on v).advance = s.advance.on v :=
  congrArg (fun c => { s with cursor := c }) (Cursor.on_advance h hn)

theorem switchTo_on (h : s.cursor.window.LooksLike n v) (hn : s.cursor.pos ≤ n) (next : Style) :
    (s.on v).switchTo next = (s.switchTo next).on v :=
  congrArg (fun c => { s with cursor := c }) (Cursor.on_switchTo h hn next.code)

theorem switchAfter_on (h : s.cursor.window.LooksLike n v) (hn : s.advance.cursor.pos ≤ n)
    (next : Style) : (s.on v).advance.switchTo next = (s.advance.switchTo next).on v := by
  rw [advance_on h hn, switchTo_on (Reaches.refl.advance.looksLike h) hn]

theorem switchAfterPair_on (h : s.cursor.window.LooksLike n v)
    (hn : s.advance.advance.cursor.pos ≤ n) (next : Style) :
    (s.on v).advance.advance.switchTo next = (s.advance.advance.switchTo next).on v := by
  rw [advance_on h (Nat.le_trans (Cursor.pos_le_advance _) hn),
    switchAfter_on (Reaches.refl.advance.looksLike h) hn]

theorem skipWhile_on (h : s.cursor.window.LooksLike n v) (p : Char → Bool)
    (hn : (s.skipWhile p).cursor.pos ≤ n) : (s.on v).skipWhile p = (s.skipWhile p).on v := by
  suffices hskip : ∀ c : Cursor, c.window.LooksLike n v → (c.skipWhile p).pos ≤ n →
      (c.on v).skipWhile p = (c.skipWhile p).on v from
    congrArg (fun c => { s with cursor := c }) (hskip s.cursor h hn)
  intro c h hn
  fun_induction Cursor.skipWhile p c with
  | case1 c inside hch ih =>
    -- The cursor does not go back from here to where it stops.
    have hstop : c.advance.pos ≤ n := Nat.le_trans (Reaches.refl.skipWhile p).pos_le hn
    have inside' : (c.on v).pos < (c.on v).window.stop :=
      (h.inside_iff c.pos (Nat.le_trans (Cursor.pos_le_advance c) hstop)).2 inside
    rw [Cursor.skipWhile.eq_def p (c.on v), dif_pos inside',
      if_pos (show p (c.on v).ch = true from hch), Cursor.on_advance h hstop]
    exact ih (Reaches.refl.advance.looksLike h) hn
  | case2 c inside hch =>
    have inside' : (c.on v).pos < (c.on v).window.stop := (h.inside_iff _ hn).2 inside
    rw [Cursor.skipWhile.eq_def p (c.on v), dif_pos inside',
      if_neg (show ¬ p (c.on v).ch = true from hch)]
  | case3 c outside =>
    have outside' : ¬ (c.on v).pos < (c.on v).window.stop := mt (h.inside_iff _ hn).1 outside
    rw [Cursor.skipWhile.eq_def p (c.on v), dif_neg outside']

theorem beginLine_on (h : s.cursor.window.LooksLike n v) (hn : s.cursor.pos ≤ n) :
    (s.on v).beginLine = s.beginLine.on v := by
  have hstyle : (s.on v).style = s.style := rfl
  have hstart : (s.on v).cursor.atLineStart = s.cursor.atLineStart := rfl
  unfold beginLine
  rw [hstyle, hstart]
  split
  · dsimp only
    split
    · rw [switchTo_on h hn]
      rfl
    · rfl
  · rfl

theorem passChar_eq (s : Scan) : s.passChar =
    if isSpace s.cursor.ch || s.style.isComment then
      (s.remember fun m => { m with continued := false }).advance
    else
      (s.remember fun m =>
        { m with
          visible := m.visible + 1
          lastVisible := s.cursor.ch
          continued := false }).advance := by
  unfold passChar
  dsimp only
  split <;> rfl

theorem passChar_on (h : s.cursor.window.LooksLike n v) (hn : s.passChar.cursor.pos ≤ n) :
    (s.on v).passChar = s.passChar.on v := by
  have hn : s.cursor.advance.pos ≤ n := by rwa [cursor_passChar] at hn
  have hstyle : (s.on v).style = s.style := rfl
  have hch : (s.on v).cursor.ch = s.cursor.ch := rfl
  rw [passChar_eq, passChar_eq, hstyle, hch]
  split
  · exact advance_on (s := s.remember fun m => { m with continued := false }) h hn
  · exact advance_on (s := s.remember fun m =>
      { m with visible := m.visible + 1, lastVisible := s.cursor.ch, continued := false }) h hn

theorem passContinuation_on (h : s.cursor.window.LooksLike n v)
    (hn : s.passContinuation.cursor.pos ≤ n) :
    (s.on v).passContinuation = s.passContinuation.on v := by
  have hfirst : s.advance.cursor.pos ≤ n :=
    Nat.le_trans (reaches_passContinuation s).pos_le hn
  have hlook : s.advance.cursor.window.LooksLike n v := Reaches.refl.advance.looksLike h
  unfold passContinuation at hn ⊢
  rw [advance_on h hfirst]
  dsimp only at hn ⊢
  have hch : (s.advance.on v).cursor.ch = s.advance.cursor.ch := rfl
  have hnext : (s.advance.on v).cursor.next = s.advance.cursor.next := rfl
  rw [hch, hnext]
  split at hn
  · rename_i hcrlf
    have hsecond : s.advance.advance.cursor.pos ≤ n :=
      Nat.le_trans (Cursor.pos_le_advance _) hn
    rw [if_pos hcrlf, if_pos hcrlf, advance_on hlook hsecond]
    exact advance_on (s := s.advance.advance.remember fun m => { m with continued := true })
      (Reaches.refl.advance.advance.looksLike h) hn
  · rename_i hcrlf
    rw [if_neg hcrlf, if_neg hcrlf]
    exact advance_on (s := s.advance.remember fun m => { m with continued := true }) hlook hn

/-! ## How a style ends -/

theorem leaving_on (s : Scan) (v : Window) : (s.on v).leaving d = s.leaving d := by
  show leave s.style { s.cursor.surroundings with next2 := _, next3 := _ } s.memory d.settings = _
  exact leave_ahead _ _

theorem endWord_on (h : s.cursor.window.LooksLike n v) (hn : s.cursor.pos ≤ n)
    (hc : Covers s.cursor) : (s.on v).endWord d = (s.endWord d).on v := by
  have hword : (s.on v).cursor.openRun = s.cursor.openRun := Cursor.openRun_on h hn hc.pos_le
  unfold endWord
  rw [hword]
  generalize s.cursor.openRun = word
  dsimp only
  -- Taking note of `uuid` does not touch the cursor.
  obtain ⟨note, hnote⟩ : ∃ note : Memory → Memory,
      note = fun m => { m with afterUuid := word == ['u', 'u', 'i', 'd'] } := ⟨_, rfl⟩
  rw [← hnote]
  split
  · rename_i found _
    split
    · exact switchTo_on (s := (s.remember note).recolour found) h hn .plain
    · exact switchTo_on (s := s.recolour found) h hn .plain
  · split
    · exact switchTo_on (s := s.remember note) h hn .plain
    · exact switchTo_on h hn .plain

theorem closeDocKeyword_on (h : s.cursor.window.LooksLike n v) (hn : s.cursor.pos ≤ n)
    (hc : Covers s.cursor) : (s.on v).closeDocKeyword d = (s.closeDocKeyword d).on v := by
  have hword : (s.on v).cursor.openRun = s.cursor.openRun := Cursor.openRun_on h hn hc.pos_le
  have hch : (s.on v).cursor.ch = s.cursor.ch := rfl
  unfold closeDocKeyword
  rw [hword, hch]
  dsimp only
  split
  · exact switchTo_on h hn _
  · exact switchTo_on (s := s.recolour .docKeywordError) h hn _

theorem openLiteral_on (h : s.cursor.window.LooksLike n v) (hn : s.cursor.pos ≤ n)
    (literal : Literal) (inDirective keepPlace : Bool) :
    (s.on v).openLiteral literal inDirective keepPlace =
      (s.openLiteral literal inDirective keepPlace).on v := by
  unfold openLiteral
  rw [switchTo_on h hn]
  rfl

theorem closeLiteral_on (h : s.cursor.window.LooksLike n v)
    (hn : (s.closeLiteral d).cursor.pos ≤ n) :
    (s.on v).closeLiteral d = (s.closeLiteral d).on v := by
  have hpos : s.advance.cursor.pos ≤ n := by
    unfold closeLiteral at hn
    dsimp only at hn
    split at hn <;> exact hn
  have hplace : (s.on v).literalStart = s.literalStart := rfl
  have hdir : (s.on v).memory.inDirective = s.memory.inDirective := rfl
  unfold closeLiteral
  rw [hplace, hdir, switchAfter_on h hpos]
  dsimp only
  split <;> rfl

theorem applyLeave_on (h : s.cursor.window.LooksLike n v) (hc : Covers s.cursor) (style : Style)
    (hn : (s.applyLeave d style how).cursor.pos ≤ n) :
    (s.on v).applyLeave d style how = (s.applyLeave d style how).on v := by
  have hpos : s.cursor.pos ≤ n := Nat.le_trans (reaches_applyLeave d s style how).pos_le hn
  cases how with
  | stay => rfl
  | switch next => exact switchTo_on h hpos next
  | switchAfter next => exact switchAfter_on h hn next
  | switchAfterPair next => exact switchAfterPair_on h hn next
  | recolour next => rfl
  | skipNext => exact advance_on h hn
  | endWord => exact endWord_on h hpos hc
  | openDocKeyword =>
    exact switchTo_on (s := s.remember fun m => { m with docStyle := style }) h hpos .docKeyword
  | closeDocKeyword => exact closeDocKeyword_on h hpos hc
  | breakDocKeyword => exact switchAfterPair_on (s := s.recolour .docKeywordError) h hn .plain
  | openLiteral literal => exact openLiteral_on h hpos literal true true
  | closeLiteral => exact closeLiteral_on h hn
  | closeRegex =>
    have hn : (s.advance.skipWhile isSmallLetter).cursor.pos ≤ n := hn
    have hskip : Reaches s.advance.cursor (s.advance.skipWhile isSmallLetter).cursor :=
      Reaches.refl.skipWhile isSmallLetter
    have hlook : s.advance.cursor.window.LooksLike n v := Reaches.refl.advance.looksLike h
    rw [applyLeave, advance_on h (Nat.le_trans hskip.pos_le hn),
      skipWhile_on hlook isSmallLetter hn, switchTo_on (hskip.looksLike hlook) hn]
    rfl

theorem leaveStyle_on (h : s.cursor.window.LooksLike n v) (hc : Covers s.cursor)
    (hn : (s.leaveStyle d).cursor.pos ≤ n) :
    (s.on v).leaveStyle d = (s.leaveStyle d).on v := by
  rw [leaveStyle, leaving_on]
  exact applyLeave_on h hc _ hn

/-! ## What begins -/

/-- The scan with another answer to whether its line includes a file. -/
def withInclude (s : Scan) (inInclude : Bool) : Scan := s.remember fun m => { m with inInclude }

theorem entering?_on (h : s.cursor.window.LooksLike n v) (hn : s.cursor.pos ≤ n)
    (hlt : s.cursor.pos < s.cursor.window.stop → s.cursor.pos < n) :
    (s.on v).entering? d = s.entering? d := by
  have hmore : (s.on v).cursor.more = s.cursor.more := by
    rw [Cursor.more, Cursor.more, decide_eq_decide]
    exact h.inside_iff _ hn
  have hstyle : (s.on v).style = s.style := rfl
  unfold entering?
  rw [hmore, hstyle]
  by_cases inside : s.cursor.pos < s.cursor.window.stop
  · have hpos := hlt inside
    have hsight : (s.on v).cursor.surroundings = s.cursor.surroundings := by
      show Surroundings.mk _ _ _ (v.charOrSpace (s.cursor.pos + 2))
        (v.charOrSpace (s.cursor.pos + 3)) _ _ = _
      rw [h.char_eq _ (by omega), h.char_eq _ (by omega)]
      rfl
    rw [hsight]
    rfl
  · simp [Cursor.more, inside]

/-- The directive that begins at the cursor, behind its `#` and the blanks. -/
def directiveWord (s : Scan) : Scan := (s.switchTo .directive).advance.skipWhile isBlank

theorem directiveWord_on (h : s.cursor.window.LooksLike n v)
    (hn : s.directiveWord.cursor.pos ≤ n) : (s.on v).directiveWord = s.directiveWord.on v := by
  have hskip : Reaches (s.switchTo .directive).advance.cursor s.directiveWord.cursor :=
    Reaches.refl.skipWhile isBlank
  have hpos : (s.switchTo .directive).advance.cursor.pos ≤ n := Nat.le_trans hskip.pos_le hn
  have hfirst : s.cursor.pos ≤ n :=
    Nat.le_trans (Cursor.pos_le_advance (s.switchTo .directive).cursor) hpos
  have hlook : (s.switchTo .directive).cursor.window.LooksLike n v :=
    (Reaches.refl.switchTo .directive).looksLike h
  unfold directiveWord
  rw [switchTo_on h hfirst, advance_on hlook hpos]
  exact skipWhile_on (Reaches.refl.advance.looksLike hlook) isBlank hn

theorem openDirective_eq (s : Scan) : s.openDirective =
    if s.directiveWord.cursor.atLineEnd then s.directiveWord.switchTo .plain
    else if s.directiveWord.cursor.lookingAt ['i', 'n', 'c', 'l', 'u', 'd', 'e'] then
      s.directiveWord.withInclude true
    else s.directiveWord := rfl

theorem directiveWord_pos_le (s : Scan) :
    s.directiveWord.cursor.pos ≤ s.openDirective.cursor.pos := by
  rw [openDirective_eq]
  split
  · exact Nat.le_refl _
  · split
    · exact Nat.le_refl _
    · exact Nat.le_refl _

theorem applyEnter_on (h : s.cursor.window.LooksLike n v) (hw : what ≠ .directive)
    (hn : (s.applyEnter what).cursor.pos ≤ n) :
    (s.on v).applyEnter what = (s.applyEnter what).on v := by
  have hpos : s.cursor.pos ≤ n := Nat.le_trans (reaches_applyEnter s what).pos_le hn
  have hopen (next : Style) (hn : (s.switchTo next).advance.cursor.pos ≤ n) :
      ((s.on v).switchTo next).advance = (s.switchTo next).advance.on v := by
    rw [switchTo_on h hpos, advance_on ((Reaches.refl.switchTo next).looksLike h) hn]
  cases what with
  | verbatim => exact hopen .verbatim hn
  | number => exact switchTo_on h hpos .number
  | identifier => exact switchTo_on h hpos .identifier
  | uuid => exact switchTo_on (s := s.remember fun m => { m with afterUuid := false }) h hpos .uuid
  | blockComment doc => exact hopen _ hn
  | lineComment doc => exact switchTo_on h hpos _
  | regex => exact switchTo_on h hpos .regex
  | literal literal =>
    cases literal with
    | string close => exact openLiteral_on h hpos _ _ _
    | character => exact openLiteral_on h hpos _ _ _
  | directive => exact absurd rfl hw
  | operator => exact switchTo_on h hpos .operator

/-! ## The end of a window within the word of a directive -/

/-- **The rest of the window goes on with the word of a directive**: letters are all
    that is left. -/
structure Trailing (s : Scan) : Prop where
  style_eq : s.style = .directive
  atLineStart : s.cursor.atLineStart = false
  sees : s.cursor.Sees
  letters : ∀ q, s.cursor.pos ≤ q → q < s.cursor.window.stop →
    isSmallLetter (s.cursor.window.charOrSpace q) = true

/-- A letter is no mark of any kind. -/
theorem isSmallLetter_ne {ch : Char} (h : isSmallLetter ch = true) :
    isLineBreak ch = false ∧ isSpace ch = false ∧ ch ≠ '\\' ∧ ch ≠ '/' ∧ ch ≠ '"' ∧ ch ≠ '<' ∧
      ch ≠ '\'' := by
  have hne {other : Char} (ho : isSmallLetter other = false) : ch ≠ other := by
    rintro rfl
    exact Bool.false_ne_true (ho.symm.trans h)
  refine ⟨not_isLineBreak_of (p := isSmallLetter) rfl rfl ch h, ?_, hne rfl, hne rfl, hne rfl,
    hne rfl, hne rfl⟩
  simp only [isSpace, isSmallLetter, Bool.or_eq_false_iff, Bool.and_eq_true, decide_eq_true_eq,
    Bool.and_eq_false_iff, decide_eq_false_iff_not, beq_eq_false_iff_ne] at h ⊢
  exact ⟨hne rfl, .inr fun hle => absurd (Char.le_trans h.1 hle) (by decide)⟩

/-- Behind a character that ends no line, no line starts. -/
theorem atLineStart_advance (hs : c.Sees) (hc : isLineBreak c.ch = false) :
    c.advance.atLineStart = false := by
  by_cases inside : c.pos < c.window.stop
  · rw [Cursor.advance_of_lt inside]
    obtain ⟨hlf, hcr⟩ := isLineBreak_eq_false.1 (hs.ch_eq inside ▸ hc)
    simp [hs.atLineEnd_eq inside, Cursor.endsLine, hlf, hcr, inside]
  · rw [Cursor.advance_of_not_lt inside]

theorem atLineStart_skipWhile {p : Char → Bool} (hp : ∀ ch, p ch = true → isLineBreak ch = false)
    (hs : c.Sees) (hstart : c.atLineStart = false) : (c.skipWhile p).atLineStart = false := by
  fun_induction Cursor.skipWhile p c with
  | case1 c inside hch ih => exact ih hs.advance (atLineStart_advance hs (hp _ hch))
  | case2 => exact hstart
  | case3 => exact hstart

namespace Trailing

theorem withInclude (h : s.Trailing) (i : Bool) : (s.withInclude i).Trailing := { h with }

theorem ch (h : s.Trailing) (inside : s.cursor.pos < s.cursor.window.stop) :
    isSmallLetter s.cursor.ch = true := by
  rw [h.sees.ch_eq inside]
  exact h.letters _ (Nat.le_refl _) inside

/-- A step passes a letter, and asks for nothing. -/
theorem step_eq (h : s.Trailing) (inside : s.cursor.pos < s.cursor.window.stop) :
    s.step d = s.passChar := by
  obtain ⟨-, hspace, hslash, hdiv, hquote, hangle, htick⟩ := isSmallLetter_ne (h.ch inside)
  have hline : s.beginLine = s := by
    rw [beginLine, if_neg (by rw [h.atLineStart]; exact Bool.false_ne_true)]
  have hcont : s.atContinuation = false := by
    rw [atContinuation, beq_false_of_ne hslash, Bool.false_and]
  have hleave : s.leaving d = .stay := by
    rw [leaving, h.style_eq, leave, leaveDirective]
    simp [Cursor.surroundings, h.atLineStart, hspace, hdiv, hquote, hangle, htick]
  have hleft : s.leaveStyle d = s := by rw [leaveStyle, hleave, applyLeave]
  have henter : s.entering? d = none := by
    rw [entering?, h.style_eq, if_neg]
    simp
  rw [step, hline, hcont, hleft, enterAndPass, henter]
  exact if_neg Bool.false_ne_true

theorem passChar (h : s.Trailing) (inside : s.cursor.pos < s.cursor.window.stop) :
    s.passChar.Trailing where
  style_eq := by rw [style_passChar, h.style_eq]
  atLineStart := by
    rw [cursor_passChar]
    exact atLineStart_advance h.sees (isSmallLetter_ne (h.ch inside)).1
  sees := by
    rw [cursor_passChar]
    exact h.sees.advance
  letters := by
    rw [cursor_passChar, Cursor.window_advance]
    exact fun q hq => h.letters q (Nat.le_trans (Cursor.pos_le_advance _) hq)

/-- **To letters it makes no difference whether their line includes a file.** -/
theorem run_withInclude (h : s.Trailing) (i : Bool) :
    (s.withInclude i).run d = (s.run d).withInclude i ∧ (s.run d).style = .directive := by
  fun_induction Scan.run d s with
  | case1 s inside ih =>
    have hpass : (s.withInclude i).passChar = s.passChar.withInclude i := by
      have hstyle : (s.withInclude i).style = s.style := rfl
      have hch : (s.withInclude i).cursor.ch = s.cursor.ch := rfl
      rw [passChar_eq, passChar_eq, hstyle, hch]
      split <;> rfl
    rw [h.step_eq inside] at ih
    rw [run_of_inside (s := s.withInclude i) inside, (h.withInclude i).step_eq inside, hpass,
      h.step_eq inside]
    exact ih (h.passChar inside)
  | case2 s outside =>
    rw [run_of_outside (s := s.withInclude i) outside]
    exact ⟨rfl, h.style_eq⟩

end Trailing

/-- **If the word of a directive is seen in one of the windows only, it is cut off by
    the end of the window.** -/
theorem trailing_directiveWord (h : s.cursor.window.LooksLike n v)
    (hstop : s.cursor.window.stop ≤ n) (hs : s.cursor.Sees) (hc : isLineBreak s.cursor.ch = false)
    (hne : (s.directiveWord.cursor.on v).lookingAt ['i', 'n', 'c', 'l', 'u', 'd', 'e'] ≠
      s.directiveWord.cursor.lookingAt ['i', 'n', 'c', 'l', 'u', 'd', 'e']) :
    s.directiveWord.Trailing := by
  have hreach : Reaches s.cursor s.directiveWord.cursor :=
    ((Reaches.refl.switchTo .directive).advance).skipWhile isBlank
  have hlook := hreach.looksLike h
  have hsees : (s.switchTo .directive).cursor.Sees := (Reaches.refl.switchTo .directive).sees hs
  constructor
  case style_eq => rw [directiveWord, style_skipWhile, style_advance, style_switchTo]
  case atLineStart =>
    exact atLineStart_skipWhile (not_isLineBreak_of (p := isBlank) rfl rfl) hsees.advance
      (atLineStart_advance hsees hc)
  case sees => exact hreach.sees hs
  case letters =>
    rw [hreach.stop_eq]
    generalize s.directiveWord.cursor = c at hne hlook
    intro q hq hlt
    have hpeek : ∀ k, c.pos + k < n + 3 → (c.on v).peek k = c.peek k := fun k hk =>
      hlook.char_eq _ hk
    -- The word reaches further than the windows look the same, so it begins near their end.
    have hfar : n + 3 < c.pos + 7 := by
      by_contra hnear
      refine hne ?_
      simp only [Cursor.lookingAt, List.zipIdx_cons, List.zipIdx_nil, List.all_cons, List.all_nil]
      rw [hpeek 0, hpeek 1, hpeek 2, hpeek 3, hpeek 4, hpeek 5, hpeek 6] <;> omega
    have hword : ∀ e : Cursor, e.lookingAt ['i', 'n', 'c', 'l', 'u', 'd', 'e'] = true →
        isSmallLetter (e.peek 0) = true ∧ isSmallLetter (e.peek 1) = true ∧
          isSmallLetter (e.peek 2) = true := by
      intro e he
      simp only [Cursor.lookingAt, List.zipIdx_cons, List.all_cons, Bool.and_eq_true,
        beq_iff_eq] at he
      obtain ⟨h0, h1, h2, -⟩ := he
      rw [h0, h1, h2]
      exact ⟨rfl, rfl, rfl⟩
    obtain ⟨h0, h1, h2⟩ : isSmallLetter (c.peek 0) = true ∧ isSmallLetter (c.peek 1) = true ∧
        isSmallLetter (c.peek 2) = true := by
      by_cases hthis : c.lookingAt ['i', 'n', 'c', 'l', 'u', 'd', 'e'] = true
      · exact hword c hthis
      · rw [Bool.not_eq_true] at hthis
        rw [hthis, Bool.ne_false_iff] at hne
        rw [← hpeek 0 (by omega), ← hpeek 1 (by omega), ← hpeek 2 (by omega)]
        exact hword _ hne
    obtain rfl | rfl | rfl : q = c.pos ∨ q = c.pos + 1 ∨ q = c.pos + 2 := by omega
    · exact h0
    · exact h1
    · exact h2

/-! ## Steps -/

/-- **The scan `t` in the window `v` goes on as `s` does.**  Where `v` shows other
    text, it may have another idea of whether its line includes a file, if only
    letters are left of the window. -/
def Follows (n : Nat) (v : Window) (s t : Scan) : Prop :=
  t = s.on v ∨
    (∃ q, v.charOrSpace q ≠ s.cursor.window.charOrSpace q) ∧
      ∃ i, t = (s.withInclude i).on v ∧ (s.cursor.window.stop ≤ n → s.Trailing)

theorem openDirective_on (h : s.cursor.window.LooksLike n v) (hs : s.cursor.Sees)
    (hc : isLineBreak s.cursor.ch = false) (hn : s.openDirective.cursor.pos ≤ n) :
    Follows n v s.openDirective ((s.on v).openDirective) := by
  have hpos : s.directiveWord.cursor.pos ≤ n := Nat.le_trans s.directiveWord_pos_le hn
  have hreach : Reaches s.cursor s.directiveWord.cursor :=
    ((Reaches.refl.switchTo .directive).advance).skipWhile isBlank
  have hend : (s.directiveWord.on v).cursor.atLineEnd = s.directiveWord.cursor.atLineEnd := rfl
  have hlooking : (s.directiveWord.on v).cursor = s.directiveWord.cursor.on v := rfl
  rw [openDirective_eq, openDirective_eq, directiveWord_on h hpos, hend, hlooking]
  by_cases hline : s.directiveWord.cursor.atLineEnd = true
  · rw [if_pos hline, if_pos hline]
    exact .inl (switchTo_on (hreach.looksLike h) hpos .plain)
  · rw [if_neg hline, if_neg hline]
    by_cases hsame : (s.directiveWord.cursor.on v).lookingAt ['i', 'n', 'c', 'l', 'u', 'd', 'e'] =
        s.directiveWord.cursor.lookingAt ['i', 'n', 'c', 'l', 'u', 'd', 'e']
    · rw [hsame]
      refine .inl ?_
      split <;> rfl
    · have hdiffer : ∃ q, v.charOrSpace q ≠ s.directiveWord.cursor.window.charOrSpace q := by
        by_contra hall
        simp only [not_exists, not_not] at hall
        have hpeek : (s.directiveWord.cursor.on v).peek = s.directiveWord.cursor.peek :=
          funext fun k => hall _
        exact hsame (by rw [Cursor.lookingAt, Cursor.lookingAt, hpeek])
      have htrailing (hstop : s.directiveWord.cursor.window.stop ≤ n) :
          s.directiveWord.Trailing :=
        trailing_directiveWord h (hreach.stop_eq ▸ hstop) hs hc hsame
      -- Either scan takes note of the word or leaves things as they are.
      split <;> split
      · exact .inl rfl
      · exact .inr ⟨hdiffer, s.directiveWord.memory.inInclude, rfl,
          fun hstop => (htrailing hstop).withInclude true⟩
      · exact .inr ⟨hdiffer, true, rfl, htrailing⟩
      · exact .inl rfl

theorem enterAndPass_on (h : s.cursor.window.LooksLike n v) (hs : s.cursor.Sees)
    (hn : (s.enterAndPass d).cursor.pos ≤ n) :
    Follows n v (s.enterAndPass d) ((s.on v).enterAndPass d) := by
  obtain ⟨c, hbefore, hbehind⟩ := enterAndPass_moves d s
  have hlt : s.cursor.pos < s.cursor.window.stop → s.cursor.pos < n := fun inside =>
    Nat.lt_of_lt_of_le (hbefore.pos_lt hbehind inside) hn
  have hpos : s.cursor.pos ≤ n := Nat.le_trans (hbefore.advance.trans hbehind).pos_le hn
  unfold enterAndPass at hn ⊢
  rw [entering?_on h hpos hlt]
  split at hn
  · rename_i hw
    exact openDirective_on h hs (not_isLineBreak_of_entering? hw) hn
  · rename_i what hne hw
    have hentered : (s.applyEnter what).cursor.pos ≤ n := by
      rw [cursor_passChar] at hn
      exact Nat.le_trans (Cursor.pos_le_advance _) hn
    rw [applyEnter_on h hne hentered]
    exact .inl (passChar_on ((reaches_applyEnter s what).looksLike h) hn)
  · exact .inl (passChar_on h hn)

/-- **In a window that looks the same, a step is the same step.** -/
theorem step_on (h : s.cursor.window.LooksLike n v) (hs : s.cursor.Sees) (hc : Covers s.cursor)
    (hn : (s.step d).cursor.pos ≤ n) : Follows n v (s.step d) ((s.on v).step d) := by
  have hline : s.beginLine.cursor.window.LooksLike n v := (reaches_beginLine s).looksLike h
  have hbegin : (s.on v).beginLine = s.beginLine.on v :=
    beginLine_on h (Nat.le_trans (reaches_step d s).pos_le hn)
  have hcont : (s.beginLine.on v).atContinuation = s.beginLine.atContinuation := rfl
  unfold step at hn ⊢
  rw [hbegin]
  dsimp only at hn ⊢
  rw [hcont]
  split at hn
  · rename_i hover
    rw [if_pos hover, if_pos hover]
    exact .inl (passContinuation_on hline hn)
  · rename_i hover
    have hleave : Reaches s.beginLine.cursor (s.beginLine.leaveStyle d).cursor :=
      reaches_applyLeave d _ _ _
    have hleft : (s.beginLine.on v).leaveStyle d = (s.beginLine.leaveStyle d).on v := by
      obtain ⟨c, hbefore, hbehind⟩ := enterAndPass_moves d (s.beginLine.leaveStyle d)
      exact leaveStyle_on hline ((reaches_beginLine s).covers hc)
        (Nat.le_trans (hbefore.advance.trans hbehind).pos_le hn)
    rw [if_neg hover, if_neg hover, hleft]
    exact enterAndPass_on (hleave.looksLike hline)
      (((reaches_beginLine s).trans hleave).sees hs) hn

/-! ## Runs -/

/-- **A run to the end of a window that looks the same is the same run**, but for what
    is remembered of a directive that the window ends with. -/
theorem run_on {s : Scan} (hlook : s.cursor.window.LooksLike s.cursor.window.stop v)
    (hs : s.cursor.Sees) (hc : Covers s.cursor) :
    ∃ i, (s.on v).run d = ((s.run d).withInclude i).on v ∧
      (i = (s.run d).memory.inInclude ∨ (s.run d).style = .directive) := by
  by_cases inside : s.cursor.pos < s.cursor.window.stop
  · have inside' : (s.on v).cursor.pos < (s.on v).cursor.window.stop :=
      (hlook.inside_iff _ hc.pos_le).2 inside
    have hreach := reaches_step d s
    have hn : (s.step d).cursor.pos ≤ s.cursor.window.stop :=
      hreach.stop_eq ▸ (hreach.covers hc).pos_le
    have hlook' : (s.step d).cursor.window.LooksLike (s.step d).cursor.window.stop v := by
      rw [stop_step]
      exact hreach.looksLike hlook
    have moved := pos_lt_step d inside
    rw [run_of_inside inside, run_of_inside inside']
    rcases step_on hlook hs hc hn with hsame | ⟨-, i, hother, htrailing⟩
    · rw [hsame]
      exact run_on hlook' (hreach.sees hs) (hreach.covers hc)
    · obtain ⟨hrun, hstyle⟩ :=
        (htrailing (Nat.le_of_eq (stop_step d s))).run_withInclude (d := d) i
      obtain ⟨j, hj, -⟩ := run_on (s := (s.step d).withInclude i) hlook' (hreach.sees hs)
        (hreach.covers hc)
      rw [hother, hj, hrun]
      exact ⟨j, rfl, .inr hstyle⟩
  · have outside' : ¬ (s.on v).cursor.pos < (s.on v).cursor.window.stop :=
      mt (hlook.inside_iff _ hc.pos_le).1 inside
    rw [run_of_outside inside, run_of_outside outside']
    exact ⟨s.memory.inInclude, rfl, .inl rfl⟩
termination_by s.cursor.window.stop - s.cursor.pos
decreasing_by
  all_goals
    show (s.step d).cursor.window.stop - (s.step d).cursor.pos <
      s.cursor.window.stop - s.cursor.pos
    rw [stop_step]
    omega

theorem closeWord_of_directive (hs : s.style = .directive) : s.closeWord d = s := by
  have hf : (s.leaving d).Fits .directive s.cursor.surroundings := by
    rw [leaving, hs]
    exact leaveDirective_fits
  unfold closeWord
  split
  · rename_i hl
    rw [hl] at hf
    exact nomatch (hf : Style.directive = .identifier)
  · rename_i hl
    rw [hl] at hf
    exact nomatch (hf : Style.directive = .docKeyword)
  · rfl

theorem closeWord_on (h : s.cursor.window.LooksLike n v) (hn : s.cursor.pos ≤ n)
    (hc : Covers s.cursor) : (s.on v).closeWord d = (s.closeWord d).on v := by
  unfold closeWord
  rw [leaving_on]
  split
  · exact endWord_on h hn hc
  · exact closeDocKeyword_on h hn hc
  · rfl

theorem finish_on (h : s.cursor.window.LooksLike n v) (hn : s.cursor.pos ≤ n) :
    (s.on v).finish = s.finish.on v := by
  simp only [finish, on, Cursor.finish, Cursor.on, Window.commitBefore, Window.boundary,
    h.start_eq, h.min_stop_eq hn]

/-- **The whole scan of a window that looks the same is the same scan**, but for what
    is remembered of a directive. -/
theorem complete_on (hlook : s.cursor.window.LooksLike s.cursor.window.stop v)
    (hs : s.cursor.Sees) (hc : Covers s.cursor) :
    ∃ i, (s.on v).complete d = ((s.complete d).withInclude i).on v := by
  obtain ⟨i, hrun, hi⟩ := run_on (d := d) hlook hs hc
  have hreach : Reaches s.cursor (s.run d).cursor := reaches_run d s
  have hclose := reaches_closeWord d (s.run d)
  have hpos : (s.run d).cursor.pos ≤ s.cursor.window.stop :=
    hreach.stop_eq ▸ (hreach.covers hc).pos_le
  have hend : ((s.run d).closeWord d).cursor.pos ≤ s.cursor.window.stop := by
    rw [← (hreach.trans hclose).stop_eq]
    exact ((hreach.trans hclose).covers hc).pos_le
  -- A directive is not looked up, and all else remembers the same.
  obtain ⟨j, hclosed⟩ : ∃ j, (((s.run d).withInclude i).on v).closeWord d =
      (((s.run d).closeWord d).withInclude j).on v := by
    rcases hi with rfl | hdirective
    · exact ⟨((s.run d).closeWord d).memory.inInclude,
        closeWord_on (hreach.looksLike hlook) hpos (hreach.covers hc)⟩
    · refine ⟨i, ?_⟩
      rw [closeWord_of_directive hdirective]
      exact closeWord_of_directive hdirective
  refine ⟨j, ?_⟩
  rw [complete, hrun, hclosed]
  exact finish_on (s := ((s.run d).closeWord d).withInclude j)
    ((hreach.trans hclose).looksLike hlook) hend

end Scan

end CFamily

end StyledText
