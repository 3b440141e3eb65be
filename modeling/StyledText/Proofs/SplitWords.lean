/-
  Windows that open within a word.

  A word that two windows share is styled as one: the second of them is moved back to
  the beginning of the word and scans it anew, as a scan of the whole text does.  For
  that the beginning has to be found again from the characters alone.

  * `Cursor.LooksBack`: what a cursor knows of the character before it;
  * `Visits.on` and `Begins.on`: the first of the windows comes to the word as the
    whole text does;
  * `LeadsBack`: going back from a place leads to the beginning of the word;
  * `Dialect.lex_split`: then the word is styled as in the whole text;
  * `Dialect.lex_split_markedWord`: if it leads elsewhere, it may not be.
-/
import StyledText.Proofs.Relexing
import StyledText.Proofs.Words

namespace StyledText

/-! ## What a cursor knows of the character before it -/

namespace Cursor

variable {c : Cursor}

/-- Within its window, a cursor has seen the character before it, and knows by it
    whether a line starts. -/
structure LooksBack (c : Cursor) : Prop where
  prev_eq : c.window.start < c.pos → c.pos < c.window.stop →
    c.prev = c.window.charOrSpace (c.pos - 1)
  atLineStart_eq : c.window.start < c.pos → c.pos < c.window.stop →
    c.atLineStart = endsLine (c.window.charOrSpace (c.pos - 1)) (c.window.charOrSpace c.pos)
      (c.pos - 1) c.window.stop

theorem looksBack_advance (hs : c.Sees) : c.advance.LooksBack := by
  by_cases inside : c.pos < c.window.stop
  · rw [advance_of_lt inside]
    exact ⟨fun _ _ => hs.ch_eq inside, fun _ _ => hs.atLineEnd_eq inside⟩
  · rw [advance_of_not_lt inside]
    exact ⟨fun _ hin => absurd hin inside, fun _ hin => absurd hin inside⟩

/-- A line starts behind a character of the window as it does in the text. -/
theorem endsLine_eq_isLineStart {t : Text} {p stop : Nat} (hpos : 0 < p) (hp : p < stop) :
    endsLine (t.charAt (p - 1)) (t.charAt p) (p - 1) stop = t.isLineStart p := by
  rw [endsLine, Text.isLineStart, decide_eq_false (by omega), decide_eq_true hpos, Bool.true_and,
    Bool.or_false, Bool.or_comm]

end Cursor

namespace CFamily

namespace Scan

variable {d : Dialect} {s t u : Scan} {c c' : Cursor} {style : Style} {a n : Nat} {v w : Window}

theorem Reaches.looksBack (hr : Reaches c c') (h : c.LooksBack) (hs : c.Sees) : c'.LooksBack := by
  induction hr with
  | refl => exact h
  | advance hr _ => exact Cursor.looksBack_advance (hr.sees hs)
  | switchTo _ _ ih => exact { ih with }
  | recolour _ _ ih => exact { ih with }

theorem looksBack_ofWindow (w : Window) (style : Style) :
    (Scan.ofWindow w style).cursor.LooksBack :=
  ⟨fun h => absurd h (Nat.lt_irrefl _), fun h => absurd h (Nat.lt_irrefl _)⟩

/-- What a window shows does not hang on what is committed in it. -/
theorem Reaches.charOrSpace_eq (hr : Reaches c c') (q : Nat) :
    c'.window.charOrSpace q = c.window.charOrSpace q := by
  obtain ⟨pending, hc⟩ := hr.exists_pending
  rw [hc]
  rfl

/-- **A scan that opens where another one is, sees the same.** -/
theorem surroundings_ofWindow (hw : w.Fresh) (hb : w.source.Consistent) (hs : c.Sees)
    (hl : c.LooksBack) (hstart : w.start = c.pos) (hstop : w.stop = c.window.stop)
    (hchar : ∀ q, w.charOrSpace q = c.window.charOrSpace q)
    (hbefore : c.window.start < c.pos) (inside : c.pos < c.window.stop) (state : UInt8) :
    (Cursor.ofWindow w state).surroundings = c.surroundings := by
  have hlen : c.pos < w.source.length := Nat.lt_of_lt_of_le (hstop ▸ inside) hw.stop_le
  have htext (q : Nat) (hq : q ≤ c.pos) : c.window.charOrSpace q = w.source.text.charAt q := by
    have hlt : q < w.length := Nat.lt_of_le_of_lt hq hlen
    rw [← hchar, Window.charOrSpace, Window.charOr_of_lt hlt, hw.charAt_eq]
    rfl
  have hprev : c.prev = w.source.text.charAt (c.pos - 1) := by
    rw [hl.prev_eq hbefore inside, htext _ (Nat.sub_le _ 1)]
  have hline : c.atLineStart = w.source.text.isLineStart c.pos := by
    rw [hl.atLineStart_eq hbefore inside, htext _ (Nat.sub_le _ 1), htext _ (Nat.le_refl _)]
    exact Cursor.endsLine_eq_isLineStart (by omega) inside
  have hstarts : (w.source.lineStart (w.source.lineOf c.pos) == c.pos) =
      w.source.text.isLineStart c.pos := by
    rw [Bool.eq_iff_iff, Dialect.lineStart_beq_iff hb (Nat.le_of_lt hlen)]
    exact ⟨fun h => h.resolve_left (by omega), .inr⟩
  have hend := hs.atLineEnd_eq inside
  simp only [Cursor.surroundings, Cursor.ofWindow, Cursor.peek, hstart, hstop, hchar, hprev, hline,
    hend, hstarts, hs.ch_eq inside, hs.next_eq inside, if_neg (show ¬ c.pos = 0 by omega),
    hw.charAt_eq]
  rfl

/-! ## Coming to a word in another window -/

/-- **Within a window of the same text, a scan comes to the same scans.** -/
theorem Visits.on (h : Visits d s t) (hlook : s.cursor.window.LooksLike n v)
    (hchar : ∀ q, v.charOrSpace q = s.cursor.window.charOrSpace q) (hs : s.cursor.Sees)
    (hc : Covers s.cursor) (hn : t.cursor.pos ≤ n) : Visits d (s.on v) (t.on v) := by
  induction h with
  | refl => exact .refl
  | @step t hr inside ih =>
    have hpos : t.cursor.pos ≤ n := Nat.le_trans (reaches_step d t).pos_le hn
    have hlook' := hr.reaches.looksLike hlook
    have inside' : (t.on v).cursor.pos < (t.on v).cursor.window.stop :=
      (hlook'.inside_iff _ hpos).2 inside
    rcases step_on (d := d) hlook' (hr.reaches.sees hs) (hr.reaches.covers hc) hn with
      hsame | ⟨⟨q, hq⟩, -⟩
    · rw [← hsame]
      exact (ih hpos).step inside'
    · have hr' := hr.reaches.trans (reaches_step d t)
      exact absurd ((hchar q).trans (hr'.charOrSpace_eq q).symm) hq

/-- Whether a word begins in plain text at `ch`, before `next`. -/
def beginsWord (settings : Settings) (ch next : Char) : Bool :=
  !(ch == '@' && next == '"') && !(isDigit ch || (ch == '.' && isDigit next)) &&
    (isWordStart ch || ch == '@' || (ch == '$' && settings.allowDollars))

theorem enter?_eq_identifier_iff {here : Surroundings} {memory : Memory} {settings : Settings} :
    enter? here memory settings = some .identifier ↔
      beginsWord settings here.ch here.next = true ∧ memory.afterUuid = false := by
  unfold enter? beginsWord
  dsimp only
  by_cases hverbatim : (here.ch == '@' && here.next == '"') = true
  · simp [hverbatim]
  by_cases hnumber : (isDigit here.ch || (here.ch == '.' && isDigit here.next)) = true
  · rw [if_neg hverbatim, if_pos hnumber]
    cases memory.afterUuid <;> simp [hnumber]
  rw [if_neg hverbatim, if_neg hnumber]
  rw [Bool.not_eq_true] at hverbatim hnumber
  rw [hverbatim, hnumber, Bool.not_false, Bool.true_and, Bool.true_and]
  by_cases hword : (isWordStart here.ch || here.ch == '@' ||
      (here.ch == '$' && settings.allowDollars)) = true
  · rw [if_pos hword]
    cases memory.afterUuid <;> simp [hword]
  · rw [if_neg hword]
    refine iff_of_false ?_ fun h => hword h.1
    split_ifs <;> exact fun h => nomatch h

theorem entering?_eq_identifier_iff : s.entering? d = some .identifier ↔
    (s.cursor.pos < s.cursor.window.stop ∧ s.style = .plain) ∧
      beginsWord d.settings s.cursor.ch s.cursor.next = true ∧ s.memory.afterUuid = false := by
  unfold entering?
  split
  · rename_i hmore
    rw [enter?_eq_identifier_iff]
    simp only [Cursor.more, Bool.and_eq_true, decide_eq_true_eq, beq_iff_eq] at hmore
    exact ⟨fun h => ⟨hmore, h⟩, fun h => h.2⟩
  · rename_i hmore
    simp only [Cursor.more, Bool.and_eq_true, decide_eq_true_eq, beq_iff_eq] at hmore
    refine ⟨fun h => ?_, fun h => absurd h.1 hmore⟩
    cases h

/-- **Where a word begins, it begins in another window of the same text.** -/
theorem Begins.on (h : s.Begins d a style) (hlook : s.cursor.window.LooksLike n v)
    (hc : Covers s.cursor) (ha : a ≤ n) : (s.on v).Begins d a style := by
  have hbegun : (s.beginLine.leaveStyle d).cursor.pos ≤ n → s.cursor.pos ≤ n :=
    Nat.le_trans (reaches_leaveStyle d s).pos_le
  have hline : s.beginLine.cursor.window.LooksLike n v := (reaches_beginLine s).looksLike hlook
  cases h with
  | word hpos hover hwhat =>
    have hle : (s.beginLine.leaveStyle d).cursor.pos ≤ n := Nat.le_trans (Nat.le_of_eq hpos) ha
    have hleft : (s.on v).beginLine.leaveStyle d = (s.beginLine.leaveStyle d).on v := by
      rw [beginLine_on hlook (hbegun hle)]
      exact leaveStyle_on hline ((reaches_beginLine s).covers hc) hle
    have hbegin : (s.on v).beginLine = s.beginLine.on v := beginLine_on hlook (hbegun hle)
    refine .word ?_ ?_ ?_
    · rw [hleft]
      exact hpos
    · rw [hbegin]
      exact hover
    · rw [hleft]
      rw [entering?_eq_identifier_iff] at hwhat ⊢
      exact ⟨⟨(((reaches_leaveStyle d s).looksLike hlook).inside_iff _ hle).2 hwhat.1.1,
        hwhat.1.2⟩, hwhat.2⟩
  | docKeyword hpos hover hhow =>
    have hbegin : (s.on v).beginLine = s.beginLine.on v :=
      beginLine_on hlook (Nat.le_trans (Nat.le_of_eq hpos) ha)
    refine .docKeyword hpos ?_ ?_
    · rw [hbegin]
      exact hover
    · rw [hbegin, leaving_on]
      exact hhow

/-! ## Keywords in comments -/

theorem Begins.pos_le (h : s.Begins d a style) : s.cursor.pos ≤ a := by
  cases h with
  | word hpos _ _ => exact Nat.le_trans (reaches_leaveStyle d s).pos_le (Nat.le_of_eq hpos)
  | docKeyword hpos _ _ => exact Nat.le_of_eq hpos

/-- The styles of comments that document. -/
def IsDocComment (style : Style) : Prop := style = .docComment ∨ style = .docLineComment

theorem Begins.isDocComment (h : s.Begins d a .docKeyword) (hm : s.Tidy) :
    IsDocComment s.style := by
  cases h with
  | docKeyword hpos hover hhow =>
    have hf : (s.beginLine.leaving d).Fits s.beginLine.style s.beginLine.cursor.surroundings :=
      leave_fits hm.beginLine.sane
    rw [hhow, style_beginLine] at hf
    exact hf.1

/-- A comment goes on where it is, or behind a keyword in it. -/
theorem pos_leaveStyle (hm : s.Tidy) (h : IsDocComment (s.leaveStyle d).style) :
    (s.leaveStyle d).cursor.pos = s.cursor.pos := by
  have hf : (s.leaving d).Fits s.style s.cursor.surroundings := leave_fits hm.sane
  rw [leaveStyle, style_applyLeave] at h
  rw [leaveStyle]
  cases hhow : s.leaving d with
  | stay | switch | recolour | openDocKeyword | openLiteral => rfl
  | endWord => rw [applyLeave, cursor_endWord]; rfl
  | closeDocKeyword => rw [applyLeave, cursor_closeDocKeyword]; rfl
  | skipNext =>
    rw [hhow] at h
    rw [leaving] at hhow
    rcases h with h | h
    · rw [show s.style = .docComment from h, leave] at hhow
      split_ifs at hhow
    · rw [show s.style = .docLineComment from h, leave] at hhow
      split_ifs at hhow
  | switchAfter next | switchAfterPair next =>
    rw [hhow] at hf h
    rw [styleAfter, hf.1] at h
    rcases h with h | h <;> cases h
  | closeLiteral =>
    rw [hhow, styleAfter] at h
    split at h <;> rcases h with h | h <;> cases h
  | breakDocKeyword | closeRegex =>
    rw [hhow] at h
    rcases h with h | h <;> cases h

/-- **A scan that is in a comment that documents has passed a character of it.** -/
theorem boundary_lt_step (hm : s.Tidy) (hc : Covers s.cursor)
    (inside : s.cursor.pos < s.cursor.window.stop) (h : IsDocComment (s.step d).style) :
    (s.step d).cursor.window.boundary < (s.step d).cursor.pos := by
  have hreach := reaches_leaveStyle d s
  have hbegin := inside_beginLine inside
  by_cases hover : s.beginLine.atContinuation = true
  · rw [step, if_pos hover, cursor_passContinuation_window]
    have hmoved := (reaches_passContinuation s.beginLine).pos_le
    rw [Cursor.pos_advance, if_pos hbegin] at hmoved
    exact Nat.lt_of_le_of_lt ((reaches_beginLine s).covers hc).boundary_le hmoved
  · rw [step, if_neg hover] at h ⊢
    unfold enterAndPass at h ⊢
    split at h
    · rcases style_openDirective (s := s.beginLine.leaveStyle d) with hs | hs
      · rw [show (applyEnter _ .directive).style = .directive from hs] at h
        rcases h with h | h <;> cases h
      · rw [show (applyEnter _ .directive).style = .plain from hs] at h
        rcases h with h | h <;> cases h
    · rename_i what hne hwhat
      have hin := pos_lt_of_entering? hwhat
      have hmove := reaches_applyEnter (s.beginLine.leaveStyle d) what
      have hcovers := hreach.covers hc
      have hpos := Cursor.pos_le_advance ((s.beginLine.leaveStyle d).applyEnter what).cursor
      rw [cursor_passChar, Cursor.window_advance, boundary_applyEnter hcovers hne]
      rcases Nat.lt_or_ge ((s.beginLine.leaveStyle d).applyEnter what).cursor.pos
          ((s.beginLine.leaveStyle d).applyEnter what).cursor.window.stop with hlt | hge
      · rw [Cursor.pos_advance, if_pos hlt]
        exact Nat.lt_succ_of_le hmove.pos_le
      · rw [hmove.stop_eq] at hge
        omega
    · rw [style_passChar] at h
      have hin : (s.beginLine.leaveStyle d).cursor.pos <
          (s.beginLine.leaveStyle d).cursor.window.stop := by
        rwa [pos_leaveStyle hm.beginLine h, pos_beginLine, hreach.stop_eq]
      rw [cursor_passChar, Cursor.window_advance, Cursor.pos_advance, if_pos hin]
      exact Nat.lt_succ_of_le (hreach.covers hc).boundary_le

theorem Visits.boundary_lt (h : Visits d s t) (hm : s.Tidy) (hc : Covers s.cursor)
    (hs : ¬ IsDocComment s.style) (ht : IsDocComment t.style) :
    t.cursor.window.boundary < t.cursor.pos := by
  cases h with
  | refl => exact absurd ht hs
  | step hr inside => exact boundary_lt_step (hr.tidy hm) (hr.reaches.covers hc) inside ht

/-! ## A window that ends within a word -/

/-- **A word that goes on behind the window is committed as it is open.** -/
theorem Begins.committed?_complete {k : Nat} (h : s.Begins d a style) (hs : s.cursor.Sees)
    (hc : Covers s.cursor) (inside : s.cursor.pos < s.cursor.window.stop) (hk : a < k)
    (hstop : s.cursor.window.stop = k)
    (hgo : ∀ q ≤ k, a < q → goesOn d.settings style (s.cursor.window.charOrSpace q) = true) :
    (s.complete d).cursor.window.committed? (k - 1) = some style.code := by
  have hreach := reaches_step d s
  obtain ⟨hwithin, hpos, hch⟩ := h.step hs hc inside
  have hgo' (q : Nat) (hq : q ≤ k) (ha : a < q) :
      goesOn d.settings style ((s.step d).cursor.window.charOrSpace q) = true := by
    rw [hreach.charOrSpace_eq]
    exact hgo q hq ha
  obtain ⟨hend, hpos', hch'⟩ := run_of_goesOn (d := d) (k := k) hwithin (hreach.sees hs)
    (by rw [hch, hpos]) (fun q hq hlt => hgo' q (Nat.le_of_lt hlt) (by omega)) (by omega)
    (by rw [hreach.stop_eq, hstop])
  rw [complete_step inside, ← complete_runTo d k]
  have hreach' : Reaches s.cursor ((s.step d).runTo d k).cursor :=
    hreach.trans (reaches_runTo d k _)
  have hchar := hgo k (Nat.le_refl k) hk
  rw [← hreach'.charOrSpace_eq, ← hch'] at hchar
  generalize (s.step d).runTo d k = t at hend hpos' hreach' hchar
  have hcovers : Covers t.cursor := hreach'.covers hc
  have hopen : t.closeWord d = t := by
    rw [closeWord, leaving_of_goesOn (hend.style_eq.symm ▸ hchar)]
  have outside : ¬ t.cursor.pos < t.cursor.window.stop := by
    rw [hreach'.stop_eq, hstop, hpos']
    exact Nat.lt_irrefl k
  have hboundary : t.cursor.window.boundary ≤ k - 1 := by
    rw [hend.boundary_eq]
    omega
  rw [complete, run_of_outside outside, hopen,
    committed?_finish hcovers (Nat.le_trans (Nat.le_add_right _ _) hboundary) (by omega),
    Cursor.shown_of_boundary_le hboundary, ← hcovers.code_ofCode]
  exact congrArg (some ∘ Style.code) hend.style_eq

/-- The comment before a keyword is committed in its own style. -/
theorem Begins.committed?_comment (h : s.Begins d a .docKeyword) (hc : Covers s.cursor)
    (inside : s.cursor.pos < s.cursor.window.stop)
    (hcomment : s.cursor.window.boundary < s.cursor.pos) (hdoc : IsDocComment s.style) :
    (s.complete d).cursor.window.committed? (a - 1) = some s.style.code := by
  rw [complete_step inside]
  cases h with
  | docKeyword hpos hover hhow =>
    have hcursor : s.beginLine.cursor = s.cursor := by
      refine cursor_beginLine ?_ ?_ <;> rcases hdoc with hs | hs <;> rw [hs] <;> decide
    have hclosed : (s.cursor.switchTo Style.docKeyword.code).window.committed? (a - 1) =
        some s.style.code := by
      rw [Cursor.committed?_switchTo (by omega) (by omega) hc.pos_le, style, hc.code_ofCode]
    have hreach : Reaches (s.cursor.switchTo Style.docKeyword.code) (s.step d).cursor := by
      rw [step_of_openDocKeyword hover hhow, cursor_passChar, leaveStyle_of_openDocKeyword hhow,
        ← hcursor]
      exact Reaches.refl.advance
    exact Scan.committed?_complete hreach hclosed

/-! ## A window that opens at the beginning of a word -/

/-- **Scans that begin a word at the same place of the same text are within the same
    word.** -/
theorem Begins.sameWord (hu : u.Begins d a style) (ht : t.Begins d a style) (hs : u.cursor.Sees)
    (hs' : t.cursor.Sees) (hc : Covers u.cursor) (hc' : Covers t.cursor)
    (inside : u.cursor.pos < u.cursor.window.stop) (hmore : a + 1 < u.cursor.window.stop)
    (hchar : ∀ q, t.cursor.window.charOrSpace q = u.cursor.window.charOrSpace q)
    (hstop : t.cursor.window.stop = u.cursor.window.stop)
    (hlen : u.cursor.window.stop ≤ u.cursor.window.length)
    (hlen' : t.cursor.window.stop ≤ t.cursor.window.length)
    (hdoc : style = .docKeyword → t.style = u.style) : (u.step d).SameWord (t.step d) := by
  have inside' : t.cursor.pos < t.cursor.window.stop := by
    have := ht.pos_le
    omega
  obtain ⟨hwithin, hpos, hch⟩ := hu.step hs hc inside
  obtain ⟨hwithin', hpos', hch'⟩ := ht.step hs' hc' inside'
  have hr := reaches_step d u
  have hr' := reaches_step d t
  have hchar' (q : Nat) :
      (t.step d).cursor.window.charOrSpace q = (u.step d).cursor.window.charOrSpace q := by
    rw [hr.charOrSpace_eq, hr'.charOrSpace_eq, hchar]
  have hlength {c c' : Cursor} (h : Reaches c c') : c'.window.length = c.window.length := by
    obtain ⟨pending, hc⟩ := h.exists_pending
    rw [hc]
    rfl
  constructor
  case covers => exact hr.covers hc
  case covers' => exact hr'.covers hc'
  case isLookedUp =>
    rw [hwithin.style_eq]
    cases hu <;> rfl
  case docStyle_eq =>
    intro hk
    rw [hwithin.style_eq] at hk
    subst hk
    rw [hu.docStyle_eq, ht.docStyle_eq, hdoc rfl]
  case inStep =>
    exact
      { char_eq := hchar'
        stop_eq := by rw [hr.stop_eq, hr'.stop_eq, hstop]
        stop_le := by rw [hr.stop_eq, hlength hr]; exact hlen
        stop_le' := by rw [hr'.stop_eq, hlength hr']; exact hlen'
        boundary_eq := by rw [hwithin.boundary_eq, hwithin'.boundary_eq]
        pos_eq := by rw [hpos, hpos']
        state_eq := by
          rw [← (hr.covers hc).code_ofCode, ← (hr'.covers hc').code_ofCode]
          exact congrArg Style.code (hwithin'.style_eq.trans hwithin.style_eq.symm)
        ch_eq := by rw [hch, hch', hchar']
        next_eq := by
          rw [(hr.sees hs).next_eq (by rw [hr.stop_eq, hpos]; exact hmore),
            (hr'.sees hs').next_eq (by rw [hr'.stop_eq, hpos', hstop]; exact hmore), hpos, hpos',
            hchar'] }

theorem isIdentifierChar_of_beginsWord {settings : Settings} {ch next : Char}
    (h : beginsWord settings ch next = true) (hne : ch ≠ '@') :
    isIdentifierChar settings ch = true := by
  simp only [beginsWord, Bool.and_eq_true, Bool.or_eq_true, beq_iff_eq] at h
  simp only [isIdentifierChar, isWordChar, Bool.or_eq_true, Bool.and_eq_true, beq_iff_eq]
  rcases h.2 with (hstart | hat) | hdollar
  · exact .inl (.inl hstart)
  · exact absurd hat hne
  · exact .inr hdollar

theorem not_backslash_of_beginsWord {settings : Settings} {ch next : Char}
    (h : beginsWord settings ch next = true) : ch ≠ '\\' := by
  rintro rfl
  simp only [beginsWord, Bool.and_eq_true, Bool.or_eq_true, beq_iff_eq] at h
  rcases h.2 with (hstart | hat) | hdollar
  · exact absurd hstart (by decide)
  · exact absurd hat (by decide)
  · exact absurd hdollar.1 (by decide)

/-- In plain text a scan begins a word as it opens, if one begins with the character
    there. -/
theorem begins_ofWindow_plain (hw : w.start < w.stop)
    (hbegins : beginsWord d.settings (w.charOrSpace w.start) (w.charOrSpace (w.start + 1)) = true) :
    (Scan.ofWindow w .plain).Begins d w.start .identifier := by
  have hplain : (Scan.ofWindow w .plain).style = .plain := Style.ofCode_code _
  have hcursor : (Scan.ofWindow w .plain).beginLine.cursor = Cursor.ofWindow w Style.plain.code :=
    cursor_beginLine (by rw [hplain]; decide) (by rw [hplain]; decide)
  have hstyle : (Scan.ofWindow w .plain).beginLine.style = .plain := style_beginLine
  have huuid : (Scan.ofWindow w .plain).beginLine.memory.afterUuid = false := by
    unfold beginLine
    split
    · rfl
    · rfl
  have hleft : (Scan.ofWindow w .plain).beginLine.leaveStyle d =
      (Scan.ofWindow w .plain).beginLine := by
    rw [leaveStyle, leaving, hstyle]
    rfl
  refine .word ?_ ?_ ?_
  · rw [hleft, hcursor]
    rfl
  · rw [atContinuation, hcursor]
    exact Bool.and_eq_false_iff.2 (.inl (beq_false_of_ne (not_backslash_of_beginsWord hbegins)))
  · rw [hleft, entering?_eq_identifier_iff, hcursor]
    exact ⟨⟨hw, hstyle⟩, hbegins, huuid⟩

/-- How a comment that documents ends does not hang on what is remembered. -/
theorem leave_of_isDocComment {here : Surroundings} {memory memory' : Memory}
    {settings : Settings} (h : IsDocComment style) :
    leave style here memory' settings = leave style here memory settings := by
  rcases h with rfl | rfl <;> rfl

/-- A keyword begins with its mark. -/
theorem mark_of_openDocKeyword {here : Surroundings} {memory : Memory} {settings : Settings}
    (h : leave style here memory settings = .openDocKeyword) (hdoc : IsDocComment style) :
    here.ch = '@' ∨ here.ch = '\\' := by
  have hbegins {after : List Char} (hb : beginsDocKeyword here after = true) :
      here.ch = '@' ∨ here.ch = '\\' := by
    simp only [beginsDocKeyword, Bool.and_eq_true, Bool.or_eq_true, beq_iff_eq] at hb
    exact hb.1.1
  rcases hdoc with rfl | rfl
  · rw [leave] at h
    split_ifs at h with _ hb
    exact hbegins hb
  · rw [leave] at h
    split_ifs at h with _ hb
    exact hbegins hb

/-- In a comment a scan begins a keyword as it opens, if one begins there for a scan that
    sees the same. -/
theorem Begins.docKeyword_ofWindow (h : u.Begins d a .docKeyword) (hdoc : IsDocComment u.style)
    (hstart : w.start = a)
    (hsight : (Cursor.ofWindow w u.style.code).surroundings = u.cursor.surroundings) :
    (Scan.ofWindow w u.style).Begins d a .docKeyword := by
  have hcursor {s : Scan} (hs : IsDocComment s.style) : s.beginLine.cursor = s.cursor := by
    refine cursor_beginLine ?_ ?_ <;> rcases hs with hs | hs <;> rw [hs] <;> decide
  have hstyle : (Scan.ofWindow w u.style).style = u.style := Style.ofCode_code _
  cases h with
  | docKeyword hpos hover hhow =>
    have hch : (Cursor.ofWindow w u.style.code).ch = u.cursor.ch :=
      congrArg Surroundings.ch hsight
    have hnext : (Cursor.ofWindow w u.style.code).next = u.cursor.next :=
      congrArg Surroundings.next hsight
    have hopen := hcursor (s := Scan.ofWindow w u.style) (hstyle.symm ▸ hdoc)
    refine .docKeyword hstart ?_ ?_
    · rw [atContinuation, hcursor hdoc] at hover
      rw [atContinuation, hopen]
      show ((Cursor.ofWindow w u.style.code).ch == '\\' &&
        isLineBreak (Cursor.ofWindow w u.style.code).next) = false
      rwa [hch, hnext]
    · rw [leaving, hcursor hdoc, style_beginLine] at hhow
      rw [leaving, hopen, style_beginLine, hstyle]
      show leave u.style (Cursor.ofWindow w u.style.code).surroundings _ _ = _
      rw [hsight, leave_of_isDocComment hdoc, hhow]

end Scan

/-! ## Going back to the beginning of a word -/

variable {settings : Settings} {w : Window} {style : Style} {a k pos : Nat}

/-- **Going back leads to the first of the characters that hold.** -/
theorem runStart_eq {f : Char → Bool} (hall : ∀ q, a ≤ q → q ≤ pos → f (w.charAt q) = true)
    (hle : a ≤ pos) (hend : a = 0 ∨ f (w.charAt (a - 1)) = false) : runStart f w pos = a := by
  induction pos with
  | zero => exact (Nat.le_zero.1 hle).symm
  | succ pos ih =>
    rw [runStart]
    rcases Nat.lt_or_eq_of_le hle with hlt | rfl
    · rw [hall (pos + 1) hle (Nat.le_refl _), hall pos (by omega) (Nat.le_succ pos)]
      exact ih (fun q ha hq => hall q ha (Nat.le_succ_of_le hq)) (by omega)
    · rw [show f (w.charAt pos) = false from hend.resolve_left (Nat.succ_ne_zero pos),
        Bool.and_false]
      rfl

/-- **Going back from `k` leads to `a`, where a word of `style` begins**: only characters
    that a word goes on with stand between them.  The mark that a word may begin with
    is not right before `k`.  And before a word without a mark stands nothing that it
    could go on from. -/
structure LeadsBack (settings : Settings) (text : Text) (style : Style) (a k : Nat) : Prop where
  goesOn : ∀ q ≤ k, a < q → Scan.goesOn settings style (text.charAt q) = true
  marked : style = .docKeyword ∨ text.charAt a = '@' → a + 1 < k
  unmarked : style = .identifier → text.charAt a ≠ '@' → 0 < a →
    isIdentifierChar settings (text.charAt (a - 1)) = false ∧ text.charAt (a - 1) ≠ '@'

namespace LeadsBack

variable {text : Text}

/-- The window that opens within a word is moved back to its beginning. -/
theorem reopen_identifier (h : LeadsBack settings text .identifier a k) (hk : a < k)
    (hstart : w.start = k) (htext : ∀ q, w.charAt q = text.charAt q)
    (hfirst : text.charAt a ≠ '@' → isIdentifierChar settings (text.charAt a) = true) :
    reopen settings w .identifier = (w.extendBack a, .plain) := by
  have hword : wordStart? settings w w.start = some a := by
    rw [wordStart?, hstart]
    by_cases hmark : text.charAt a = '@'
    · have hlt := h.marked (.inr hmark)
      have hrun : runStart (isIdentifierChar settings) w k = a + 1 := by
        refine runStart_eq (fun q hq hqk => ?_) hk (.inr ?_)
        · rw [htext]
          exact h.goesOn q hqk hq
        · rw [htext, Nat.add_sub_cancel, hmark]
          simp only [isIdentifierChar, Bool.or_eq_false_iff]
          exact ⟨by decide, by rw [Bool.and_eq_false_iff]; exact .inl (by decide)⟩
      rw [hrun, if_neg (by omega), htext, Nat.add_sub_cancel,
        if_pos ⟨Nat.succ_pos a, hmark⟩]
    · have hrun : runStart (isIdentifierChar settings) w k = a := by
        refine runStart_eq (fun q hq hqk => ?_) (Nat.le_of_lt hk) ?_
        · rw [htext]
          rcases Nat.lt_or_eq_of_le hq with hlt | rfl
          · exact h.goesOn q hqk hlt
          · exact hfirst hmark
        · rcases Nat.eq_zero_or_pos a with hzero | hpos
          · exact .inl hzero
          · rw [htext]
            exact .inr (h.unmarked rfl hmark hpos).1
      rw [hrun, if_neg (by omega), htext, if_neg fun hat => (h.unmarked rfl hmark hat.1).2 hat.2]
  rw [reopen, hword]

/-- The window that opens within a keyword is moved back to the mark of the keyword. -/
theorem reopen_docKeyword (h : LeadsBack settings text .docKeyword a k)
    (hstart : w.start = k) (htext : ∀ q, w.charAt q = text.charAt q)
    (hmark : text.charAt a = '@' ∨ text.charAt a = '\\') :
    reopen settings w .docKeyword = (w.extendBack a, commentStyleBefore w a) := by
  have hlt := h.marked (.inl rfl)
  have hword : docKeywordStart? w w.start = some a := by
    have hrun : runStart isSmallLetter w k = a + 1 := by
      refine runStart_eq (fun q hq hqk => ?_) (Nat.le_of_lt hlt) (.inr ?_)
      · rw [htext]
        exact h.goesOn q hqk hq
      · rw [htext, Nat.add_sub_cancel]
        rcases hmark with hmark | hmark <;> rw [hmark] <;> rfl
    rw [docKeywordStart?, hstart]
    rw [hrun, if_neg (by omega), htext, Nat.add_sub_cancel, if_pos hmark]
  rw [reopen, hword]

end LeadsBack

/-! ## Words that two windows share -/

namespace Dialect

variable {d : Dialect} {text : Text} {u : Scan}

/-- In the whole text the characters of `[a, e)` are in one word of `style`: its scan comes
    to a place within the run that is open from `a` on at which the run does not end
    before `e`. -/
def Spans (d : Dialect) (text : Text) (style : Style) (a e : Nat) : Prop :=
  ∃ p, (d.reaching text p).Within style a ∧ e ≤ (d.reaching text p).wordEnd d

theorem charOrSpace_first (q : Nat) : (Window.ofBuffer (.ofText text) 0 k).charOrSpace q =
    (Window.ofBuffer (.ofText text) 0 text.length).charOrSpace q := by
  rw [(Window.fresh_ofBuffer _ 0 k).charOrSpace_eq, (Window.fresh_ofBuffer _ 0 _).charOrSpace_eq]
  rfl

/-- The window on the first characters of a text looks like the whole text. -/
theorem looksLike_first (hk : 0 < k) (hlen : k ≤ text.length) :
    (Window.ofBuffer (.ofText text) 0 text.length).LooksLike (k - 1)
      (.ofBuffer (.ofText text) 0 k) where
  start_eq := rfl
  inside_iff p hp := by
    have hstop : (Window.ofBuffer (.ofText text) 0 k).stop = k :=
      (Window.stop_ofBuffer (by rwa [Nat.zero_add])).trans (Nat.zero_add k)
    rw [hstop, stop_whole]
    omega
  char_eq q _ := charOrSpace_first q
  stop_le := Window.stop_ofBuffer_le
  stop_le' := Window.stop_ofBuffer_le

/-- The scan of the first characters of a text, beside that of the whole text. -/
theorem ofWindow_first (hk : 0 < k) (hlen : k ≤ text.length) :
    Scan.ofWindow (.ofBuffer (.ofText text) 0 k) .plain =
      (Scan.ofWindow (.ofBuffer (.ofText text) 0 text.length) .plain).on
        (.ofBuffer (.ofText text) 0 k) := by
  have hstart (n : Nat) : (Window.ofBuffer (.ofText text) 0 n).start = 0 :=
    Window.start_ofBuffer (Nat.zero_le _)
  refine ofWindow_on rfl rfl (looksLike_first hk hlen) ?_ ?_ rfl ?_ ?_ .plain
  · rw [hstart]
    exact Nat.zero_le _
  · rw [Window.charAt_ofBuffer, Window.charAt_ofBuffer]
  · simp only [lineContinues, Window.charAt_ofBuffer]
  · rw [hstart, operatorBefore?, operatorBefore?]

/-- **The first window commits the word up to its end in the style of a word that is
    open**, and the comment before a keyword in its own style. -/
theorem committed?_first
    (hu : Scan.Visits d (Scan.ofWindow (.ofBuffer (.ofText text) 0 text.length) .plain) u)
    (hbegins : u.Begins d a style) (hk : a < k) (hlen : k < text.length)
    (hgo : ∀ q ≤ k, a < q → Scan.goesOn d.settings style (text.charAt q) = true) :
    (d.lex (.ofBuffer (.ofText text) 0 k) 0).window.committed? (k - 1) = some style.code ∧
      (style = .docKeyword → 0 < a ∧
        (d.lex (.ofBuffer (.ofText text) 0 k) 0).window.committed? (a - 1) =
          some u.style.code) := by
  have hwhole :
      Scan.Covers (Scan.ofWindow (.ofBuffer (.ofText text) 0 text.length) .plain).cursor :=
    Scan.covers_ofWindow rfl (Nat.zero_le _) .plain
  have hsees := sees_ofWindow (.ofBuffer (.ofText text) 0 text.length) .plain
  have hlook := looksLike_first (Nat.zero_lt_of_lt hk) (Nat.le_of_lt hlen)
  have hua : u.cursor.pos ≤ a := hbegins.pos_le
  -- The scan of the first window begins the word where that of the whole text does.
  obtain ⟨u', hu'⟩ : ∃ u' : Scan, u' = u.on (.ofBuffer (.ofText text) 0 k) := ⟨_, rfl⟩
  have hvisits : Scan.Visits d (Scan.ofWindow (.ofBuffer (.ofText text) 0 k) .plain) u' := by
    rw [ofWindow_first (Nat.zero_lt_of_lt hk) (Nat.le_of_lt hlen), hu']
    exact hu.on hlook charOrSpace_first hsees hwhole (by omega)
  have hbegins' : u'.Begins d a style :=
    hu' ▸ hbegins.on (hu.reaches.looksLike hlook) (hu.reaches.covers hwhole) (by omega)
  have hstop : u'.cursor.window.stop = k := by
    rw [hvisits.reaches.stop_eq]
    exact (Window.stop_ofBuffer (by rw [Nat.zero_add]; exact Nat.le_of_lt hlen)).trans
      (Nat.zero_add k)
  have hpos' : u'.cursor.pos = u.cursor.pos := hu' ▸ rfl
  have inside' : u'.cursor.pos < u'.cursor.window.stop := by omega
  have hcovers' : Scan.Covers u'.cursor :=
    hvisits.reaches.covers (Scan.covers_ofWindow rfl (Nat.zero_le _) .plain)
  have hsees' : u'.cursor.Sees := hvisits.reaches.sees (sees_ofWindow _ _)
  have hgo' (q : Nat) (hq : q ≤ k) (ha : a < q) :
      Scan.goesOn d.settings style (u'.cursor.window.charOrSpace q) = true := by
    rw [hvisits.reaches.charOrSpace_eq]
    show Scan.goesOn d.settings style ((Window.ofBuffer (.ofText text) 0 k).charOrSpace q) = true
    rw [Window.charOrSpace_ofBuffer_of_lt (show q < (Buffer.ofText text).length from by
      exact Nat.lt_of_le_of_lt hq hlen)]
    exact hgo q hq ha
  rw [lex_window, opening_zero, ← hvisits.complete_eq]
  refine ⟨hbegins'.committed?_complete hsees' hcovers' inside' hk hstop hgo', ?_⟩
  rintro rfl
  have hdoc : Scan.IsDocComment u'.style :=
    hbegins'.isDocComment (hvisits.tidy (Scan.Tidy.ofWindow _ _))
  have hcomment : u'.cursor.window.boundary < u'.cursor.pos := by
    refine hvisits.boundary_lt (Scan.Tidy.ofWindow _ _)
      (Scan.covers_ofWindow rfl (Nat.zero_le _) .plain) ?_ hdoc
    rintro (hs | hs) <;> exact nomatch hs
  have hstyle : u'.style = u.style := hu' ▸ rfl
  have hle := hbegins'.pos_le
  rw [← hstyle]
  exact ⟨by omega, hbegins'.committed?_comment hcovers' inside' hcomment hdoc⟩

/-- **The second window opens a scan that begins the word anew**, and is then within the
    same word as the scan of the whole text. -/
theorem sameWord_second {b : Buffer} (hb : b.Consistent) (htext : b.text = text)
    (hu : Scan.Visits d (Scan.ofWindow (.ofBuffer (.ofText text) 0 text.length) .plain) u)
    (inside : u.cursor.pos < u.cursor.window.stop) (hbegins : u.Begins d a style) (hk : a < k)
    (hlen : k < text.length) (hback : LeadsBack d.settings text style a k)
    (hcomment : style = .docKeyword → 0 < a ∧ b.styleAt (a - 1) = u.style.code) :
    let t := d.opening (.ofBuffer b k (text.length - k)) style.code
    t.cursor.pos < t.cursor.window.stop ∧
      (u.step d).SameWord (t.step d) := by
  have hlength : b.length = text.length := congrArg Text.length htext
  have hw := Window.fresh_ofBuffer b k (text.length - k)
  have hwstart : (Window.ofBuffer b k (text.length - k)).start = k :=
    Window.start_ofBuffer (by omega)
  have hwstop : (Window.ofBuffer b k (text.length - k)).stop = text.length := by
    rw [Window.stop_ofBuffer (by omega)]
    omega
  have hwchar (q : Nat) : (Window.ofBuffer b k (text.length - k)).charAt q = text.charAt q := by
    rw [Window.charAt_ofBuffer, Buffer.charAt, htext]
  -- The window is moved back to the beginning of the word.
  obtain ⟨v, hv⟩ : ∃ v, v = (Window.ofBuffer b k (text.length - k)).extendBack a := ⟨_, rfl⟩
  have hfresh : v.Fresh := hv ▸ hw.extendBack a
  have hsource : v.source = b := by
    rw [hv, Window.SameView.source_extendBack]
    rfl
  have hstart : v.start = a := by
    rw [hv, hw.start_extendBack, hwstart]
    omega
  have hstop : v.stop = text.length := by rw [hv, Window.stop_extendBack, hwstop]
  have hwhole := Window.fresh_ofBuffer (.ofText text) 0 text.length
  have hchar (q : Nat) : v.charOrSpace q = u.cursor.window.charOrSpace q := by
    rw [hu.reaches.charOrSpace_eq, hfresh.charOrSpace_eq, hsource, htext]
    exact (hwhole.charOrSpace_eq q).symm
  have hustop : u.cursor.window.stop = text.length := hu.reaches.stop_eq.trans (stop_whole text)
  have husees : u.cursor.Sees := hu.reaches.sees (sees_ofWindow _ _)
  have hucovers : Scan.Covers u.cursor :=
    hu.reaches.covers (Scan.covers_ofWindow rfl (Nat.zero_le _) .plain)
  have hulen : u.cursor.window.stop ≤ u.cursor.window.length := by
    obtain ⟨pending, hc⟩ := hu.reaches.exists_pending
    rw [hc]
    exact hwhole.stop_le
  have hsame (met : Style) (ht : (Scan.ofWindow v met).Begins d a style)
      (hdoc : style = .docKeyword → (Scan.ofWindow v met).style = u.style) :
      (u.step d).SameWord ((Scan.ofWindow v met).step d) := by
    refine hbegins.sameWord ht husees (sees_ofWindow v met) hucovers
      (Scan.covers_ofWindow hfresh.pending_eq hfresh.start_le met) inside ?_ hchar ?_ hulen
      hfresh.stop_le hdoc
    · rw [hustop]
      omega
    · exact hstop.trans hustop.symm
  have hinside : v.start < v.stop := by omega
  have htextAt : v.charOrSpace a = text.charAt a := by
    rw [Window.charOrSpace, Window.charOr_of_lt (by rw [Window.length, hsource]; omega),
      hfresh.charAt_eq, hsource, Buffer.charAt, htext]
  intro t
  cases hbegins with
  | word hpos hover hwhat =>
    obtain ⟨⟨hin, -⟩, hword, -⟩ := Scan.entering?_eq_identifier_iff.1 hwhat
    have hreach := Scan.reaches_leaveStyle d u
    have hch : (u.beginLine.leaveStyle d).cursor.ch = v.charOrSpace a := by
      rw [(hreach.sees husees).ch_eq hin, hpos, hreach.charOrSpace_eq, hchar]
    have hnext : (u.beginLine.leaveStyle d).cursor.next = v.charOrSpace (a + 1) := by
      rw [(hreach.sees husees).next_eq hin, hpos, hreach.charOrSpace_eq, hchar]
    rw [hch, hnext] at hword
    have ht : t = Scan.ofWindow v .plain := by
      show d.opening _ _ = _
      rw [opening, Style.ofCode_code, hback.reopen_identifier hk hwstart hwchar ?_, hv]
      exact fun hne => htextAt ▸ Scan.isIdentifierChar_of_beginsWord hword (htextAt ▸ hne)
    have hbegun := Scan.begins_ofWindow_plain (d := d) hinside (hstart.symm ▸ hword)
    rw [hstart] at hbegun
    rw [ht]
    refine ⟨hinside, hsame .plain hbegun ?_⟩
    intro h
    cases h
  | docKeyword hpos hover hhow =>
    have hbegins : u.Begins d a .docKeyword := .docKeyword hpos hover hhow
    have hdoc := hbegins.isDocComment (hu.tidy (Scan.Tidy.ofWindow _ _))
    obtain ⟨hapos, hbefore⟩ := hcomment rfl
    have hmark : text.charAt a = '@' ∨ text.charAt a = '\\' := by
      have hcursor : u.beginLine.cursor = u.cursor := by
        refine Scan.cursor_beginLine ?_ ?_ <;> rcases hdoc with hs | hs <;> rw [hs] <;> decide
      have hch : u.beginLine.cursor.surroundings.ch = text.charAt a := by
        rw [hcursor]
        exact (husees.ch_eq inside).trans (hpos ▸ (hchar _).symm.trans (hpos.symm ▸ htextAt))
      rw [← hch]
      exact Scan.mark_of_openDocKeyword hhow (by rw [Scan.style_beginLine]; exact hdoc)
    have ht : t = Scan.ofWindow v u.style := by
      show d.opening _ _ = _
      rw [opening, Style.ofCode_code, hback.reopen_docKeyword hwstart hwchar hmark, ← hv]
      have hmet : commentStyleBefore (Window.ofBuffer b k (text.length - k)) a = u.style := by
        rw [commentStyleBefore, hw.styleAt_eq, Window.source_ofBuffer, hbefore, Style.ofCode_code]
        rcases hdoc with hs | hs
        · rw [hs, if_neg fun h => absurd h.2 (by decide)]
        · rw [hs, if_pos ⟨hapos, rfl⟩]
      rw [hmet]
    have hsight : (Cursor.ofWindow v u.style.code).surroundings = u.cursor.surroundings := by
      refine Scan.surroundings_ofWindow hfresh (hsource ▸ hb) husees
        (hu.reaches.looksBack (Scan.looksBack_ofWindow _ _) (sees_ofWindow _ _))
        (hstart.trans hpos.symm) (hstop.trans hustop.symm) hchar ?_ inside _
      rw [hu.reaches.start_eq, hpos]
      exact hapos
    have hbegun := hbegins.docKeyword_ofWindow hdoc hstart hsight
    rw [ht]
    exact ⟨hinside, hsame u.style hbegun fun _ => Style.ofCode_code _⟩

/-! ## The styles of a text that is lexed in two windows -/

/-- What is committed in a window stands in the buffer when it is put there. -/
theorem styleAt_of_committed? {b : Buffer} {styles : Array UInt8} {w : Window} {q : Nat}
    {code : UInt8} (hs : b.styles = some styles) (hfits : w.boundary ≤ styles.size)
    (hq : w.committed? q = some code) : (b.setStyles w.start w.pending).styleAt q = code := by
  have hstart : w.start ≤ q := by
    rw [← Nat.not_lt]
    intro hlt
    rw [Window.committed?_of_lt_start hlt] at hq
    exact nomatch hq
  have hboundary : q < w.boundary := by
    rw [← Nat.not_le]
    intro hle
    rw [Window.committed?_of_boundary_le hle] at hq
    exact nomatch hq
  rw [Window.committed?, if_pos hstart] at hq
  rw [Buffer.styleAt_setStyles hs hfits, if_pos ⟨hstart, hboundary⟩, hq]
  rfl

/-- The buffer with the styles that the lexer gives a window. -/
def styled (d : Dialect) (b : Buffer) (start n : Nat) (initial : UInt8) : Buffer :=
  b.setStyles (d.lex (.ofBuffer b start n) initial).window.start
    (d.lex (.ofBuffer b start n) initial).window.pending

theorem buffer_lex {doc : Document} (hlexer : doc.lexer = some d.lexer) (start n : Nat)
    (initial : UInt8) :
    (doc.lex start n initial).1.buffer = d.styled doc.buffer start n initial := by
  rw [Document.lex_eq hlexer start n initial rfl]
  rfl

/-- A text that is lexed up to `k`, and then on from there in the style that it has been
    left before `k`. -/
def lexedInTwo (d : Dialect) (text : Text) (k : Nat) : Document :=
  let first := (((Document.ofText text).setLexer d.lexer).lex 0 k 0).1
  (first.lex k (text.length - k) (first.buffer.styleAt (k - 1))).1

section Styled

variable {b : Buffer} {start n : Nat} {initial : UInt8}

theorem sound_styled (h : b.Sound) : (d.styled b start n initial).Sound :=
  h.apply (.setStyles _ _)

theorem text_styled : (d.styled b start n initial).text = b.text := by
  obtain ⟨styles, heq⟩ := b.exists_setStyles_eq
    (d.lex (.ofBuffer b start n) initial).window.start
    (d.lex (.ofBuffer b start n) initial).window.pending
  rw [styled, heq]

theorem isSome_styles_styled (h : b.styles.isSome = true) :
    (d.styled b start n initial).styles.isSome = true := by
  rcases Buffer.setStyles_eq_or b (d.lex (.ofBuffer b start n) initial).window.start
    (d.lex (.ofBuffer b start n) initial).window.pending with heq | heq
  · rw [styled, heq, h]
  · obtain ⟨styles, -, -, heq⟩ := Buffer.setStyles?_eq_some heq
    rw [styled, heq]
    rfl

/-- The styles of the window stand in the buffer. -/
theorem styleAt_styled (h : b.Sound) (hkept : b.styles.isSome = true) {q : Nat} {code : UInt8}
    (hq : (d.lex (.ofBuffer b start n) initial).window.committed? q = some code) :
    (d.styled b start n initial).styleAt q = code := by
  obtain ⟨styles, hs⟩ := Option.isSome_iff_exists.1 hkept
  obtain ⟨-, hstop, -, hboundary, -⟩ := d.lex_covers b start n initial
  refine styleAt_of_committed? hs ?_ hq
  rw [hboundary, hstop, h.aligned styles hs]
  exact Window.stop_ofBuffer_le

end Styled

/-- **The word that the second window begins anew ends as that of the whole text.** -/
theorem committed?_second {t : Scan} (hwithin : u.Within style a) (hpos : a < u.cursor.pos)
    (hword : u.SameWord t) {r : Scan} (hr : Scan.Visits d u r) (hin : r.Within style a) {q : Nat}
    (haq : a ≤ q) (hq : q < r.wordEnd d) :
    ∃ code, (u.complete d).cursor.window.committed? q = some code ∧
      (t.complete d).cursor.window.committed? q = some code := by
  have hboundary := hwithin.boundary_eq
  obtain ⟨e, ⟨code, hcode⟩, hvisits⟩ := hword.committed?_complete (d := d) (by omega)
  have hle := hvisits r hr (hin.boundary_eq.trans hboundary.symm)
  exact ⟨code, hcode q (by omega) (by omega)⟩

/-- **A window that opens within a word styles the whole word as one.**  In the scan of the
    whole text, a word or a keyword of a comment stands from `a` to `e`.  The text is
    lexed up to a place `k` within it, and then from `k` on in the style that the first
    window has left there.  If going back from `k` leads to `a`, the word has the styles
    then that it has in the whole text. -/
theorem lex_split (d : Dialect) (text : Text) {style : Style} {a k e : Nat}
    (hspans : d.Spans text style a e) (hk : a < k) (hke : k < e)
    (hback : LeadsBack d.settings text style a k) :
    ∀ q, a ≤ q → q < e → (d.lexer.lexText text 0 text.length 0)[q]? =
      some ((d.lexedInTwo text k).buffer.styleAt q) := by
  intro q haq hqe
  obtain ⟨p, hin, hend⟩ := hspans
  have hl : style.isLookedUp = true :=
    Scan.isLookedUp_of_goesOn (hback.goesOn k (Nat.le_refl k) hk)
  have hwhole := Scan.covers_ofWindow (w := .ofBuffer (.ofText text) 0 text.length) rfl
    (Nat.zero_le _) .plain
  have hreaching : Scan.Visits d (Scan.ofWindow (.ofBuffer (.ofText text) 0 text.length) .plain)
      (d.reaching text p) := by
    rw [reaching_eq]
    exact Scan.Visits.of_runTo d p _
  have hlen : e ≤ text.length := by
    have hstop := Scan.wordEnd_le_stop (d := d) (hreaching.reaches.covers hwhole).pos_le
    rw [hreaching.reaches.stop_eq] at hstop
    exact Nat.le_trans hend (Nat.le_trans hstop (Nat.le_of_eq (stop_whole text)))
  -- The step that has begun the word.
  obtain ⟨u, hu, inside, hbegins, hrest⟩ := hreaching.begins_of_within
    (Scan.Tidy.ofWindow _ _) hwhole hl
    (fun h => by rw [← h.style_eq] at hl; exact nomatch hl) hin
  obtain ⟨hwithin, hpos, -⟩ := hbegins.step (hu.reaches.sees (sees_ofWindow _ _))
    (hu.reaches.covers hwhole) inside
  obtain ⟨hlast, hcomment⟩ := committed?_first hu hbegins hk (by omega) hback.goesOn
  -- The first window leaves the style of an open word before `k`.
  have hloaded : (Buffer.ofText text).Sound := Buffer.sound_empty.load text
  obtain ⟨b, hb⟩ : ∃ b, d.styled (.ofText text) 0 k 0 = b := ⟨_, rfl⟩
  have hsound : b.Sound := hb ▸ sound_styled hloaded
  have hkept : b.styles.isSome = true := hb ▸ isSome_styles_styled rfl
  have hput {q : Nat} {code : UInt8}
      (hq : (d.lex (.ofBuffer (.ofText text) 0 k) 0).window.committed? q = some code) :
      b.styleAt q = code := hb ▸ styleAt_styled hloaded rfl hq
  -- The second window begins the word anew.
  obtain ⟨inside', hword⟩ := sameWord_second hsound.toConsistent (hb ▸ text_styled) hu
    inside hbegins hk (by omega) hback fun h => ⟨(hcomment h).1, hput (hcomment h).2⟩
  obtain ⟨code, hcode, hcode'⟩ := committed?_second hwithin (by omega) hword hrest hin haq
    (Nat.lt_of_lt_of_le hqe hend)
  rw [← Scan.complete_step inside, hu.complete_eq, ← opening_zero, ← lex_window,
    ← getElem?_lexText] at hcode
  rw [← Scan.complete_step inside', ← lex_window] at hcode'
  have hsecond : (d.lexedInTwo text k).buffer =
      d.styled b k (text.length - k) style.code := by
    have hfirst : (((Document.ofText text).setLexer d.lexer).lex 0 k 0).1.buffer = b :=
      (buffer_lex rfl 0 k 0).trans hb
    rw [← hput hlast, ← hfirst]
    exact buffer_lex rfl _ _ _
  rw [hcode, hsecond, styleAt_styled hsound hkept hcode']

section Examples

open Document (oneWord)

/-- A line that ends with a keyword. -/
def keywordLast : Text := .ofString "x = int"

/-- The first window has not seen the end of the keyword. -/
theorem lex_split_keywordLast :
    oneWord.Spans keywordLast .identifier 4 7 ∧ 4 < 6 ∧ 6 < 7 ∧
      LeadsBack oneWord.settings keywordLast .identifier 4 6 ∧
      oneWord.lexer.lexText keywordLast 0 6 0 = #[11, 0, 10, 0, 11, 11] ∧
      ∀ q, 4 ≤ q → q < 7 → (oneWord.lexedInTwo keywordLast 6).buffer.styleAt q = 5 := by
  have hspans : oneWord.Spans keywordLast .identifier 4 7 :=
    ⟨7, ⟨by decide +kernel, by decide +kernel⟩, by decide +kernel⟩
  have hback : LeadsBack oneWord.settings keywordLast .identifier 4 6 :=
    ⟨by decide, by decide, by decide⟩
  have hwhole : oneWord.lexer.lexText keywordLast 0 keywordLast.length 0 =
      #[11, 0, 10, 0, 5, 5, 5] := by decide +kernel
  have hstyles : ∀ q, 4 ≤ q → q < 7 →
      (#[11, 0, 10, 0, 5, 5, 5] : Array UInt8)[q]? = some 5 := by decide
  refine ⟨hspans, by decide, by decide, hback, by decide +kernel, fun q hq hlt => ?_⟩
  have hsplit := lex_split oneWord keywordLast hspans (by decide) (by decide) hback q hq hlt
  rw [hwhole, hstyles q hq hlt] at hsplit
  exact (Option.some.inj hsplit).symm

/-- A keyword with a mark before it, which makes it a name. -/
def markedWord : Text := .ofString "@int"

/-- **Right behind the mark of a word, going back does not lead to its beginning**: the
    word is styled without its mark then, as a keyword. -/
theorem lex_split_markedWord :
    oneWord.Spans markedWord .identifier 0 4 ∧ 0 < 1 ∧ 1 < 4 ∧
      oneWord.lexer.lexText markedWord 0 markedWord.length 0 = #[11, 11, 11, 11] ∧
      (oneWord.lexedInTwo markedWord 1).buffer.styles = some #[11, 5, 5, 5] :=
  ⟨⟨4, ⟨by decide +kernel, by decide +kernel⟩, by decide +kernel⟩, by decide, by decide,
    by decide +kernel, by decide +kernel⟩

-- Nor does it lead there over a line end within the word, ...
example :
    let text : Text := .ofString "a\\\nint"
    oneWord.Spans text .identifier 0 6 ∧
      oneWord.lexer.lexText text 0 6 0 = #[11, 11, 11, 11, 11, 11] ∧
      (oneWord.lexedInTwo text 5).buffer.styles = some #[11, 11, 11, 5, 5, 5] :=
  ⟨⟨6, ⟨by decide +kernel, by decide +kernel⟩, by decide +kernel⟩, by decide +kernel,
    by decide +kernel⟩

-- ... and beyond the letters behind a regular expression it leads too far.
example :
    let text : Text := .ofString "=/x/gInt"
    oneWord.Spans text .identifier 5 8 ∧
      oneWord.lexer.lexText text 0 8 0 = #[10, 14, 14, 14, 14, 11, 11, 11] ∧
      (oneWord.lexedInTwo text 6).buffer.styles = some #[10, 14, 14, 14, 11, 11, 11, 11] :=
  ⟨⟨8, ⟨by decide +kernel, by decide +kernel⟩, by decide +kernel⟩, by decide +kernel,
    by decide +kernel⟩

end Examples

end Dialect

end CFamily

end StyledText
