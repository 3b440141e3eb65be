/-
  String and character literals and where they end.

  A literal is read from its quote on: a backslash takes the next character away, and the
  quote closes the literal.  It goes over a line end only behind a backslash.  Any
  other line end cuts it off, and then the part of it on that line turns out to be
  unclosed, but not the parts on the lines before, whose runs have been closed at the
  starts of the lines.

  * `Text.literalEnd`: where a literal ends, read off the text alone, and
    `LiteralEnd.Shows`: in which styles it is then;
  * `InLiteral`: a scan in a literal, with the run of its last line open;
    `InLiteral.beginLine` and `InLiteral.step` say what keeps it so;
  * `InLiteral.shows`: from any place in the literal, reading on leads to its end;
  * `Dialect.lexText_literal`: a literal is in the styles that its end asks for.
-/
import StyledText.Proofs.Lasting

namespace StyledText

/-! ## Where a literal ends -/

namespace CFamily

/-- The character that closes a literal. -/
def Literal.close : Literal → Char
  | string close => close
  | character => '\''

/-- Where a literal ends. -/
inductive LiteralEnd where
  /-- With the character at `i` that closes it. -/
  | closed (i : Nat)
  /-- With its line, which ends at `i`. -/
  | cut (i : Nat)
  /-- With the text. -/
  | openEnded
deriving DecidableEq

end CFamily

namespace Text

variable {t : Text} {i k x : Nat}

/-- The position behind the line end at `i`. -/
def behindBreak (t : Text) (i : Nat) : Nat :=
  if t.charAt i = '\r' ∧ t.charAt (i + 1) = '\n' then i + 2 else i + 1

theorem lt_behindJoin (t : Text) (k : Nat) : k < t.behindJoin k := by
  rcases t.behindJoin_cases k with ⟨hp, -⟩ | ⟨hp, -⟩ <;> omega

/-- Where a literal that `close` closes ends, read from `i` on.  A line that is joined to the
    next one goes on there, any other line end cuts the literal off, and a backslash
    takes the next character away. -/
def literalEnd (t : Text) (close : Char) (i : Nat) : CFamily.LiteralEnd :=
  if i < t.length then
    if t.JoinsAt i then literalEnd t close (t.behindJoin i)
    else if isLineBreak (t.charAt i) then .cut i
    else if t.charAt i = '\\' then literalEnd t close (i + 2)
    else if t.charAt i = close then .closed i
    else literalEnd t close (i + 1)
  else .openEnded
termination_by t.length - i
decreasing_by
  all_goals
    have := t.lt_behindJoin i
    omega

/-- No line starts behind another character than a line end. -/
theorem isLineStart_succ_of_not_isLineBreak (h : isLineBreak (t.charAt k) = false) :
    t.isLineStart (k + 1) = false := by
  rw [← Bool.not_eq_true]
  intro hstart
  have hb := isLineBreak_before hstart
  rw [Nat.add_sub_cancel, h] at hb
  exact nomatch hb

/-- A line end is followed by the start of a line, and there is none within it. -/
theorem behindBreak_cases (h : isLineBreak (t.charAt k) = true) :
    (t.behindBreak k = k + 1 ∧ t.isLineStart (k + 1) = true) ∨
      (t.behindBreak k = k + 2 ∧ t.isLineStart (k + 1) = false ∧
        t.charAt k = '\r' ∧ t.charAt (k + 1) = '\n') := by
  unfold behindBreak
  split
  · rename_i hpair
    refine .inr ⟨rfl, ?_, hpair⟩
    simp [isLineStart, hpair]
  · rename_i hsingle
    refine .inl ⟨rfl, ?_⟩
    rw [isLineBreak_iff] at h
    simp only [isLineStart, Nat.add_sub_cancel]
    rcases h with h | h
    · simp [h]
    · simp [h, not_and.1 hsingle h]

/-- Behind its backslash a joined line end is nothing but a line end. -/
theorem JoinsAt.isLineBreak_of_lt (h : t.JoinsAt k) (hk : k < x) (hx : x < t.behindJoin k) :
    isLineBreak (t.charAt x) = true := by
  rcases t.behindJoin_cases k with ⟨hp, -, hlf⟩ | ⟨hp, -⟩
  · rcases Nat.lt_or_eq_of_le (show x ≤ k + 2 by omega) with hlt | rfl
    · rw [show x = k + 1 by omega]
      exact h.2
    · rw [hlf]
      rfl
  · rw [show x = k + 1 by omega]
    exact h.2

/-- Within a joined line end no line starts. -/
theorem JoinsAt.isLineStart_eq (h : t.JoinsAt k) (hk : k < x) (hx : x < t.behindJoin k) :
    t.isLineStart x = false := by
  have hjoin : t.behindJoin k = t.behindBreak (k + 1) := rfl
  rcases Nat.eq_or_lt_of_le hk with rfl | hlt
  · exact isLineStart_succ_of_not_isLineBreak (by rw [h.1]; rfl)
  · rcases behindBreak_cases h.2 with ⟨hp, -⟩ | ⟨hp, hstart, -⟩
    · omega
    · rwa [show x = k + 1 + 1 by omega]

end Text

namespace CFamily

open Scan (whole)

/-- **What `styles` are of a literal of `t` in `style`, which begins at `p` and ends so.**
    Where it is cut off, its last line is unclosed, but no line before. -/
def LiteralEnd.Shows (t : Text) (style : Style) (p : Nat) (styles : Array UInt8) :
    LiteralEnd → Prop
  | closed i => ∀ q, p ≤ q → q ≤ i → styles[q]? = some style.code
  | cut i =>
    (∀ q x, p ≤ q → q < x → x ≤ i → t.isLineStart x = true → styles[q]? = some style.code) ∧
      ∀ q, p ≤ q → q < t.behindBreak i → (∀ x, q < x → x ≤ i → t.isLineStart x = false) →
        styles[q]? = some Style.unclosed.code
  | openEnded => ∀ q, p ≤ q → q < t.length → styles[q]? = some style.code

/-- The literal is closed by a double or by a single quote. -/
def Literal.IsQuoted (l : Literal) : Prop := l = .string '"' ∨ l = .character

theorem Literal.IsQuoted.close_cases {l : Literal} (h : l.IsQuoted) :
    l.close = '"' ∨ l.close = '\'' := by
  rcases h with rfl | rfl
  · exact .inl rfl
  · exact .inr rfl

namespace Scan

variable {d : Dialect} {t : Text} {l : Literal} {s : Scan} {i p : Nat}

/-! ## What is remembered of a literal -/

theorem stringClose_beginLine : s.beginLine.memory.stringClose = s.memory.stringClose := by
  unfold beginLine
  split
  · dsimp only
    split <;> rfl
  · rfl

theorem stringClose_passChar : s.passChar.memory.stringClose = s.memory.stringClose := by
  unfold passChar
  dsimp only
  split <;> rfl

theorem stringClose_passContinuation :
    s.passContinuation.memory.stringClose = s.memory.stringClose := by
  unfold passContinuation
  dsimp only
  split <;> rfl

/-! ## Lines -/

/-- The cursor knows where a line ends. -/
theorem Reads.atLineEnd_eq_isLineStart (h : Reads t s)
    (inside : s.cursor.pos < s.cursor.window.stop) :
    s.cursor.atLineEnd = t.isLineStart (s.cursor.pos + 1) := by
  rw [h.sees.atLineEnd_eq inside, Bool.eq_iff_iff]
  simp only [Cursor.endsLine, Text.isLineStart, Nat.add_sub_cancel, Bool.or_eq_true,
    Bool.and_eq_true, beq_iff_eq, bne_iff_ne, decide_eq_true_eq, ne_eq,
    h.charOrSpace_eq_iff (show '\n' ≠ ' ' by decide) (by decide),
    h.charOrSpace_eq_iff (show '\r' ≠ ' ' by decide) (by decide)]
  rw [or_iff_left (Nat.not_le.2 inside), or_comm, and_iff_right (Nat.succ_pos _)]

theorem Through.atLineStart_eq_isLineStart (h : Through t s) (hpos : 0 < s.cursor.pos)
    (inside : s.cursor.pos < s.cursor.window.stop) :
    s.cursor.atLineStart = t.isLineStart s.cursor.pos := by
  have hlt : s.cursor.pos < t.length := h.stop_eq ▸ inside
  rw [h.looksBack.atLineStart_eq (by rwa [h.start_eq]) inside, h.stop_eq,
    h.charOrSpace_eq_charAt hlt, h.charOrSpace_eq_charAt (by omega),
    Cursor.endsLine_eq_isLineStart hpos hlt]

/-- Only the run of a literal is closed where a line starts. -/
theorem cursor_beginLine_of_literal (hs : s.style = .string ∨ s.style = .character) :
    s.beginLine.cursor =
      if s.cursor.atLineStart then s.cursor.switchTo s.style.code else s.cursor := by
  unfold beginLine
  dsimp only
  rw [if_pos hs]
  split <;> rfl

/-! ## Steps in a literal -/

/-- Whether a literal goes on is up to its closing character. -/
theorem leaving_of_literal (hs : s.style = l.style)
    (hc : ∀ close, l = .string close → s.memory.stringClose = close) :
    s.leaving d = leaveLiteral s.cursor.surroundings l.close := by
  cases l with
  | string close =>
    rw [leaving, hs, Literal.close, ← hc close rfl]
    rfl
  | character =>
    rw [leaving, hs]
    rfl

/-- **What a step in a literal does.** -/
theorem step_of_literal (hs : s.style = l.style)
    (hc : ∀ close, l = .string close → s.memory.stringClose = close)
    (hover : s.beginLine.atContinuation = false) : s.step d =
      if s.beginLine.cursor.atLineEnd = true then (s.beginLine.recolour .unclosed).passChar
      else if s.beginLine.cursor.ch = '\\' ∧ l.close ≠ '>' then s.beginLine.advance.passChar
      else if s.beginLine.cursor.ch = l.close then (s.beginLine.closeLiteral d).enterAndPass d
      else s.beginLine.passChar := by
  have hstyle : s.beginLine.style = l.style := style_beginLine.trans hs
  have hplain : s.beginLine.style ≠ .plain := by
    rw [hstyle]
    cases l <;> exact Style.noConfusion
  have hleaving : s.beginLine.leaving d = leaveLiteral s.beginLine.cursor.surroundings l.close :=
    leaving_of_literal hstyle fun close hl => stringClose_beginLine.trans (hc close hl)
  rw [step_of_not_atContinuation hover, leaveStyle, hleaving, leaveLiteral]
  simp only [Cursor.surroundings, Bool.and_eq_true, beq_iff_eq, bne_iff_ne]
  split_ifs
  · refine enterAndPass_of_none (entering?_of_style_ne ?_)
    rw [applyLeave, style_recolour]
    decide
  · refine enterAndPass_of_none (entering?_of_style_ne ?_)
    rw [applyLeave, style_advance]
    exact hplain
  · rfl
  · exact enterAndPass_of_none (entering?_of_style_ne hplain)

/-! ## Scans in a literal -/

/-- **The scan is in the literal `l` that has been opened at `p`.**  The run of its last
    line is open, and all before has the style of the literal. -/
structure InLiteral (t : Text) (l : Literal) (p : Nat) (s : Scan) : Prop where
  through : Through t s
  style_eq : s.style = l.style
  close_eq : ∀ close, l = .string close → s.memory.stringClose = close
  lt_pos : p < s.cursor.pos
  begun : s.cursor.window.boundary = p ∨
    p < s.cursor.window.boundary ∧ t.isLineStart s.cursor.window.boundary = true
  sameLine : ∀ x, s.cursor.window.boundary < x → x < s.cursor.pos → t.isLineStart x = false
  stretch : Stretch [l.style] p s.cursor

namespace InLiteral

theorem style_cases (h : s.InLiteral t l p) : s.style = .string ∨ s.style = .character := by
  have hstyle := h.style_eq
  cases l with
  | string close => exact .inl hstyle
  | character => exact .inr hstyle

/-- **Where a line starts, the run of the line before is closed.** -/
theorem beginLine (h : s.InLiteral t l p) (inside : s.cursor.pos < s.cursor.window.stop) :
    s.beginLine.InLiteral t l p ∧
      ∀ x, s.beginLine.cursor.window.boundary < x → x ≤ s.cursor.pos → t.isLineStart x = false := by
  have hpos : 0 < s.cursor.pos := Nat.zero_lt_of_lt h.lt_pos
  have hcursor := cursor_beginLine_of_literal h.style_cases
  rw [h.through.atLineStart_eq_isLineStart hpos inside] at hcursor
  have hmem : s.style ∈ [l.style] := List.mem_singleton.2 h.style_eq
  have hstyle : s.beginLine.style = l.style := style_beginLine.trans h.style_eq
  have hclose (close : Char) (hl : l = .string close) :
      s.beginLine.memory.stringClose = close := stringClose_beginLine.trans (h.close_eq close hl)
  cases hstart : t.isLineStart s.cursor.pos with
  | true =>
    rw [hstart, if_pos rfl] at hcursor
    have hboundary : s.beginLine.cursor.window.boundary = s.cursor.pos := by
      rw [hcursor]
      exact h.through.covers.boundary_switchTo s.style.code
    refine ⟨⟨h.through.beginLine, hstyle, hclose, ?_, ?_, ?_, ?_⟩, ?_⟩
    · rw [pos_beginLine]
      exact h.lt_pos
    · rw [hboundary]
      exact .inr ⟨h.lt_pos, hstart⟩
    · rw [hboundary, pos_beginLine]
      omega
    · rw [hcursor]
      exact h.stretch.switchTo hmem
    · rw [hboundary]
      omega
  | false =>
    rw [hstart, if_neg Bool.false_ne_true] at hcursor
    have hline : ∀ x, s.cursor.window.boundary < x → x ≤ s.cursor.pos →
        t.isLineStart x = false := by
      intro x hx hle
      rcases Nat.lt_or_eq_of_le hle with hlt | rfl
      · exact h.sameLine x hx hlt
      · exact hstart
    refine ⟨⟨h.through.beginLine, hstyle, hclose, ?_, ?_, ?_, ?_⟩, ?_⟩ <;> rw [hcursor]
    · exact h.lt_pos
    · exact h.begun
    · exact h.sameLine
    · exact h.stretch
    · exact hline

/-- **A step that ends nothing keeps the scan in the literal**, if it stops at the start of
    the next line at the latest. -/
theorem step (h : s.InLiteral t l p) (inside : s.cursor.pos < s.cursor.window.stop)
    (hw : (s.step d).cursor.window = s.beginLine.cursor.window) (hs : (s.step d).style = s.style)
    (hc : (s.step d).memory.stringClose = s.memory.stringClose)
    (hclear : ∀ x, s.cursor.pos < x → x < (s.step d).cursor.pos → t.isLineStart x = false) :
    (s.step d).InLiteral t l p := by
  obtain ⟨hbegin, hline⟩ := h.beginLine inside
  refine ⟨h.through.step inside, hs.trans h.style_eq, fun close hl => ?_, ?_, ?_, ?_, ?_⟩
  · exact hc.trans (h.close_eq close hl)
  · exact Nat.lt_trans h.lt_pos (pos_lt_step d inside)
  · rw [hw]
    exact hbegin.begun
  · intro x hx hlt
    rw [hw] at hx
    rcases Nat.lt_or_ge s.cursor.pos x with hbehind | hle
    · exact hclear x hbehind hlt
    · exact hline x hx hle
  · refine ⟨(h.through.step inside).covers, ?_, hw ▸ hbegin.stretch.allIn⟩
    exact List.mem_singleton.2 (hs.trans h.style_eq)

/-- A joined line end is passed together with its backslash. -/
theorem step_of_joinsAt (h : s.InLiteral t l p) (inside : s.cursor.pos < s.cursor.window.stop)
    (hjoin : t.JoinsAt s.cursor.pos) :
    (s.step d).InLiteral t l p ∧ (s.step d).cursor.pos = t.behindJoin s.cursor.pos := by
  have hstep := h.through.step_of_joinsAt (d := d) inside hjoin
  have hpos := h.through.pos_step_of_joinsAt (d := d) inside hjoin
  refine ⟨h.step inside ?_ ?_ ?_ fun x hx hlt => hjoin.isLineStart_eq hx (hpos ▸ hlt), hpos⟩
  · rw [hstep, cursor_passContinuation_window]
  · rw [hstep, style_passContinuation, style_beginLine]
  · rw [hstep, stringClose_passContinuation, stringClose_beginLine]

section Characters

variable (h : s.InLiteral t l p) (hl : l.IsQuoted) (inside : s.cursor.pos < s.cursor.window.stop)
  (hjoin : ¬ t.JoinsAt s.cursor.pos)

include h hl inside hjoin

/-- What a step in a literal does, read off the text. -/
theorem step_eq : s.step d =
    if t.isLineStart (s.cursor.pos + 1) = true then (s.beginLine.recolour .unclosed).passChar
    else if t.charAt s.cursor.pos = '\\' then s.beginLine.advance.passChar
    else if t.charAt s.cursor.pos = l.close then (s.beginLine.closeLiteral d).enterAndPass d
    else s.beginLine.passChar := by
  have hbegin := h.through.beginLine
  have inside' := inside_beginLine inside
  have hover := h.through.not_atContinuation inside hjoin
  have hmark := hbegin.ch_eq_iff inside' (show '\\' ≠ ' ' by decide) (by decide)
  have hquote : s.beginLine.cursor.ch = l.close ↔ t.charAt s.beginLine.cursor.pos = l.close := by
    rcases hl.close_cases with hc | hc <;> rw [hc] <;>
      exact hbegin.ch_eq_iff inside' (by decide) (by decide)
  have hangle : l.close ≠ '>' := by
    rcases hl.close_cases with hc | hc <;> rw [hc] <;> decide
  rw [pos_beginLine] at hmark hquote
  rw [step_of_literal h.style_eq h.close_eq hover, hbegin.atLineEnd_eq_isLineStart inside',
    pos_beginLine]
  simp only [hmark, hquote, hangle, ne_eq, not_false_eq_true, and_true]

/-- A backslash is passed with the character behind it, or alone at the end of the text. -/
theorem step_of_backslash (hmark : t.charAt s.cursor.pos = '\\') :
    (s.step d).InLiteral t l p ∧
      (s.step d).cursor.pos = min (s.cursor.pos + 2) t.length := by
  have hlt : s.cursor.pos < t.length := h.through.stop_eq ▸ inside
  have hend : t.isLineStart (s.cursor.pos + 1) = false :=
    Text.isLineStart_succ_of_not_isLineBreak (by rw [hmark]; rfl)
  have hstep : s.step d = s.beginLine.advance.passChar := by
    rw [h.step_eq hl inside hjoin, if_neg (Bool.eq_false_iff.1 hend), if_pos hmark]
  have hcursor : (s.step d).cursor = s.beginLine.cursor.advance.advance := by
    rw [hstep, cursor_passChar]
    rfl
  have hpos : (s.step d).cursor.pos = min (s.cursor.pos + 2) t.length := by
    rw [hcursor, Cursor.pos_advance, Cursor.pos_advance, Cursor.window_advance, pos_beginLine,
      h.through.beginLine.stop_eq, if_pos hlt]
    split <;> omega
  refine ⟨h.step inside ?_ ?_ ?_ fun x hx hbefore => ?_, hpos⟩
  · rw [hcursor, Cursor.window_advance, Cursor.window_advance]
  · rw [hstep, style_passChar, style_advance, style_beginLine]
  · rw [hstep, stringClose_passChar]
    exact stringClose_beginLine
  · rwa [show x = s.cursor.pos + 1 by omega]

/-- Any other character is passed alone. -/
theorem step_of_other (hend : t.isLineStart (s.cursor.pos + 1) = false)
    (hmark : t.charAt s.cursor.pos ≠ '\\') (hquote : t.charAt s.cursor.pos ≠ l.close) :
    (s.step d).InLiteral t l p ∧ (s.step d).cursor.pos = s.cursor.pos + 1 := by
  have hstep : s.step d = s.beginLine.passChar := by
    rw [h.step_eq hl inside hjoin, if_neg (Bool.eq_false_iff.1 hend), if_neg hmark, if_neg hquote]
  have hpos : (s.step d).cursor.pos = s.cursor.pos + 1 := by
    rw [hstep, cursor_passChar, Cursor.pos_advance, pos_beginLine, (reaches_beginLine s).stop_eq,
      if_pos inside]
  refine ⟨h.step inside ?_ ?_ ?_ fun x hx hbefore => by omega, hpos⟩
  · rw [hstep, cursor_passChar, Cursor.window_advance]
  · rw [hstep, style_passChar, style_beginLine]
  · rw [hstep, stringClose_passChar, stringClose_beginLine]

/-- The quote belongs to the literal that it closes. -/
theorem step_of_quote (hquote : t.charAt s.cursor.pos = l.close) :
    AllIn [l.style] p (s.cursor.pos + 1) (s.step d).cursor.window := by
  obtain ⟨hbegin, -⟩ := h.beginLine inside
  have hother : isLineBreak l.close = false ∧ l.close ≠ '\\' := by
    rcases hl.close_cases with hc | hc <;> rw [hc] <;> decide
  have hend : t.isLineStart (s.cursor.pos + 1) = false :=
    Text.isLineStart_succ_of_not_isLineBreak (by rw [hquote]; exact hother.1)
  have hstep : s.step d = (s.beginLine.closeLiteral d).enterAndPass d := by
    rw [h.step_eq hl inside hjoin, if_neg (Bool.eq_false_iff.1 hend),
      if_neg (by rw [hquote]; exact hother.2), if_pos hquote]
  have hpos : s.beginLine.cursor.advance.pos = s.cursor.pos + 1 := by
    rw [Cursor.pos_advance, pos_beginLine, (reaches_beginLine s).stop_eq, if_pos inside]
  have hclosed := hbegin.stretch.advance.close
    (if s.beginLine.memory.inDirective then .directive else .plain)
  rw [hpos, ← cursor_closeLiteral (d := d)] at hclosed
  rw [hstep]
  exact hclosed.mono (reaches_enterAndPass d _)

/-- A line end shows that its line is unclosed. -/
theorem step_of_lineEnd (hend : t.isLineStart (s.cursor.pos + 1) = true) :
    (s.step d).style = .unclosed ∧ (s.step d).cursor.pos = s.cursor.pos + 1 ∧
      (s.step d).cursor.window = s.beginLine.cursor.window := by
  have hstep : s.step d = (s.beginLine.recolour .unclosed).passChar := by
    rw [h.step_eq hl inside hjoin, if_pos hend]
  rw [hstep, style_passChar, style_recolour, cursor_passChar, Cursor.window_advance]
  refine ⟨rfl, ?_, rfl⟩
  show (s.beginLine.cursor.recolour Style.unclosed.code).advance.pos = _
  rw [Cursor.pos_advance, Cursor.pos_recolour, Cursor.stop_recolour, pos_beginLine,
    (reaches_beginLine s).stop_eq, if_pos inside]

end Characters

/-! ## Reading on -/

/-- **Where its line ends, the last line of a literal is unclosed**, and the lines before are
    not. -/
theorem shows_of_lineEnd (h : s.InLiteral t l p) (hl : l.IsQuoted) (hv : Visits d (whole t) s)
    (inside : s.cursor.pos < s.cursor.window.stop)
    (hend : t.isLineStart (s.cursor.pos + 1) = true) :
    (∀ q x, p ≤ q → q < x → x ≤ s.cursor.pos → t.isLineStart x = true →
      (d.lexer.lexText t 0 t.length 0)[q]? = some l.style.code) ∧
    ∀ q, p ≤ q → q ≤ s.cursor.pos →
      (∀ x, q < x → x ≤ s.cursor.pos → t.isLineStart x = false) →
        (d.lexer.lexText t 0 t.length 0)[q]? = some Style.unclosed.code := by
  have hbreak : isLineBreak (t.charAt s.cursor.pos) = true := Text.isLineBreak_before hend
  have hjoin : ¬ t.JoinsAt s.cursor.pos := by
    rintro ⟨hmark, -⟩
    rw [hmark] at hbreak
    exact nomatch hbreak
  obtain ⟨hbegin, hline⟩ := h.beginLine inside
  obtain ⟨hstyle, hpos, hwindow⟩ := h.step_of_lineEnd (d := d) hl inside hjoin hend
  have hstep : Visits d (whole t) (s.step d) := hv.step inside
  constructor
  · intro q x hq hqx hx hstart
    have hclosed : q < s.beginLine.cursor.window.boundary := by
      by_contra hopen
      have hnone := hline x (by omega) hx
      rw [hstart] at hnone
      exact nomatch hnone
    refine hstep.getElem?_of_committed? ?_
    rw [hwindow]
    exact hbegin.stretch.allIn.committed?_eq hq hclosed
  · intro q hq hle hnone
    have hopen : s.beginLine.cursor.window.boundary ≤ q := by
      by_contra hclosed
      have hboundary := hbegin.through.covers.boundary_le
      rw [pos_beginLine] at hboundary
      rcases hbegin.begun with heq | ⟨-, hstart⟩
      · omega
      · have hnone := hnone _ (by omega) hboundary
        rw [hstart] at hnone
        exact nomatch hnone
    have hshown : (s.step d).cursor.shown q = Style.unclosed.code := by
      rw [Cursor.shown_of_boundary_le (hwindow ▸ hopen), ← hstyle]
      exact hstep.through.covers.code_ofCode.symm
    rw [hstep.getElem?_lexText, hstep.through.committed?_complete, hshown]
    · omega
    · rw [hshown]
      rfl

/-- A line end of two characters is passed up to the second one. -/
theorem shows_cut (h : s.InLiteral t l p) (hl : l.IsQuoted) (hv : Visits d (whole t) s)
    (inside : s.cursor.pos < s.cursor.window.stop) (hjoin : ¬ t.JoinsAt s.cursor.pos)
    (hbreak : isLineBreak (t.charAt s.cursor.pos) = true) :
    (LiteralEnd.cut s.cursor.pos).Shows t l.style p (d.lexer.lexText t 0 t.length 0) := by
  rcases Text.behindBreak_cases hbreak with ⟨hbehind, hend⟩ | ⟨hbehind, hend, hcr, hlf⟩
  · obtain ⟨hlines, hlast⟩ := h.shows_of_lineEnd hl hv inside hend
    exact ⟨hlines, fun q hq hqlt => hlast q hq (by omega)⟩
  · have hquote : t.charAt s.cursor.pos ≠ l.close := by
      rw [hcr]
      rcases hl.close_cases with hc | hc <;> rw [hc] <;> decide
    have hmark : t.charAt s.cursor.pos ≠ '\\' := by
      rw [hcr]
      decide
    obtain ⟨hnext, hmoved⟩ := h.step_of_other (d := d) hl inside hjoin hend hmark hquote
    have inside' : (s.step d).cursor.pos < (s.step d).cursor.window.stop := by
      rw [hnext.through.stop_eq, hmoved]
      exact Through.lt_length_of_isLineBreak (by rw [hlf]; rfl)
    have hend' : t.isLineStart ((s.step d).cursor.pos + 1) = true := by
      rw [hmoved]
      simp [Text.isLineStart, hlf]
    obtain ⟨hlines, hlast⟩ := hnext.shows_of_lineEnd hl (hv.step inside) inside' hend'
    rw [hmoved] at hlines hlast
    refine ⟨fun q x hq hqx hx => hlines q x hq hqx (by omega), fun q hq hlt hnone => ?_⟩
    refine hlast q hq (by omega) fun x hqx hx => ?_
    rcases Nat.lt_or_eq_of_le hx with hlt' | rfl
    · exact hnone x hqx (Nat.le_of_lt_succ hlt')
    · exact hend

/-- **From any place in a literal, reading on leads to its end.** -/
theorem shows (h : s.InLiteral t l p) (hl : l.IsQuoted) (hv : Visits d (whole t) s)
    (hpos : s.cursor.pos = min i t.length) :
    (t.literalEnd l.close i).Shows t l.style p (d.lexer.lexText t 0 t.length 0) := by
  have hstop : s.cursor.window.stop = t.length := hv.through.stop_eq
  have hbefore : s.cursor.pos ≤ t.length := by omega
  -- The scan stops at each place that the reading comes to.
  fun_induction Text.literalEnd t l.close i generalizing s with
  | case1 i hlt hjoin ih =>
    obtain rfl : i = s.cursor.pos := by omega
    have inside : s.cursor.pos < s.cursor.window.stop := hstop ▸ hlt
    obtain ⟨hnext, hmoved⟩ := h.step_of_joinsAt (d := d) inside hjoin
    have hle : (s.step d).cursor.pos ≤ t.length :=
      hnext.through.stop_eq ▸ hnext.through.covers.pos_le
    exact ih hnext (hv.step inside) (by omega) hnext.through.stop_eq hle
  | case2 i hlt hjoin hbreak =>
    obtain rfl : i = s.cursor.pos := by omega
    have inside : s.cursor.pos < s.cursor.window.stop := hstop ▸ hlt
    exact h.shows_cut hl hv inside hjoin hbreak
  | case3 i hlt hjoin hbreak hmark ih =>
    obtain rfl : i = s.cursor.pos := by omega
    have inside : s.cursor.pos < s.cursor.window.stop := hstop ▸ hlt
    obtain ⟨hnext, hmoved⟩ := h.step_of_backslash (d := d) hl inside hjoin hmark
    exact ih hnext (hv.step inside) hmoved hnext.through.stop_eq (by omega)
  | case4 i hlt hjoin hbreak hmark hquote =>
    obtain rfl : i = s.cursor.pos := by omega
    have inside : s.cursor.pos < s.cursor.window.stop := hstop ▸ hlt
    have hclosed := h.step_of_quote (d := d) hl inside hjoin hquote
    exact fun q hq hle =>
      (hv.step inside).getElem?_of_committed? (hclosed.committed?_eq hq (Nat.lt_succ_of_le hle))
  | case5 i hlt hjoin hbreak hmark hquote ih =>
    obtain rfl : i = s.cursor.pos := by omega
    have inside : s.cursor.pos < s.cursor.window.stop := hstop ▸ hlt
    have hend : t.isLineStart (s.cursor.pos + 1) = false :=
      Text.isLineStart_succ_of_not_isLineBreak (Bool.not_eq_true _ ▸ hbreak)
    obtain ⟨hnext, hmoved⟩ := h.step_of_other (d := d) hl inside hjoin hend hmark hquote
    exact ih hnext (hv.step inside) (by omega) hnext.through.stop_eq (by omega)
  | case6 i hge =>
    have hpos : s.cursor.pos = t.length := by omega
    have outside : ¬ s.cursor.pos < s.cursor.window.stop := by omega
    have hall := h.stretch.close .plain
    have hword : s.style.isLookedUp = false := by
      rcases h.style_cases with hs | hs <;> rw [hs] <;> rfl
    intro q hq hlt
    rw [hv.getElem?_lexText, complete, run_of_outside outside,
      closeWord_of_not_isLookedUp hv.through.tidy.sane hword]
    exact hall.committed?_eq hq (hpos ▸ hlt)

end InLiteral

/-! ## Where literals begin -/

/-- **A scan of the whole of `t`, whose next step opens the literal `l` at `p`**, in the code
    or within a directive. -/
inductive OpensLiteral (d : Dialect) (t : Text) (l : Literal) (p : Nat) (s : Scan) : Prop where
  | inCode (h : s.Enters d t (.literal l) p)
  | inDirective (hv : Visits d (whole t) s) (inside : s.cursor.pos < s.cursor.window.stop)
      (hover : s.beginLine.atContinuation = false)
      (hhow : s.beginLine.leaving d = .openLiteral l) (hpos : s.cursor.pos = p)

/-- A literal that is opened is open from its quote on. -/
theorem Through.inLiteral (h : Through t s) (inside : s.cursor.pos < s.cursor.window.stop)
    {inDirective keepPlace : Bool}
    (hpassed : Through t (s.openLiteral l inDirective keepPlace).passChar) :
    (s.openLiteral l inDirective keepPlace).passChar.InLiteral t l s.cursor.pos ∧
      (s.openLiteral l inDirective keepPlace).passChar.cursor.pos = s.cursor.pos + 1 := by
  have hcursor : (s.openLiteral l inDirective keepPlace).passChar.cursor =
      (s.cursor.switchTo l.style.code).advance := cursor_passChar _
  have hboundary : (s.cursor.switchTo l.style.code).advance.window.boundary = s.cursor.pos := by
    rw [Cursor.window_advance]
    exact h.covers.boundary_switchTo l.style.code
  have hpos : (s.cursor.switchTo l.style.code).advance.pos = s.cursor.pos + 1 := by
    rw [Cursor.pos_advance, Cursor.pos_switchTo, Cursor.stop_switchTo, if_pos inside]
  refine ⟨⟨hpassed, style_passChar.trans style_switchTo, fun close hl => ?_, ?_, ?_, ?_, ?_⟩, ?_⟩
  · rw [stringClose_passChar, hl]
    rfl
  · rw [hcursor, hpos]
    exact Nat.lt_succ_self _
  · rw [hcursor]
    exact .inl hboundary
  · rw [hcursor, hboundary, hpos]
    omega
  · rw [hcursor]
    refine .of_boundary (h.covers.switchTo l.style).advance ?_ hboundary
    exact List.mem_singleton.2 (by rw [Cursor.state_advance]; exact Style.ofCode_code l.style)
  · rw [hcursor, hpos]

/-- **The step that opens a literal passes its quote.** -/
theorem OpensLiteral.inLiteral (h : s.OpensLiteral d t l p) : Visits d (whole t) (s.step d) ∧
    (s.step d).InLiteral t l p ∧ (s.step d).cursor.pos = p + 1 := by
  cases h with
  | inCode h =>
    have hv : Visits d (whole t) (s.step d) := h.visits.step h.inside
    obtain ⟨keepPlace, hopen⟩ : ∃ keepPlace,
        (s.beginLine.leaveStyle d).applyEnter (.literal l) =
          (s.beginLine.leaveStyle d).openLiteral l false keepPlace := by
      cases l with
      | string close => exact ⟨true, rfl⟩
      | character => exact ⟨false, rfl⟩
    have hstep := h.step_eq Enter.noConfusion
    rw [hopen] at hstep
    have hin := h.through_left.inLiteral (pos_lt_of_entering? h.entering?_eq)
      (hstep ▸ hv.through)
    rw [← hstep, h.pos_eq] at hin
    exact ⟨hv, hin⟩
  | inDirective hvisits inside hover hhow hpos =>
    have hv : Visits d (whole t) (s.step d) := hvisits.step inside
    have hstep : s.step d = (s.beginLine.openLiteral l true true).passChar := by
      rw [step_of_not_atContinuation hover, leaveStyle, hhow]
      refine enterAndPass_of_none (entering?_of_style_ne ?_)
      rw [style_applyLeave]
      cases l <;> exact Style.noConfusion
    have inside' := inside_beginLine inside
    have hin := hvisits.through.beginLine.inLiteral inside' (hstep ▸ hv.through)
    rw [← hstep, pos_beginLine, hpos] at hin
    exact ⟨hv, hin⟩

end Scan

namespace Dialect

/-- **A literal ends where reading on from its quote leads to.**  Let a scan of the whole
    text open a literal at `p` that a double or single quote closes, in the code or in a
    directive.  If reading on from `p + 1` leads to its closing quote, or to the end of
    the text, all of it has its style.  If it leads to a line end, the part on the last
    line, with the line end, is unclosed, and the parts on the lines before have the style of
    the literal. -/
theorem lexText_literal (d : Dialect) (t : Text) {s : Scan} {l : Literal} {p : Nat}
    (h : s.OpensLiteral d t l p) (hl : l.IsQuoted) :
    (t.literalEnd l.close (p + 1)).Shows t l.style p (d.lexer.lexText t 0 t.length 0) := by
  obtain ⟨hv, hin, hpos⟩ := h.inLiteral
  have hle : (s.step d).cursor.pos ≤ t.length :=
    hin.through.stop_eq ▸ hin.through.covers.pos_le
  exact hin.shows hl hv (by omega)

section Examples

/-- A string that goes over one line end and is cut off by the next one. -/
def continuedString : Text := .ofString "\"a\\\r\nb\n;"

theorem lexText_literal_continuedString :
    (Scan.whole continuedString).OpensLiteral standard continuedString (.string '"') 0 ∧
      continuedString.literalEnd '"' 1 = .cut 6 ∧
      (∀ q, q < 5 → (standard.lexer.lexText continuedString 0 continuedString.length 0)[q]? =
        some Style.string.code) ∧
      ∀ q, 5 ≤ q → q < 7 →
        (standard.lexer.lexText continuedString 0 continuedString.length 0)[q]? =
          some Style.unclosed.code := by
  have hopens :
      (Scan.whole continuedString).OpensLiteral standard continuedString (.string '"') 0 :=
    .inCode ⟨.refl, by decide +kernel, by decide +kernel, by decide +kernel, by decide +kernel⟩
  have hend : continuedString.literalEnd '"' 1 = .cut 6 := by decide +kernel
  have hshows := lexText_literal standard continuedString hopens (.inl rfl)
  rw [show (Literal.string '"').close = '"' from rfl, hend] at hshows
  obtain ⟨hlines, hlast⟩ := hshows
  refine ⟨hopens, hend, fun q hq => ?_, fun q hq hlt => ?_⟩
  · exact hlines q 5 (Nat.zero_le q) hq (by decide) (by decide)
  · refine hlast q (Nat.zero_le q) hlt fun x hqx hx => ?_
    obtain rfl : x = 6 := by omega
    decide

-- Within a directive a literal opens without being asked for what begins.
example :
    let text : Text := .ofString "#a 'b'"
    ((Scan.whole text).runTo standard 3).OpensLiteral standard text .character 3 :=
  .inDirective (.of_runTo standard 3 _) (by decide +kernel) (by decide +kernel)
    (by decide +kernel) (by decide +kernel)

end Examples

end Dialect

end CFamily

end StyledText
