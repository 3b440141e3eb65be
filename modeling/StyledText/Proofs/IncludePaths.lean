/-
  The include paths that a lexer meets.

  The path of an including line is a literal that the scan opens and closes there.  Where
  it has been opened is remembered until it is closed, over joined lines as well, and
  what is remembered may belong to a literal that has been cut off.  But each literal
  that opens sets it anew, so that what a literal closes with is where it began itself.

  * `Text.closing?`: where reading on from the opening character leads to the closing one;
  * `IsPath`: a literal from its opening character to its closing one;
  * `InPath`: a scan in a literal whose place it has kept, and `InPath.goesOn`, what a
    step in it preserves;
  * `KeepsPaths` and `KeepsPaths.step`: the paths met follow one another, and all of them
    are paths, by cases on what the step does;
  * `step_forget`: a scan that does not track paths takes the same steps, so that
    `Dialect.lex_untracked` gives the same styles;
  * `Dialect.lex_includes`: the paths of a window.
-/
import StyledText.Proofs.Passing
import StyledText.Proofs.QuotedLiterals

namespace StyledText

namespace Text

variable {t : Text} {close : Char} {i k : Nat}

/-- **Where `close` closes a literal, read from `i` on.**  A line that is joined to the next
    one goes on there, and at any other line end the literal is not closed.  A backslash
    takes the next character away, but not between angle brackets. -/
def closing? (t : Text) (close : Char) (i : Nat) : Option Nat :=
  if i < t.length then
    if t.JoinsAt i then closing? t close (t.behindJoin i)
    else if isLineBreak (t.charAt i) then none
    else if t.charAt i = '\\' ∧ close ≠ '>' then closing? t close (i + 2)
    else if t.charAt i = close then some i
    else closing? t close (i + 1)
  else none
termination_by t.length - i
decreasing_by
  all_goals
    have := t.lt_behindJoin i
    omega

/-- Of a quoted literal this is the end that `literalEnd` finds. -/
theorem closing?_eq_some_iff (hc : close ≠ '>') :
    t.closing? close i = some k ↔ t.literalEnd close i = .closed k := by
  fun_induction literalEnd t close i with
  | case1 i inside hjoin ih => rw [closing?, if_pos inside, if_pos hjoin, ih]
  | case2 i inside hjoin hb => simp [closing?, inside, hjoin, hb]
  | case3 i inside hjoin hb hmark ih =>
    rw [closing?, if_pos inside, if_neg hjoin, if_neg hb, if_pos ⟨hmark, hc⟩, ih]
  | case4 i inside hjoin hb hmark hch =>
    rw [closing?, if_pos inside, if_neg hjoin, if_neg hb, if_neg (fun h => hmark h.1), if_pos hch]
    simp
  | case5 i inside hjoin hb hmark hch ih =>
    rw [closing?, if_pos inside, if_neg hjoin, if_neg hb, if_neg (fun h => hmark h.1),
      if_neg hch, ih]
  | case6 i outside => simp [closing?, outside]

theorem closing?_of_joinsAt (h : t.JoinsAt i) :
    t.closing? close i = t.closing? close (t.behindJoin i) := by
  have hlt : i < t.length := by
    have := CFamily.Scan.Through.lt_length_of_isLineBreak h.2
    omega
  rw [closing?, if_pos hlt, if_pos h]

/-- A backslash is read together with the character that it takes away. -/
theorem closing?_of_backslash (hjoin : ¬ t.JoinsAt i) (hmark : t.charAt i = '\\')
    (hc : close ≠ '>') : t.closing? close i = t.closing? close (i + 2) := by
  have hlt : i < t.length := by
    by_contra hge
    rw [charAt_of_length_le (Nat.le_of_not_lt hge)] at hmark
    cases hmark
  have hb : ¬ isLineBreak (t.charAt i) = true := by
    rw [hmark]
    decide
  rw [closing?, if_pos hlt, if_neg hjoin, if_neg hb, if_pos ⟨hmark, hc⟩]

theorem closing?_of_close (hb : isLineBreak close = false) (hmark : close ≠ '\\')
    (hn : close ≠ nul) (hch : t.charAt i = close) : t.closing? close i = some i := by
  have hlt : i < t.length := by
    by_contra hge
    rw [charAt_of_length_le (Nat.le_of_not_lt hge)] at hch
    exact hn hch.symm
  have hbackslash : t.charAt i ≠ '\\' := hch ▸ hmark
  have hline : ¬ isLineBreak (t.charAt i) = true := by
    rw [hch, hb]
    exact Bool.false_ne_true
  rw [closing?, if_pos hlt, if_neg (fun h => hbackslash h.1), if_neg hline,
    if_neg (fun h => hbackslash h.1), if_pos hch]

/-- Any other character is read over, if the line does not end behind it. -/
theorem closing?_of_other (hjoin : ¬ t.JoinsAt i) (hend : t.isLineStart (i + 1) = false)
    (hmark : ¬ (t.charAt i = '\\' ∧ close ≠ '>')) (hch : t.charAt i ≠ close) :
    t.closing? close i = t.closing? close (i + 1) := by
  rcases Nat.lt_or_ge i t.length with hlt | hge
  · by_cases hb : isLineBreak (t.charAt i) = true
    · -- The first character of a pair, whose second one ends the line.
      rcases behindBreak_cases hb with ⟨-, hstart⟩ | ⟨-, -, -, hlf⟩
      · rw [hend] at hstart
        cases hstart
      · have hlt' : i + 1 < t.length :=
          CFamily.Scan.Through.lt_length_of_isLineBreak (by rw [hlf]; rfl)
        have hjoin' : ¬ t.JoinsAt (i + 1) := by
          rintro ⟨hbackslash, -⟩
          rw [hlf] at hbackslash
          cases hbackslash
        rw [closing?, if_pos hlt, if_neg hjoin, if_pos hb, closing?, if_pos hlt', if_neg hjoin',
          if_pos (by rw [hlf]; rfl)]
    · rw [closing?, if_pos hlt, if_neg hjoin, if_neg hb, if_neg hmark, if_neg hch]
  · rw [closing?, if_neg (Nat.not_lt.2 hge), closing?, if_neg (by omega)]

end Text

namespace CFamily

variable {d : Dialect} {t : Text} {l : Literal}

/-- The styles of literals that are open. -/
def Style.isLiteral : Style → Bool
  | string | character => true
  | _ => false

theorem Style.isLiteral_iff {style : Style} :
    style.isLiteral = true ↔ style = .string ∨ style = .character := by
  cases style <;> simp [isLiteral]

theorem Literal.isLiteral_style (l : Literal) : l.style.isLiteral = true := by
  cases l <;> rfl

/-- The literal is closed by a quote or by an angle bracket. -/
theorem Literal.OpensWith.close_cases {c : Char} (h : l.OpensWith c) :
    l.close = '"' ∨ l.close = '>' ∨ l.close = '\'' := by
  cases l with
  | string close =>
    rcases h with ⟨-, rfl⟩ | ⟨-, rfl⟩
    · exact .inl rfl
    · exact .inr (.inl rfl)
  | character => exact .inr (.inr rfl)

/-- A literal begins with the character that opens it. -/
theorem Enter.Meets.opensWith {here : Surroundings} {memory : Memory}
    (h : (Enter.literal l).Meets here memory) : l.OpensWith here.ch := by
  cases l with
  | string close => exact h.imp_right And.left
  | character => exact h

theorem Enter.isLiteral_eq_false {what : Enter} (h : ∀ l, what ≠ .literal l) :
    what.style.isLiteral = false := by
  cases what with
  | literal l => exact absurd rfl (h l)
  | blockComment doc | lineComment doc => cases doc <;> rfl
  | _ => rfl

/-- **The span is a literal of `t`, from its opening character to its closing one**, and
    nothing in the window is committed there but in its style. -/
structure IsPath (t : Text) (w : Window) (l : Literal) (span : Span) : Prop where
  opens : l.OpensWith (t.charAt span.start)
  two_le : span.start + 2 ≤ span.stop
  closes : t.charAt (span.stop - 1) = l.close
  closing?_eq : t.closing? l.close (span.start + 1) = some (span.stop - 1)
  allIn : Scan.AllIn [l.style] span.start span.stop w

theorem IsPath.reaches {c c' : Cursor} {span : Span} (h : IsPath t c.window l span)
    (hr : Scan.Reaches c c') : IsPath t c'.window l span :=
  { h with allIn := h.allIn.mono hr }

/-- A path in quotes ends where any literal in these quotes does. -/
theorem IsPath.literalEnd_eq {w : Window} {span : Span} (h : IsPath t w l span)
    (hc : l.close ≠ '>') : t.literalEnd l.close (span.start + 1) = .closed (span.stop - 1) :=
  (Text.closing?_eq_some_iff hc).1 h.closing?_eq

namespace Scan

variable {s u : Scan} {a : Nat}

/-! ## What is remembered of include paths -/

/-- What a scan remembers of include paths: where the open one began, and the ones met. -/
def paths (s : Scan) : Option Nat × List Span := (s.literalStart, s.includes)

theorem paths_beginLine : s.beginLine.paths = s.paths := by
  unfold beginLine
  split
  · dsimp only
    split <;> rfl
  · rfl

theorem paths_passContinuation : s.passContinuation.paths = s.paths := by
  unfold passContinuation
  dsimp only
  split <;> rfl

theorem paths_passChar : s.passChar.paths = s.paths := by
  unfold passChar
  dsimp only
  split <;> rfl

/-- Nothing but a literal that opens or closes changes what is remembered of paths. -/
theorem paths_applyLeave {style : Style} {how : Leave} (hopen : ∀ l, how ≠ .openLiteral l)
    (hclose : how ≠ .closeLiteral) : (s.applyLeave d style how).paths = s.paths := by
  cases how with
  | endWord =>
    rw [applyLeave, endWord]
    split <;> split <;> rfl
  | closeDocKeyword =>
    rw [applyLeave, closeDocKeyword]
    split <;> rfl
  | openLiteral l => exact absurd rfl (hopen l)
  | closeLiteral => exact absurd rfl hclose
  | _ => rfl

theorem paths_openDirective : s.openDirective.paths = s.paths := by
  rw [openDirective_eq]
  split
  · rfl
  · split <;> rfl

theorem paths_applyEnter {what : Enter} (hw : ∀ l, what ≠ .literal l) :
    (s.applyEnter what).paths = s.paths := by
  cases what with
  | literal l => exact absurd rfl (hw l)
  | directive => exact paths_openDirective
  | _ => rfl

/-- A literal that is closed may be a path. -/
theorem includes_closeLiteral : (s.closeLiteral d).includes = s.includes ∨
    ∃ a, s.literalStart = some a ∧
      (s.closeLiteral d).includes = s.includes ++ [⟨a, (s.closeLiteral d).cursor.pos⟩] := by
  unfold closeLiteral
  dsimp only
  split
  · exact .inl rfl
  · rename_i a ha
    cases d.settings.trackIncludes with
    | true => exact .inr ⟨a, ha, rfl⟩
    | false => exact .inl rfl

theorem isLiteral_closeLiteral : (s.closeLiteral d).style.isLiteral = false := by
  rw [style, cursor_closeLiteral]
  split <;> rfl

/-- A style ends in that of a literal only if a directive gives way to one. -/
theorem isLiteral_leaveStyle (hm : s.memory.Sane) (hs : s.style.isLiteral = false)
    (hopens : ∀ l, s.leaving d ≠ .openLiteral l) : (s.leaveStyle d).style.isLiteral = false := by
  rcases style_leaveStyle_cases (d := d) hm with
    ⟨h, -⟩ | h | ⟨h, -⟩ | ⟨h, -⟩ | ⟨h, -⟩ | ⟨l, -, hhow⟩ | ⟨h, -⟩
  · rw [h, hs]
  · rw [h]
    rfl
  · rw [h]
    rfl
  · rw [h]
    rfl
  · rw [h]
    rcases hm.docStyle with hd | hd <;> rw [hd] <;> rfl
  · exact absurd hhow (hopens l)
  · rw [h]
    rfl

/-! ## Steps in a literal -/

theorem Reads.opensWith (hr : Reads t s) (inside : s.cursor.pos < s.cursor.window.stop)
    (hl : l.OpensWith s.cursor.ch) : l.OpensWith (t.charAt s.cursor.pos) := by
  cases l with
  | string close =>
    exact hl.imp (And.imp_left (hr.ch_eq_iff inside (by decide) (by decide)).1)
      (And.imp_left (hr.ch_eq_iff inside (by decide) (by decide)).1)
  | character => exact (hr.ch_eq_iff inside (by decide) (by decide)).1 hl

/-- **How a step acts on the literal `l`** that the scan is in. -/
inductive LiteralStep (d : Dialect) (t : Text) (l : Literal) (s : Scan) : Prop where
  /-- It goes on with the literal. -/
  | goesOn (hwindow : (s.step d).cursor.window = s.beginLine.cursor.window)
      (hstyle : (s.step d).style = s.style)
      (hclose : (s.step d).memory.stringClose = s.memory.stringClose)
      (hpaths : (s.step d).paths = s.paths)
      (hclosing : (s.step d).cursor.pos < (s.step d).cursor.window.stop →
        t.closing? l.close (s.step d).cursor.pos = t.closing? l.close s.cursor.pos)
  /-- It shows that the literal is not closed. -/
  | cut (hstyle : (s.step d).style = .unclosed) (hpaths : (s.step d).paths = s.paths)
  /-- It closes the literal, and passes one character more. -/
  | closed (hch : t.charAt s.cursor.pos = l.close)
      (hstep : s.step d = (s.beginLine.closeLiteral d).enterAndPass d)

/-- A step that passes a character of the literal, or one behind a backslash, goes on with
    the literal. -/
theorem LiteralStep.of_passChar (hu : u = s.beginLine ∨ u = s.beginLine.advance)
    (hstep : s.step d = u.passChar)
    (hclosing : (s.step d).cursor.pos < (s.step d).cursor.window.stop →
      t.closing? l.close (s.step d).cursor.pos = t.closing? l.close s.cursor.pos) :
    s.LiteralStep d t l := by
  have hwindow : u.cursor.window = s.beginLine.cursor.window := by
    rcases hu with rfl | rfl
    · rfl
    · exact Cursor.window_advance _
  have hstyle : u.style = s.beginLine.style := by
    rcases hu with rfl | rfl
    · rfl
    · exact style_advance
  have hmemory : u.memory = s.beginLine.memory := by
    rcases hu with rfl | rfl <;> rfl
  have hpaths : u.paths = s.beginLine.paths := by
    rcases hu with rfl | rfl <;> rfl
  refine .goesOn ?_ ?_ ?_ ?_ hclosing
  · rw [hstep, cursor_passChar, Cursor.window_advance, hwindow]
  · rw [hstep, style_passChar, hstyle, style_beginLine]
  · rw [hstep, stringClose_passChar, hmemory, stringClose_beginLine]
  · rw [hstep, paths_passChar, hpaths, paths_beginLine]

/-- A joined line end goes on with the literal. -/
theorem literalStep_of_joinsAt (hr : Reads t s) (inside : s.cursor.pos < s.cursor.window.stop)
    (hjoin : t.JoinsAt s.cursor.pos) : s.LiteralStep d t l := by
  have inside' := inside_beginLine inside
  have hstep := hr.step_of_joinsAt (d := d) inside hjoin
  refine .goesOn ?_ ?_ ?_ ?_ fun hin => ?_
  · rw [hstep, cursor_passContinuation_window]
  · rw [hstep, style_passContinuation, style_beginLine]
  · rw [hstep, stringClose_passContinuation, stringClose_beginLine]
  · rw [hstep, paths_passContinuation, paths_beginLine]
  · have hpos := hr.beginLine.pos_passContinuation inside'
    rw [← hstep, pos_beginLine, (reaches_beginLine s).stop_eq] at hpos
    rw [stop_step] at hin
    have hbehind : (s.step d).cursor.pos = t.behindJoin s.cursor.pos := by omega
    rw [Text.closing?_of_joinsAt hjoin, hbehind]

/-- **A step in a literal goes on with it, shows that it is not closed, or closes it.** -/
theorem literalStep (hr : Reads t s) (inside : s.cursor.pos < s.cursor.window.stop)
    (hs : s.style = l.style) (hclose : ∀ close, l = .string close → s.memory.stringClose = close)
    (hl : l.close = '"' ∨ l.close = '>' ∨ l.close = '\'') : s.LiteralStep d t l := by
  by_cases hjoin : t.JoinsAt s.cursor.pos
  · exact literalStep_of_joinsAt hr inside hjoin
  have hbegin := hr.beginLine
  have inside' := inside_beginLine inside
  have hover := hr.not_atContinuation inside hjoin
  have hmark := hbegin.ch_eq_iff inside' (show '\\' ≠ ' ' by decide) (by decide)
  have hch : s.beginLine.cursor.ch = l.close ↔ t.charAt s.beginLine.cursor.pos = l.close := by
    rcases hl with hc | hc | hc <;> rw [hc] <;>
      exact hbegin.ch_eq_iff inside' (by decide) (by decide)
  have hstep := step_of_literal (d := d) hs hclose hover
  rw [hbegin.atLineEnd_eq_isLineStart inside'] at hstep
  simp only [hmark, hch, pos_beginLine] at hstep
  split_ifs at hstep with hend hskip hlast
  · refine .cut ?_ ?_
    · rw [hstep, style_passChar, style_recolour]
    · rw [hstep, paths_passChar]
      exact paths_beginLine
  · refine .of_passChar (.inr rfl) hstep fun hin => ?_
    have hpos : (s.step d).cursor.pos = s.cursor.pos + 2 := by
      have hadvanced : s.beginLine.advance.cursor.pos = s.cursor.pos + 1 :=
        (Cursor.pos_advance _).trans ((if_pos inside').trans (congrArg (· + 1) pos_beginLine))
      rw [hstep, cursor_passChar, Cursor.window_advance] at hin
      have hnext := Nat.lt_of_le_of_lt (Cursor.pos_le_advance _) hin
      rw [hstep, cursor_passChar, Cursor.pos_advance, if_pos hnext, hadvanced]
    rw [hpos, Text.closing?_of_backslash hjoin hskip.1 hskip.2]
  · exact .closed hlast hstep
  · refine .of_passChar (.inl rfl) hstep fun _ => ?_
    have hpos : (s.step d).cursor.pos = s.cursor.pos + 1 := by
      rw [hstep, cursor_passChar, Cursor.pos_advance, if_pos inside', pos_beginLine]
    rw [hpos, ← Text.closing?_of_other hjoin (Bool.eq_false_iff.2 hend) hskip hlast]

/-! ## A path that is open -/

/-- **The scan is in the literal `l`, which it has opened at `a`**, and reading on from there
    leads to the same end as reading on from where the scan is. -/
structure InPath (t : Text) (l : Literal) (a : Nat) (s : Scan) : Prop where
  style_eq : s.style = l.style
  close_eq : ∀ close, l = .string close → s.memory.stringClose = close
  opens : l.OpensWith (t.charAt a)
  lt_pos : a < s.cursor.pos
  stretch : Stretch [l.style] a s.cursor
  closing?_eq : s.cursor.pos < s.cursor.window.stop →
    t.closing? l.close s.cursor.pos = t.closing? l.close (a + 1)

namespace InPath

theorem beginLine (h : s.InPath t l a) : Stretch [l.style] a s.beginLine.cursor := by
  rw [cursor_beginLine_of_literal (Style.isLiteral_iff.1 (h.style_eq ▸ l.isLiteral_style))]
  split
  · exact h.stretch.switchTo (List.mem_singleton.2 h.style_eq)
  · exact h.stretch

/-- **A step that goes on with the literal stays in it.** -/
theorem goesOn (h : s.InPath t l a) (hr : Reads t s)
    (inside : s.cursor.pos < s.cursor.window.stop)
    (hwindow : (s.step d).cursor.window = s.beginLine.cursor.window)
    (hstyle : (s.step d).style = s.style)
    (hclose : (s.step d).memory.stringClose = s.memory.stringClose)
    (hclosing : (s.step d).cursor.pos < (s.step d).cursor.window.stop →
      t.closing? l.close (s.step d).cursor.pos = t.closing? l.close s.cursor.pos) :
    (s.step d).InPath t l a where
  style_eq := hstyle.trans h.style_eq
  close_eq := fun close hl => hclose.trans (h.close_eq close hl)
  opens := h.opens
  lt_pos := Nat.lt_trans h.lt_pos (pos_lt_step d inside)
  stretch :=
    { covers := (hr.step inside).covers
      state_mem := List.mem_singleton.2 (hstyle.trans h.style_eq)
      allIn := hwindow ▸ h.beginLine.allIn }
  closing?_eq := fun hin => (hclosing hin).trans (h.closing?_eq inside)

/-- **The character that closes the literal ends the path.** -/
theorem isPath (h : s.InPath t l a) (inside : s.cursor.pos < s.cursor.window.stop)
    (hch : t.charAt s.cursor.pos = l.close) :
    IsPath t (s.beginLine.closeLiteral d).cursor.window l ⟨a, s.cursor.pos + 1⟩ where
  opens := h.opens
  two_le := Nat.succ_le_succ h.lt_pos
  closes := hch
  closing?_eq := by
    rw [← h.closing?_eq inside, Nat.add_sub_cancel]
    rcases h.opens.close_cases with hc | hc | hc <;>
      exact Text.closing?_of_close (by rw [hc]; rfl) (by rw [hc]; decide) (by rw [hc]; decide) hch
  allIn := by
    have hadvanced : s.beginLine.cursor.advance.pos = s.cursor.pos + 1 := by
      rw [Cursor.pos_advance, pos_beginLine, (reaches_beginLine s).stop_eq, if_pos inside]
    have hclosed := h.beginLine.advance.close
      (if s.beginLine.memory.inDirective then .directive else .plain)
    rwa [hadvanced, ← cursor_closeLiteral (d := d)] at hclosed

end InPath

/-! ## The paths met -/

/-- **The paths that the scan has met follow one another, and each of them is a path.**  If
    it has kept the place where the literal at hand began, it is in that literal, behind
    all of them. -/
structure KeepsPaths (t : Text) (s : Scan) : Prop where
  pairwise : s.includes.Pairwise (·.stop ≤ ·.start)
  isPath : ∀ span ∈ s.includes, span.stop ≤ s.cursor.pos ∧ ∃ l, IsPath t s.cursor.window l span
  inPath : s.style.isLiteral = true → ∀ a, s.literalStart = some a →
    (∃ l, s.InPath t l a) ∧ ∀ span ∈ s.includes, span.stop ≤ a

namespace KeepsPaths

/-- A move that meets no path keeps the ones met. -/
theorem isPath_of_reaches (h : KeepsPaths t s) (hr : Reaches s.cursor u.cursor)
    (hi : u.includes = s.includes) :
    ∀ span ∈ u.includes, span.stop ≤ u.cursor.pos ∧ ∃ l, IsPath t u.cursor.window l span := by
  intro span hspan
  obtain ⟨hle, l, hpath⟩ := h.isPath span (hi ▸ hspan)
  exact ⟨Nat.le_trans hle hr.pos_le, l, hpath.reaches hr⟩

/-- Out of literals it does not matter which place has been kept. -/
theorem move (h : KeepsPaths t s) (hr : Reaches s.cursor u.cursor) (hi : u.includes = s.includes)
    (hs : u.style.isLiteral = false) : KeepsPaths t u := by
  refine ⟨hi ▸ h.pairwise, h.isPath_of_reaches hr hi, fun hliteral => ?_⟩
  rw [hs] at hliteral
  cases hliteral

/-- The literal at hand, at the place that has been kept of it, if it has been kept. -/
theorem exists_literal (h : KeepsPaths t s) (hr : Reads t s) (hs : s.style.isLiteral = true) :
    ∃ l : Literal, s.style = l.style ∧
      (∀ close, l = .string close → s.memory.stringClose = close) ∧
      (l.close = '"' ∨ l.close = '>' ∨ l.close = '\'') ∧
      ∀ a, s.literalStart = some a →
        s.InPath t l a ∧ ∀ span ∈ s.includes, span.stop ≤ a := by
  cases hstart : s.literalStart with
  | some a =>
    obtain ⟨⟨l, hin⟩, hbehind⟩ := h.inPath hs a hstart
    refine ⟨l, hin.style_eq, hin.close_eq, hin.opens.close_cases, fun _ ha => ?_⟩
    cases ha
    exact ⟨hin, hbehind⟩
  | none =>
    rcases Style.isLiteral_iff.1 hs with hs | hs
    · refine ⟨.string s.memory.stringClose, hs, fun _ hl => Literal.string.inj hl, ?_, nofun⟩
      exact hr.tidy.sane.stringClose.imp_right .inl
    · exact ⟨.character, hs, nofun, .inr (.inr rfl), nofun⟩

/-- A literal opens behind all paths. -/
theorem openLiteral (h : KeepsPaths t s) (hr : Reads t s)
    (inside : s.cursor.pos < s.cursor.window.stop) (hl : l.OpensWith (t.charAt s.cursor.pos))
    (inDirective keepPlace : Bool) :
    KeepsPaths t (s.openLiteral l inDirective keepPlace).passChar := by
  obtain ⟨u, hu⟩ : ∃ u, u = (s.openLiteral l inDirective keepPlace).passChar := ⟨_, rfl⟩
  have hcursor : u.cursor = (s.cursor.switchTo l.style.code).advance := by
    rw [hu, cursor_passChar]
    rfl
  have hreach : Reaches s.cursor u.cursor := hcursor ▸ (Reaches.refl.switchTo l.style).advance
  have hpos : u.cursor.pos = s.cursor.pos + 1 := by
    rw [hcursor, Cursor.pos_advance]
    exact if_pos inside
  have hpaths : u.paths = (s.openLiteral l inDirective keepPlace).paths := hu ▸ paths_passChar
  have hincludes : u.includes = s.includes := congrArg Prod.snd hpaths
  have hstart : u.literalStart =
      if s.memory.inInclude && keepPlace then some s.cursor.pos else none :=
    congrArg Prod.fst hpaths
  have hstyle : u.style = l.style := by
    rw [hu, style_passChar]
    exact style_switchTo
  rw [← hu]
  refine ⟨hincludes ▸ h.pairwise, h.isPath_of_reaches hreach hincludes, fun _ a ha => ?_⟩
  obtain rfl : a = s.cursor.pos := by
    rw [hstart] at ha
    split at ha <;> cases ha
    rfl
  refine ⟨⟨l, hstyle, ?_, hl, by omega, ?_, fun _ => by rw [hpos]⟩, ?_⟩
  · rintro close rfl
    rw [hu, stringClose_passChar]
    rfl
  · refine .of_boundary (hreach.covers hr.covers) (List.mem_singleton.2 hstyle) ?_
    rw [hcursor, Cursor.window_advance, hr.covers.boundary_switchTo]
  · intro span hspan
    exact (h.isPath span (hincludes ▸ hspan)).1

/-- **What begins keeps the paths in order.** -/
theorem enterAndPass (h : KeepsPaths t s) (hr : Reads t s) (hs : s.style.isLiteral = false) :
    KeepsPaths t (s.enterAndPass d) := by
  cases hwhat : s.entering? d with
  | none =>
    rw [enterAndPass_of_none hwhat]
    refine h.move ?_ (congrArg Prod.snd paths_passChar) (by rwa [style_passChar])
    rw [cursor_passChar]
    exact Reaches.refl.advance
  | some what =>
    have inside := pos_lt_of_entering? hwhat
    have hmeets := meets_of_entering? hwhat
    have hreach := reaches_enterAndPass d s
    by_cases hw : what = .directive
    · subst hw
      rw [enterAndPass_of_directive hwhat] at hreach ⊢
      refine h.move hreach (congrArg Prod.snd paths_openDirective) ?_
      rcases style_openDirective (s := s) with hd | hd <;> rw [hd] <;> rfl
    rw [enterAndPass_of_some hwhat hw] at hreach ⊢
    by_cases hliteral : ∃ l, what = .literal l
    · obtain ⟨l, rfl⟩ := hliteral
      have hl := hr.opensWith inside hmeets.opensWith
      cases l with
      | string close => exact h.openLiteral hr inside hl false true
      | character => exact h.openLiteral hr inside hl false false
    · refine h.move hreach ?_ ?_
      · exact congrArg Prod.snd
          (paths_passChar.trans (paths_applyEnter fun l hl => hliteral ⟨l, hl⟩))
      · rw [style_passChar, style_applyEnter hw]
        exact Enter.isLiteral_eq_false fun l hl => hliteral ⟨l, hl⟩

/-- **A literal that is closed is a path**, if its place has been kept. -/
theorem closeLiteral (h : KeepsPaths t s)
    (hin : ∀ a, s.literalStart = some a → s.InPath t l a ∧ ∀ span ∈ s.includes, span.stop ≤ a)
    (inside : s.cursor.pos < s.cursor.window.stop) (hch : t.charAt s.cursor.pos = l.close) :
    KeepsPaths t (s.beginLine.closeLiteral d) := by
  have hreach : Reaches s.cursor (s.beginLine.closeLiteral d).cursor :=
    (reaches_beginLine s).trans (reaches_closeLiteral d _)
  have hpos : (s.beginLine.closeLiteral d).cursor.pos = s.cursor.pos + 1 := by
    rw [cursor_closeLiteral, Cursor.pos_switchTo, Cursor.pos_advance, pos_beginLine,
      (reaches_beginLine s).stop_eq, if_pos inside]
  obtain ⟨hstart, hincludes⟩ := Prod.mk.inj (paths_beginLine (s := s))
  rcases includes_closeLiteral (d := d) (s := s.beginLine) with hsame | ⟨a, ha, hnew⟩
  · exact h.move hreach (hsame.trans hincludes) isLiteral_closeLiteral
  · obtain ⟨hpath, hbehind⟩ := hin a (hstart ▸ ha)
    rw [hpos, hincludes] at hnew
    refine ⟨?_, ?_, fun hliteral => ?_⟩
    · rw [hnew, List.pairwise_append]
      refine ⟨h.pairwise, List.pairwise_singleton _ _, ?_⟩
      intro span hspan last hlast
      rw [List.mem_singleton.1 hlast]
      exact hbehind span hspan
    · intro span hspan
      rw [hnew] at hspan
      rcases List.mem_append.1 hspan with hspan | hspan
      · obtain ⟨hle, l, hold⟩ := h.isPath span hspan
        exact ⟨Nat.le_trans hle hreach.pos_le, l, hold.reaches hreach⟩
      · rw [List.mem_singleton.1 hspan]
        exact ⟨Nat.le_of_eq hpos.symm, l, hpath.isPath inside hch⟩
    · rw [isLiteral_closeLiteral] at hliteral
      cases hliteral

/-- A step in a literal. -/
theorem step_of_isLiteral (h : KeepsPaths t s) (hr : Reads t s)
    (inside : s.cursor.pos < s.cursor.window.stop) (hs : s.style.isLiteral = true) :
    KeepsPaths t (s.step d) := by
  have inside' := inside_beginLine inside
  obtain ⟨l, hstyle, hclose, hl, hin⟩ := h.exists_literal hr hs
  cases literalStep (d := d) hr inside hstyle hclose hl with
  | goesOn hwindow hsame hcloses hpaths hclosing =>
    obtain ⟨hstart, hincludes⟩ := Prod.mk.inj hpaths
    refine ⟨hincludes ▸ h.pairwise, h.isPath_of_reaches (reaches_step d s) hincludes,
      fun _ a ha => ?_⟩
    obtain ⟨hpath, hbehind⟩ := hin a (hstart ▸ ha)
    exact ⟨⟨l, hpath.goesOn hr inside hwindow hsame hcloses hclosing⟩, hincludes ▸ hbehind⟩
  | cut hcut hpaths =>
    exact h.move (reaches_step d s) (congrArg Prod.snd hpaths) (by rw [hcut]; rfl)
  | closed hch hstep =>
    have hclosed : Reads t (s.beginLine.closeLiteral d) :=
      hr.beginLine.move (reaches_closeLiteral d _) (hr.beginLine.tidy.closeLiteral inside')
    rw [hstep]
    exact (h.closeLiteral hin inside hch).enterAndPass hclosed isLiteral_closeLiteral

/-- A step out of literals, which may open one. -/
theorem step_of_not_isLiteral (h : KeepsPaths t s) (hr : Reads t s)
    (inside : s.cursor.pos < s.cursor.window.stop) (hs : s.style.isLiteral = false) :
    KeepsPaths t (s.step d) := by
  have hbegin := hr.beginLine
  have inside' := inside_beginLine inside
  have hsame : s.beginLine.style.isLiteral = false := by rwa [style_beginLine]
  cases hover : s.beginLine.atContinuation with
  | true =>
    refine h.move (reaches_step d s) ?_ ?_
    · rw [Scan.step, if_pos hover]
      exact congrArg Prod.snd (paths_passContinuation.trans paths_beginLine)
    · rw [Scan.step, if_pos hover, style_passContinuation, hsame]
  | false =>
    have hmeets := leaving_meets (d := d) (s := s)
    rw [step_of_not_atContinuation hover]
    by_cases hopens : ∃ l, s.beginLine.leaving d = .openLiteral l
    · obtain ⟨l, hhow⟩ := hopens
      rw [hhow] at hmeets
      have hopened := h.move (reaches_beginLine s) (congrArg Prod.snd paths_beginLine) hsame
      have hplain : (s.beginLine.openLiteral l true true).style ≠ .plain := by
        cases l <;> exact Style.noConfusion
      rw [leaveStyle, hhow, applyLeave, enterAndPass_of_none (entering?_of_style_ne hplain)]
      exact hopened.openLiteral hbegin inside' (hbegin.opensWith inside' hmeets.2) true true
    · have hopens : ∀ l, s.beginLine.leaving d ≠ .openLiteral l := fun l hl => hopens ⟨l, hl⟩
      have hcloses : s.beginLine.leaving d ≠ .closeLiteral := by
        intro hhow
        rw [hhow] at hmeets
        rcases hmeets with ⟨hliteral, -⟩ | ⟨hliteral, -⟩ <;> rw [hliteral] at hs <;> cases hs
      have hleft := isLiteral_leaveStyle (d := d) hbegin.tidy.sane hsame hopens
      refine (h.move (reaches_leaveStyle d s) ?_ hleft).enterAndPass (hr.left inside) hleft
      exact congrArg Prod.snd ((paths_applyLeave hopens hcloses).trans paths_beginLine)

/-- **Each step keeps the paths in order.** -/
theorem step (h : KeepsPaths t s) (hr : Reads t s)
    (inside : s.cursor.pos < s.cursor.window.stop) : KeepsPaths t (s.step d) := by
  cases hs : s.style.isLiteral with
  | true => exact h.step_of_isLiteral hr inside hs
  | false => exact h.step_of_not_isLiteral hr inside hs

/-- A scan that has met no path has them in order. -/
theorem ofWindow (w : Window) (style : Style) : KeepsPaths t (.ofWindow w style) where
  pairwise := .nil
  isPath := nofun
  inPath := nofun

/-- **A whole scan keeps the paths in order**, by induction on its steps. -/
theorem run (h : KeepsPaths t s) (hr : Reads t s) : KeepsPaths t (s.run d) := by
  fun_induction Scan.run d s with
  | case1 s inside ih => exact ih (h.step hr inside) (hr.step inside)
  | case2 => exact h

end KeepsPaths

theorem paths_closeWord : (s.closeWord d).paths = s.paths := by
  unfold closeWord
  split
  · exact paths_applyLeave nofun nofun
  · exact paths_applyLeave nofun nofun
  · rfl

/-- A scan that is complete has met no path since the end of its run. -/
theorem includes_complete : (s.complete d).includes = (s.run d).includes :=
  congrArg Prod.snd (paths_closeWord (d := d) (s := s.run d))

/-! ## Scans that do not track paths -/

/-- The scan without the paths that it has met. -/
def forget (s : Scan) : Scan := { s with includes := [] }

end Scan

/-- The dialect that does not track include paths. -/
def Dialect.untracked (d : Dialect) : Dialect :=
  { d with settings := { d.settings with trackIncludes := false } }

namespace Scan

variable {s : Scan}

@[simp] theorem cursor_forget : s.forget.cursor = s.cursor := rfl

@[simp] theorem style_forget : s.forget.style = s.style := rfl

theorem beginLine_forget : s.forget.beginLine = s.beginLine.forget := by
  rw [beginLine, beginLine, cursor_forget, style_forget]
  split
  · dsimp only
    split <;> rfl
  · rfl

theorem passContinuation_forget : s.forget.passContinuation = s.passContinuation.forget := by
  rw [passContinuation, passContinuation, show s.forget.advance = s.advance.forget from rfl,
    cursor_forget]
  split <;> rfl

theorem passChar_forget : s.forget.passChar = s.passChar.forget := by
  rw [passChar, passChar, cursor_forget, style_forget]
  split <;> rfl

/-- Whether paths are tracked makes no difference to how a style ends. -/
theorem leaving_untracked : s.leaving d.untracked = s.leaving d := by
  rw [leaving, leaving]
  cases s.style <;> rfl

theorem endWord_forget : s.forget.endWord d = (s.endWord d).forget := by
  rw [endWord, endWord, cursor_forget]
  split <;> split <;> rfl

theorem closeDocKeyword_forget : s.forget.closeDocKeyword d = (s.closeDocKeyword d).forget := by
  rw [closeDocKeyword, closeDocKeyword, cursor_forget]
  split <;> rfl

/-- The only move that asks whether paths are tracked. -/
theorem closeLiteral_forget : s.forget.closeLiteral d.untracked = (s.closeLiteral d).forget := by
  rw [closeLiteral, closeLiteral, show s.forget.literalStart = s.literalStart from rfl]
  dsimp only [Dialect.untracked]
  split <;> rfl

theorem applyLeave_forget {style : Style} {how : Leave} :
    s.forget.applyLeave d.untracked style how = (s.applyLeave d style how).forget := by
  cases how with
  | endWord => exact endWord_forget
  | closeDocKeyword => exact closeDocKeyword_forget
  | closeLiteral => exact closeLiteral_forget
  | _ => rfl

theorem leaveStyle_forget : s.forget.leaveStyle d.untracked = (s.leaveStyle d).forget := by
  rw [leaveStyle, leaveStyle, leaving_untracked]
  exact applyLeave_forget

theorem openDirective_forget : s.forget.openDirective = s.openDirective.forget := by
  rw [openDirective_eq, openDirective_eq, show s.forget.directiveWord = s.directiveWord.forget
    from rfl, cursor_forget]
  split
  · rfl
  · split <;> rfl

theorem applyEnter_forget {what : Enter} :
    s.forget.applyEnter what = (s.applyEnter what).forget := by
  cases what with
  | directive => exact openDirective_forget
  | literal l => cases l <;> rfl
  | _ => rfl

theorem enterAndPass_forget : s.forget.enterAndPass d.untracked = (s.enterAndPass d).forget := by
  have hsame : s.forget.entering? d.untracked = s.entering? d := rfl
  cases hwhat : s.entering? d with
  | none =>
    rw [enterAndPass_of_none hwhat, enterAndPass_of_none (hsame.trans hwhat), passChar_forget]
  | some what =>
    by_cases hw : what = .directive
    · subst hw
      rw [enterAndPass_of_directive hwhat, enterAndPass_of_directive (hsame.trans hwhat),
        openDirective_forget]
    · rw [enterAndPass_of_some hwhat hw, enterAndPass_of_some (hsame.trans hwhat) hw,
        applyEnter_forget, passChar_forget]

/-- **A scan that does not track paths takes the same steps.** -/
theorem step_forget : s.forget.step d.untracked = (s.step d).forget := by
  have hover : s.beginLine.forget.atContinuation = s.beginLine.atContinuation := rfl
  rw [step, step, beginLine_forget, hover, passContinuation_forget, leaveStyle_forget,
    enterAndPass_forget]
  split <;> rfl

theorem run_forget : s.forget.run d.untracked = (s.run d).forget := by
  fun_induction Scan.run d s with
  | case1 s inside ih =>
    rw [run_of_inside (show s.forget.cursor.pos < s.forget.cursor.window.stop from inside),
      step_forget, ih]
  | case2 s outside => exact run_of_outside outside

theorem closeWord_forget : s.forget.closeWord d.untracked = (s.closeWord d).forget := by
  rw [closeWord, closeWord, leaving_untracked, show s.forget.leaving d = s.leaving d from rfl]
  split
  · exact applyLeave_forget
  · exact applyLeave_forget
  · rfl

theorem complete_forget : s.forget.complete d.untracked = (s.complete d).forget := by
  rw [complete, complete, run_forget, closeWord_forget]
  rfl

end Scan

/-! ## Where a window opens -/

section Opening

variable {settings : Settings} {w : Window} {f : Char → Bool} {pos q : Nat}

/-- All characters before a position on which a run goes through it are in the run. -/
theorem accepts_of_runStart (hq : runStart f w pos ≤ q) (hlt : q < pos) :
    f (w.charAt q) = true := by
  fun_induction runStart f w pos with
  | case1 => exact absurd hlt (Nat.not_lt_zero q)
  | case2 pos hrun ih =>
    rw [Bool.and_eq_true] at hrun
    rcases Nat.lt_or_eq_of_le (Nat.le_of_lt_succ hlt) with hlt | rfl
    · exact ih hq hlt
    · exact hrun.2
  | case3 pos hrun => exact absurd hlt (Nat.not_lt.2 hq)

/-- What a window can be moved back over: the characters of a word, and its mark. -/
def IsWordPart (settings : Settings) (c : Char) : Prop :=
  isIdentifierChar settings c = true ∨ c = '@' ∨ c = '\\'

theorem isWordPart_of_wordStart? {first : Nat} (h : wordStart? settings w pos = some first)
    (hq : first ≤ q) (hlt : q < pos) : IsWordPart settings (w.charAt q) := by
  unfold wordStart? at h
  dsimp only at h
  split_ifs at h with _ hmark
  · obtain rfl := Option.some.inj h
    rcases Nat.eq_or_lt_of_le hq with rfl | hbehind
    · exact .inr (.inl hmark.2)
    · exact .inl (accepts_of_runStart (by omega) hlt)
  · obtain rfl := Option.some.inj h
    exact .inl (accepts_of_runStart hq hlt)

theorem isWordPart_of_docKeywordStart? {mark : Nat} (h : docKeywordStart? w pos = some mark)
    (hq : mark ≤ q) (hlt : q < pos) : IsWordPart settings (w.charAt q) := by
  unfold docKeywordStart? at h
  dsimp only at h
  split_ifs at h with _ hmark
  obtain rfl := Option.some.inj h
  rcases Nat.eq_or_lt_of_le hq with rfl | hbehind
  · exact .inr hmark
  · have hletter : isSmallLetter (w.charAt q) = true := accepts_of_runStart (by omega) hlt
    refine .inl ?_
    simp [isIdentifierChar, isWordChar, isWordStart, isLetter, hletter]

/-- **A window is moved back over parts of a word only.** -/
theorem isWordPart_of_reopen (hw : w.Fresh) {style : Style}
    (hq : (reopen settings w style).1.start ≤ q) (hlt : q < w.start) :
    IsWordPart settings (w.charAt q) := by
  cases style with
  | identifier | keyword | keyword2 | globalClass =>
    unfold reopen at hq
    dsimp only at hq
    split at hq
    · rename_i first hfirst
      rw [hw.start_extendBack] at hq
      exact isWordPart_of_wordStart? hfirst (by omega) hlt
    · exact absurd hlt (Nat.not_lt.2 hq)
  | docKeyword =>
    unfold reopen at hq
    dsimp only at hq
    split at hq
    · rename_i mark hmark
      rw [hw.start_extendBack] at hq
      exact isWordPart_of_docKeywordStart? hmark (by omega) hlt
    · exact absurd hlt (Nat.not_lt.2 hq)
  | _ => exact absurd hlt (Nat.not_lt.2 hq)

/-- No literal opens with a part of a word. -/
theorem Literal.OpensWith.not_isWordPart {c : Char} (h : l.OpensWith c) :
    ¬ IsWordPart settings c := by
  have hquote : c = '"' ∨ c = '<' ∨ c = '\'' := by
    cases l with
    | string close => exact h.imp And.left fun h => .inl h.1
    | character => exact .inr (.inr h)
  rcases hquote with rfl | rfl | rfl <;> rintro (hpart | hpart | hpart) <;> cases hpart

/-- **A literal opens no earlier than the window**, wherever that has been moved back to: what
    it is moved back over is the word that it opened within. -/
theorem Literal.OpensWith.start_le (hw : w.Fresh) {style : Style} (h : l.OpensWith (w.charAt q))
    (hq : (reopen settings w style).1.start ≤ q) : w.start ≤ q := by
  by_contra hbefore
  exact h.not_isWordPart (isWordPart_of_reopen hw hq (Nat.lt_of_not_le hbefore))

theorem fresh_reopen (settings : Settings) (hw : w.Fresh) (style : Style) :
    (reopen settings w style).1.Fresh ∧ (reopen settings w style).1.source = w.source := by
  rcases reopen_eq_or settings w style with h | ⟨p, h⟩ <;> rw [h]
  · exact ⟨hw, rfl⟩
  · exact ⟨hw.extendBack p, Window.SameView.source_extendBack w p⟩

end Opening

namespace Dialect

/-- A scan reads the text of the buffer that its window is on. -/
theorem reads_opening (d : Dialect) {w : Window} (hw : w.Fresh) (initial : UInt8) :
    Scan.Reads w.source.text (d.opening w initial) where
  tidy := .ofWindow _ _
  covers := d.covers_opening initial hw.pending_eq hw.start_le
  sees := sees_ofWindow _ _
  char_eq := by
    obtain ⟨hfresh, hsource⟩ := fresh_reopen d.settings hw (.ofCode initial)
    intro q
    rw [← hsource]
    exact hfresh.charOrSpace_eq q

/-- **A lexer that does not track include paths** gives the same but for them. -/
theorem lex_untracked (d : Dialect) (w : Window) (initial : UInt8) :
    d.untracked.lex w initial = { d.lex w initial with includes := [] } := by
  have hopening : d.untracked.opening w initial = (d.opening w initial).forget := rfl
  have hscan : d.untracked.scan w initial = (d.scan w initial).forget := by
    rw [scan_eq, hopening]
    exact Scan.complete_forget
  rw [lex, hscan]
  rfl

/-- **The include paths of a window** follow one another in it.  Each of them is a literal,
    from its opening character to the closing one, and all of it has the style of the
    literal; one in quotes ends where any literal in these quotes does.  A lexer that does
    not track them gives the same styles, and no paths. -/
theorem lex_includes (d : Dialect) (b : Buffer) (start n : Nat) (initial : UInt8) :
    let w := Window.ofBuffer b start n
    let r := d.lex w initial
    (r.includes.Pairwise (·.stop ≤ ·.start) ∧
      ∀ span ∈ r.includes, w.start ≤ span.start ∧ span.stop ≤ w.stop ∧
        ∃ l, IsPath b.text r.window l span ∧ (l.close ≠ '>' →
          b.text.literalEnd l.close (span.start + 1) = .closed (span.stop - 1))) ∧
    d.untracked.lex w initial = { r with includes := [] } := by
  intro w r
  have hw : w.Fresh := Window.fresh_ofBuffer b start n
  have hreads : Scan.Reads b.text (d.opening w initial) := d.reads_opening hw initial
  have hrun : Scan.Reads b.text ((d.opening w initial).run d) :=
    hreads.move (Scan.reaches_run d _) hreads.tidy.run
  have hkeeps : Scan.KeepsPaths b.text ((d.opening w initial).run d) :=
    Scan.KeepsPaths.run (.ofWindow _ _) hreads
  have hincludes : r.includes = ((d.opening w initial).run d).includes :=
    Scan.includes_complete
  refine ⟨⟨hincludes ▸ hkeeps.pairwise, fun span hspan => ?_⟩, d.lex_untracked w initial⟩
  rw [hincludes] at hspan
  obtain ⟨hle, l, hpath⟩ := hkeeps.isPath span hspan
  have hlexed := hpath.reaches
    ((Scan.reaches_closeWord d ((d.opening w initial).run d)).switchTo .plain)
  refine ⟨?_, ?_, l, hlexed, hlexed.literalEnd_eq⟩
  · have hfirst := (hrun.tidy.includes span hspan).1
    rw [(Scan.reaches_run d _).start_eq] at hfirst
    have hopens : l.OpensWith (w.charAt span.start) := by
      rw [hw.charAt_eq]
      exact hpath.opens
    exact hopens.start_le hw hfirst
  · have hend : (d.opening w initial).cursor.window.stop = w.stop :=
      stop_reopen d.settings w (.ofCode initial)
    have hstop := hrun.covers.pos_le
    rw [(Scan.reaches_run d _).stop_eq, hend] at hstop
    exact Nat.le_trans hle hstop

-- One path between angle brackets, and one over two lines that are joined.
example :
    let text := Text.ofString "#include <a>\n#include \"b\\\nc\""
    (standard.lex (.ofBuffer (.ofText text) 0 28) 0).includes = [⟨9, 12⟩, ⟨22, 28⟩] := by
  decide +kernel

-- The place of a path that is cut off is not taken for that of a string behind it.
example : (standard.lex (.ofBuffer (.ofText (.ofString "#include \"a\n\"b\"")) 0 16) 0).includes =
    [] := by decide +kernel

end Dialect

end CFamily

end StyledText
