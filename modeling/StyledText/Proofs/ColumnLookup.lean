/-
  The position that is shown at a column.

  On a line the columns grow from left to right, though some characters take no room,
  and a tab takes as much as there is up to the next stop.  The character shown at a
  column is the first one that reaches beyond it.  So the character shown where `p` is
  shown is the first one from `p` on that takes room.  All this holds whatever the widths
  of the characters are.

  * `columnAfter_tab` and `columnAfter_of_ne`: how far a character reaches;
  * `columnBehind`: the column behind the character at a position;
  * `columnBy_succ` and `columnBy_mono`: the columns of a line, from one position to the
    next;
  * `FirstBeyond`: the first position of a stretch that reaches beyond a column;
  * `findColumnBy_first`: it is the one that is found;
  * `findColumnBy_obey`: what is found, in every document.
-/
import StyledText.Document.Columns
import StyledText.Proofs.LineParts
import StyledText.Proofs.Progress

namespace StyledText.Document

variable {d : Document} {width : Char → Option Nat} {line p q r start stop target : Nat}

/-! ## The tab width -/

/-- The tab width that a command sets. -/
def Command.tabWidth? : Command → Option Nat
  | .setTabWidth width => some width
  | _ => none

theorem tabWidth_tellSaved (d : Document) (before : Bool) :
    (d.tellSaved before).tabWidth = d.tabWidth := by
  unfold tellSaved
  split_ifs <;> rfl

theorem tabWidth_adopt (d : Document) (b : Buffer) (kind : ChangeKind) (fromHistory : Bool)
    (p n : Nat) : (d.adopt b kind fromHistory p n).tabWidth = d.tabWidth := by
  unfold adopt
  exact tabWidth_tellSaved _ _

/-- No edit changes the tab width, nor does styling. -/
theorem tabWidth_apply (hd : d.buffer.Sound) (op : Op) : (d.apply op).tabWidth = d.tabWidth := by
  have heffect := effect_apply hd op
  generalize d.apply op = d' at heffect ⊢
  cases heffect with
  | load text =>
    unfold load
    split_ifs
    · rfl
    · exact tabWidth_adopt _ _ _ _ _ _
  | ensureStyledTo p =>
    unfold ensureStyledTo
    dsimp only
    split_ifs <;> rfl
  | change => exact tabWidth_adopt _ _ _ _ _ _
  | mark => exact tabWidth_tellSaved _ _
  | refused => rfl

theorem tabWidth_perform (hd : d.buffer.Sound) (command : Command) :
    (d.perform command).tabWidth = (command.tabWidth?.map (max · 1)).getD d.tabWidth := by
  cases command with
  | edit op => exact tabWidth_apply hd op
  | save => exact tabWidth_tellSaved _ _
  | lex _ _ _ | setLexer _ | clearLog | setReadOnly _ | setRecording _ | addWatcher => rfl
  | setTabWidth width => rfl

/-- **The tab width is the last one that was set**, or one column for the width zero. -/
theorem tabWidth_obey (hd : d.buffer.Sound) (commands : List Command) :
    (d.obey commands).tabWidth =
      (commands.filterMap Command.tabWidth?).foldl (fun _ width => max width 1) d.tabWidth := by
  induction commands generalizing d with
  | nil => rfl
  | cons command commands ih =>
    have htail := ih (sound_perform hd command)
    rw [tabWidth_perform hd] at htail
    rw [List.filterMap_cons]
    cases hset : command.tabWidth? with
    | none => rwa [hset] at htail
    | some width => rwa [hset] at htail

/-- Tabs have room. -/
theorem tabWidth_pos (hd : d.buffer.Sound) (hpos : 0 < d.tabWidth) (commands : List Command) :
    0 < (d.obey commands).tabWidth := by
  rw [tabWidth_obey hd]
  generalize commands.filterMap Command.tabWidth? = widths
  induction widths using List.reverseRecOn with
  | nil => exact hpos
  | append_singleton widths width _ =>
    rw [List.foldl_append]
    exact Nat.lt_of_lt_of_le Nat.zero_lt_one (Nat.le_max_right _ _)

/-! ## The columns of a line -/

/-- **A tab reaches to the next tab stop**: the first one that is behind the column at which
    it is shown. -/
theorem columnAfter_tab (ht : 0 < d.tabWidth) (column : Nat) :
    column < d.columnAfter width column '\t' ∧
      d.columnAfter width column '\t' ≤ column + d.tabWidth ∧
      d.tabWidth ∣ d.columnAfter width column '\t' := by
  rw [columnAfter, if_pos rfl, Nat.mul_comm]
  have hstop := Nat.mul_div_le column d.tabWidth
  refine ⟨Nat.lt_mul_div_succ column ht, ?_, Nat.dvd_mul_right _ _⟩
  rw [Nat.mul_succ]
  exact Nat.add_le_add_right hstop _

/-- **Any other character takes its width**, and one without a width takes no room. -/
theorem columnAfter_of_ne {c : Char} (hc : c ≠ '\t') (column : Nat) :
    d.columnAfter width column c = column + (width c).getD 0 := if_neg hc

/-- No character reaches back. -/
theorem le_columnAfter (ht : 0 < d.tabWidth) (column : Nat) (c : Char) :
    column ≤ d.columnAfter width column c := by
  by_cases hc : c = '\t'
  · subst hc
    exact Nat.le_of_lt (columnAfter_tab ht column).1
  · rw [columnAfter_of_ne hc]
    exact Nat.le_add_right _ _

/-- The column behind the character at `p`. -/
def columnBehind (d : Document) (width : Char → Option Nat) (p : Nat) : Nat :=
  d.columnAfter width (d.columnBy width p) (d.buffer.charAt p)

section
variable (hd : d.buffer.Consistent) (hline : line < d.buffer.lineCount)
include hd hline

/-- The column of a position on a line is where the characters before it on that line
    lead. -/
theorem columnBy_eq (hp : d.buffer.lineStart line ≤ p) (hle : p ≤ d.buffer.lineEnd line) :
    d.columnBy width p =
      (List.range' (d.buffer.lineStart line) (p - d.buffer.lineStart line)).foldl
        (fun column q => d.columnAfter width column (d.buffer.charAt q)) 0 := by
  have hlength : p ≤ d.buffer.length := Nat.le_trans hle (hd.lineEnd_le_length line)
  have hof : d.buffer.lineOf p = line := by
    refine (hd.lineOf_eq_iff hlength).2 ⟨hp, ?_⟩
    rcases Nat.lt_or_eq_of_le (Nat.succ_le_of_lt hline) with hmore | hlast
    · exact .inr (Nat.lt_of_le_of_lt hle (hd.line hmore).2.1.lt)
    · exact .inl hlast
  unfold columnBy
  dsimp only
  rw [Nat.min_eq_left hlength, hof, Buffer.range, Nat.add_sub_cancel' hp,
    Text.toList_extract_eq_map hlength, List.foldl_map]
  rfl

theorem columnBy_lineStart : d.columnBy width (d.buffer.lineStart line) = 0 := by
  rw [columnBy_eq hd hline (Nat.le_refl _) (hd.lineStart_le_lineEnd line), Nat.sub_self]
  rfl

/-- **The next position is shown behind the character.** -/
theorem columnBy_succ (hp : d.buffer.lineStart line ≤ p) (hlt : p < d.buffer.lineEnd line) :
    d.columnBy width (p + 1) = d.columnBehind width p := by
  rw [columnBehind, columnBy_eq hd hline hp (Nat.le_of_lt hlt),
    columnBy_eq (p := p + 1) hd hline (Nat.le_succ_of_le hp) hlt, Nat.sub_add_comm hp,
    List.range'_1_concat, List.foldl_append, Nat.add_sub_cancel' hp]
  rfl

/-- **Columns grow from left to right.** -/
theorem columnBy_mono (ht : 0 < d.tabWidth) (hp : d.buffer.lineStart line ≤ p) (hpq : p ≤ q)
    (hq : q ≤ d.buffer.lineEnd line) : d.columnBy width p ≤ d.columnBy width q := by
  induction q, hpq using Nat.le_induction with
  | base => exact Nat.le_refl _
  | succ q hpq ih =>
    rw [columnBy_succ hd hline (Nat.le_trans hp hpq) hq]
    exact Nat.le_trans (ih (Nat.le_of_lt hq)) (le_columnAfter ht _ _)

end

/-! ## The character at a column -/

/-- **Of the characters of `[start, stop)`, the one at `q` is the first that reaches beyond
    the column `target`**, or none does and `q` is `stop`. -/
structure FirstBeyond (d : Document) (width : Char → Option Nat) (target start stop q : Nat) :
    Prop where
  start_le : start ≤ q
  le_stop : q ≤ stop
  before : ∀ r, start ≤ r → r < q → d.columnBehind width r ≤ target
  beyond : q < stop → target < d.columnBehind width q

/-- Where the first character does not reach beyond, the search goes on behind it. -/
theorem FirstBeyond.of_succ (h : FirstBeyond d width target (start + 1) stop q)
    (hstart : d.columnBehind width start ≤ target) :
    FirstBeyond d width target start stop q where
  start_le := Nat.le_of_succ_le h.start_le
  le_stop := h.le_stop
  before r hr hlt := by
    rcases Nat.lt_or_eq_of_le hr with hmore | rfl
    · exact h.before r hmore hlt
    · exact hstart
  beyond := h.beyond

section
variable (hd : d.buffer.Consistent) (hline : line < d.buffer.lineCount)
include hd hline

/-- From each position of a line, the search finds the first character that reaches
    beyond. -/
theorem findFrom_first (target : Nat) (hp : d.buffer.lineStart line ≤ p)
    (hle : p ≤ d.buffer.lineEnd line) :
    FirstBeyond d width target p (d.buffer.lineEnd line)
      (d.findFrom width target (d.columnBy width p) p
        ((List.range' p (d.buffer.lineEnd line - p)).map d.buffer.charAt)) := by
  obtain ⟨n, hn⟩ : ∃ n, d.buffer.lineEnd line = p + n := ⟨_, (Nat.add_sub_cancel' hle).symm⟩
  induction n generalizing p with
  | zero =>
    rw [hn, Nat.add_zero, Nat.sub_self]
    exact ⟨Nat.le_refl p, Nat.le_refl p, fun r hr hlt => absurd hr (Nat.not_le.2 hlt),
      fun hlt => absurd hlt (Nat.lt_irrefl p)⟩
  | succ n ih =>
    have hlt : p < d.buffer.lineEnd line := by omega
    have hrest := ih (p := p + 1) (Nat.le_succ_of_le hp) hlt (by omega)
    rw [columnBy_succ hd hline hp hlt] at hrest
    have hbehind : d.columnAfter width (d.columnBy width p) (d.buffer.charAt p) =
        d.columnBehind width p := rfl
    rw [show d.buffer.lineEnd line - p = d.buffer.lineEnd line - (p + 1) + 1 by omega,
      List.range'_succ, List.map_cons, findFrom, hbehind]
    by_cases hbeyond : target < d.columnBehind width p
    · rw [if_pos hbeyond]
      exact ⟨Nat.le_refl p, hle, fun r hr hlt => absurd hr (Nat.not_le.2 hlt), fun _ => hbeyond⟩
    · rw [if_neg hbeyond]
      exact hrest.of_succ (Nat.not_lt.1 hbeyond)

/-- **What is found on a line is the first character that reaches beyond the column.** -/
theorem findColumnBy_first (target : Nat) :
    FirstBeyond d width target (d.buffer.lineStart line) (d.buffer.lineEnd line)
      (d.findColumnBy width line target) := by
  have h : FirstBeyond d width target _ _ _ :=
    findFrom_first hd hline target (Nat.le_refl _) (hd.lineStart_le_lineEnd line)
  rw [columnBy_lineStart hd hline] at h
  rwa [findColumnBy, hd.toList_lineText, Buffer.lineLength]

/-- It is not shown behind the column. -/
theorem FirstBeyond.columnBy_le
    (h : FirstBeyond d width target (d.buffer.lineStart line) (d.buffer.lineEnd line) q) :
    d.columnBy width q ≤ target := by
  rcases Nat.lt_or_eq_of_le h.start_le with hlt | heq
  · obtain ⟨r, rfl⟩ : ∃ r, q = r + 1 := ⟨q - 1, by omega⟩
    rw [columnBy_succ hd hline (by omega) h.le_stop]
    exact h.before r (by omega) (Nat.lt_succ_self r)
  · rw [← heq, columnBy_lineStart hd hline]
    exact Nat.zero_le _

/-- **At the column of `p` the search passes what takes no room**, from `p` on, and only
    that. -/
theorem FirstBeyond.of_columnBy (ht : 0 < d.tabWidth) (hp : d.buffer.lineStart line ≤ p)
    (hle : p ≤ d.buffer.lineEnd line)
    (h : FirstBeyond d width (d.columnBy width p) (d.buffer.lineStart line)
      (d.buffer.lineEnd line) q) :
    p ≤ q ∧ d.columnBy width q = d.columnBy width p ∧
      ∀ r, p ≤ r → r < q → d.columnBehind width r = d.columnBy width r := by
  have hpq : p ≤ q := by
    by_contra hqp
    have hbeyond := h.beyond (by omega)
    rw [← columnBy_succ hd hline h.start_le (by omega)] at hbeyond
    exact absurd (columnBy_mono hd hline ht (Nat.le_succ_of_le h.start_le) (by omega) hle)
      (Nat.not_le.2 hbeyond)
  refine ⟨hpq, Nat.le_antisymm (h.columnBy_le hd hline)
    (columnBy_mono hd hline ht hp hpq h.le_stop), fun r hr hlt => ?_⟩
  have hbehind : d.columnBehind width r ≤ d.columnBy width p :=
    h.before r (Nat.le_trans hp hr) hlt
  have hcolumn : d.columnBy width p ≤ d.columnBy width r :=
    columnBy_mono hd hline ht hp hr (Nat.le_trans (Nat.le_of_lt hlt) h.le_stop)
  exact Nat.le_antisymm (Nat.le_trans hbehind hcolumn) (le_columnAfter ht _ _)

end

/-- **Columns and back**, in every document and for all widths of characters.  A tab width
    set is in force until another one is set, zero as one.  On each line the columns begin
    with zero, and go on behind each character: behind a tab with the next tab stop, and
    behind any other character with its width added, or nothing for one without a width.
    What is found at a column is on the line: the character that is shown there, or the end
    of the line when all that the line holds is shown before.  And what is found at the
    column of a position is shown there as well: it is the first from that position on that
    takes room, or the end of the line. -/
theorem findColumnBy_obey (width : Char → Option Nat) (text : Text) (commands : List Command) :
    let d := (Document.ofText text).obey commands
    let column := d.columnBy width
    d.tabWidth = (commands.filterMap Command.tabWidth?).foldl (fun _ width => max width 1) 8 ∧
    ∀ line < d.buffer.lineCount,
      let start := d.buffer.lineStart line
      let stop := d.buffer.lineEnd line
      (column start = 0 ∧ ∀ p, start ≤ p → p < stop →
        let behind := d.columnBehind width p
        column (p + 1) = behind ∧
          (d.buffer.charAt p = '\t' →
            column p < behind ∧ behind ≤ column p + d.tabWidth ∧ d.tabWidth ∣ behind) ∧
          (d.buffer.charAt p ≠ '\t' →
            behind = column p + (width (d.buffer.charAt p)).getD 0)) ∧
      (∀ target, let q := d.findColumnBy width line target
        start ≤ q ∧ q ≤ stop ∧
          (q = stop ∨ column q ≤ target ∧ target < d.columnBehind width q) ∧
          ∀ p, start ≤ p → p < q → d.columnBehind width p ≤ target) ∧
      ∀ p, start ≤ p → p ≤ stop → let q := d.findColumnBy width line (column p)
        p ≤ q ∧ q ≤ stop ∧ (q = stop ∨ column q < d.columnBehind width q) ∧
          (∀ r, p ≤ r → r < q → d.columnBehind width r = column r) ∧ column q = column p := by
  intro d column
  have hsound : (Document.ofText text).buffer.Sound := Buffer.sound_empty.load text
  have hd : d.buffer.Consistent := (tells_obey hsound commands).1.toConsistent
  have ht : 0 < d.tabWidth := tabWidth_pos hsound (Nat.zero_lt_succ 7) commands
  refine ⟨tabWidth_obey hsound commands, fun line hline => ?_⟩
  intro start stop
  refine ⟨⟨columnBy_lineStart hd hline, fun p hp hlt => ?_⟩, fun target => ?_, fun p hp hle => ?_⟩
  · intro behind
    refine ⟨columnBy_succ hd hline hp hlt, fun htab => ?_, fun hother => ?_⟩
    · have hnext : behind = d.columnAfter width (column p) '\t' :=
        congrArg (d.columnAfter width (column p)) htab
      rw [hnext]
      exact columnAfter_tab ht (column p)
    · exact columnAfter_of_ne hother (column p)
  · intro q
    have h : FirstBeyond d width target start stop q := findColumnBy_first hd hline target
    refine ⟨h.start_le, h.le_stop, ?_, h.before⟩
    rcases Nat.lt_or_eq_of_le h.le_stop with hlt | hstop
    · exact .inr ⟨h.columnBy_le hd hline, h.beyond hlt⟩
    · exact .inl hstop
  · intro q
    have h : FirstBeyond d width (column p) start stop q := findColumnBy_first hd hline (column p)
    obtain ⟨hpq, hcolumn, hbetween⟩ := h.of_columnBy hd hline ht hp hle
    refine ⟨hpq, h.le_stop, ?_, hbetween, hcolumn⟩
    rcases Nat.lt_or_eq_of_le h.le_stop with hlt | hstop
    · exact .inr (Nat.lt_of_le_of_lt (Nat.le_of_eq hcolumn) (h.beyond hlt))
    · exact .inl hstop

/-- On a line with two tabs, a wide character and a combining one, the tab width being
    three. -/
theorem findColumnBy_obey_combining :
    let commands : List Command := [.setTabWidth 0, .edit (.insert 0 (.ofString "ab\n")),
      .setTabWidth 3]
    let d := (Document.ofText (.ofString "\t名e\u0301z\tq")).obey commands
    1 < d.buffer.lineCount ∧ d.tabWidth = 3 ∧
      d.buffer.lineStart 1 = 3 ∧ d.buffer.lineEnd 1 = 10 ∧
      d.column 5 = d.column 4 + 2 ∧ (d.column 8 < d.column 9 ∧ 3 ∣ d.column 9) ∧
      (d.findColumn 1 4 = 4 ∧ d.column 4 ≤ 4 ∧ 4 < d.column 5) ∧
      d.findColumn 1 (d.column 6) = 7 ∧ d.column 7 = d.column 6 := by
  intro commands d
  have hline : 1 < d.buffer.lineCount := by decide +kernel
  have hstart : d.buffer.lineStart 1 = 3 := by decide +kernel
  have hstop : d.buffer.lineEnd 1 = 10 := by decide +kernel
  have hsign : d.buffer.charAt 4 = '名' := by decide +kernel
  have htwo : Unicode.width? '名' = some 2 := by decide +kernel
  have htab : d.buffer.charAt 8 = '\t' := by decide +kernel
  have hwide : d.findColumnBy Unicode.width? 1 4 = 4 := by decide +kernel
  have hcombining : d.findColumnBy Unicode.width? 1 (d.column 6) = 7 := by decide +kernel
  obtain ⟨hwidth, hlines⟩ :=
    findColumnBy_obey Unicode.width? (.ofString "\t名e\u0301z\tq") commands
  obtain ⟨⟨-, hnext⟩, hfind, hback⟩ := hlines 1 hline
  rw [hstart, hstop] at hnext hback
  rw [hstop] at hfind
  obtain ⟨hfive, -, hother⟩ := hnext 4 (by decide) (by decide)
  obtain ⟨hnine, hstops, -⟩ := hnext 8 (by decide) (by decide)
  obtain ⟨hless, -, hdvd⟩ := hstops htab
  rw [hsign, htwo] at hother
  obtain ⟨-, -, hshown, -⟩ := hfind 4
  rw [hwide, ← hfive] at hshown
  obtain ⟨-, -, -, -, hcolumn⟩ := hback 6 (by decide) (by decide)
  have hagain : d.columnBy Unicode.width? (d.findColumnBy Unicode.width? 1 (d.column 6)) =
      d.column 6 := hcolumn
  rw [hcombining] at hagain
  rw [← hnine] at hless hdvd
  rw [hwidth] at hdvd
  exact ⟨hline, hwidth, hstart, hstop, hfive.trans (hother (by decide)), ⟨hless, hdvd⟩,
    ⟨hwide, hshown.resolve_left (by decide)⟩, hcombining, hagain⟩

end StyledText.Document
