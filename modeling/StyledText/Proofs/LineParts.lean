/-
  A text is its lines, each with the characters that end it.

  Between the start of a line and the start of the next one no other line starts.  So
  the only characters there that end a line are the last one, or the last two, and to
  step back over these is to come to the end of what the line holds.

  * `Text.BreaksAt`: a line end stands at a position and reaches to another one;
  * `Buffer.lineBreak`: the characters that end a line of a buffer;
  * `Consistent.line`: a line holds no character that ends one, and a line end stands
    behind it, unless it is the last one;
  * `Consistent.lineOf_eq_iff`: the line of a position is the one that starts last
    before it;
  * `lines_of_text`: all of this, after any run.
-/
import StyledText.Proofs.LineLookup

namespace StyledText

/-! ## Line ends in a text -/

namespace Text

variable {t : Text} {start stop next q : Nat}

/-- **A line end stands at `stop`**, and the next line starts behind it. -/
inductive BreaksAt (t : Text) (stop : Nat) : Nat → Prop where
  /-- A carriage return and a line feed. -/
  | crlf (cr : t.charAt stop = '\r') (lf : t.charAt (stop + 1) = '\n') : BreaksAt t stop (stop + 2)
  /-- A line feed. -/
  | lf (lf : t.charAt stop = '\n') : BreaksAt t stop (stop + 1)
  /-- A carriage return that no line feed follows. -/
  | cr (cr : t.charAt stop = '\r') (next_ne : t.charAt (stop + 1) ≠ '\n') :
      BreaksAt t stop (stop + 1)

theorem isLineStart_succ_iff :
    t.isLineStart (q + 1) = true ↔
      t.charAt q = '\n' ∨ t.charAt q = '\r' ∧ t.charAt (q + 1) ≠ '\n' := by
  simp [isLineStart]

/-- A line end reaches to the start of the next line. -/
theorem BreaksAt.isLineStart (h : t.BreaksAt stop next) : t.isLineStart next = true := by
  cases h with
  | crlf _ lf => exact isLineStart_succ_iff.2 (.inl lf)
  | lf lf => exact isLineStart_succ_iff.2 (.inl lf)
  | cr cr next_ne => exact isLineStart_succ_iff.2 (.inr ⟨cr, next_ne⟩)

theorem BreaksAt.lt (h : t.BreaksAt stop next) : stop < next := by
  cases h <;> omega

/-- The characters of a line end. -/
theorem BreaksAt.toList_extract (h : t.BreaksAt stop next) (hle : next ≤ t.length) :
    (t.extract stop next).toList = ['\r', '\n'] ∨ (t.extract stop next).toList = ['\n'] ∨
      (t.extract stop next).toList = ['\r'] ∧ t.charAt next ≠ '\n' := by
  rw [toList_extract_eq_map hle]
  cases h with
  | crlf cr lf =>
    left
    rw [Nat.add_sub_cancel_left]
    exact congrArg₂ (fun c d => [c, d]) cr lf
  | lf lf =>
    right; left
    rw [Nat.add_sub_cancel_left]
    exact congrArg (fun c => [c]) lf
  | cr cr next_ne =>
    right; right
    rw [Nat.add_sub_cancel_left]
    exact ⟨congrArg (fun c => [c]) cr, next_ne⟩

/-- **Where no line starts, no line ends**, but that a line feed which is the last
    character may have a carriage return before it. -/
theorem crlf_of_isLineBreak (hnone : ∀ x, start < x → x < next → t.isLineStart x = false)
    (hq : start ≤ q) (hlt : q + 1 < next) (hb : isLineBreak (t.charAt q) = true) :
    t.charAt q = '\r' ∧ t.charAt (q + 1) = '\n' ∧ q + 2 = next := by
  have hhere : ¬ t.isLineStart (q + 1) = true := by
    rw [hnone (q + 1) (by omega) hlt]
    exact Bool.false_ne_true
  rw [isLineStart_succ_iff, not_or, not_and_not_right] at hhere
  obtain ⟨hlf, hcr⟩ := hhere
  have hcr' : t.charAt q = '\r' := (isLineBreak_iff.1 hb).resolve_left hlf
  have hbehind : t.isLineStart (q + 2) = true := isLineStart_succ_iff.2 (.inl (hcr hcr'))
  refine ⟨hcr', hcr hcr', ?_⟩
  by_contra hne
  rw [hnone (q + 2) (by omega) (by omega)] at hbehind
  exact Bool.false_ne_true hbehind

/-- Up to the end of the text there is none at all. -/
theorem not_isLineBreak_of_none
    (hnone : ∀ x, start < x → x ≤ t.length → t.isLineStart x = false)
    (hq : start ≤ q) (hlt : q < t.length) : isLineBreak (t.charAt q) = false := by
  have hbelow : ∀ x, start < x → x < t.length + 1 → t.isLineStart x = false :=
    fun x hx hle => hnone x hx (Nat.le_of_lt_succ hle)
  by_contra hb
  obtain ⟨-, hlf, hend⟩ := crlf_of_isLineBreak hbelow hq (by omega) (Bool.not_eq_false _ ▸ hb)
  rw [charAt_of_length_le (by omega)] at hlf
  exact absurd hlf (by decide)

end Text

/-! ## Stepping back over a line end -/

namespace Buffer

variable {b : Buffer} {i j p q start next : Nat}

/-- **To step back over the line end is to come to the end of what the line holds.** -/
theorem beforeLineEnd_spec (hlt : start < next) (hnext : b.text.isLineStart next = true)
    (hnone : ∀ x, start < x → x < next → b.text.isLineStart x = false) :
    start ≤ b.beforeLineEnd start next ∧ b.text.BreaksAt (b.beforeLineEnd start next) next ∧
      ∀ q, start ≤ q → q < b.beforeLineEnd start next → isLineBreak (b.charAt q) = false := by
  obtain ⟨k, rfl⟩ : ∃ k, next = k + 1 := ⟨next - 1, by omega⟩
  -- What else could end a line before `k` is the carriage return of a line feed at `k`.
  have hclean : ∀ q, start ≤ q → q < k → isLineBreak (b.charAt q) = true →
      b.charAt q = '\r' ∧ b.charAt (q + 1) = '\n' ∧ q + 1 = k := by
    intro q hq hqk hb
    obtain ⟨hcr, hlf, hend⟩ := Text.crlf_of_isLineBreak hnone hq (by omega) hb
    exact ⟨hcr, hlf, by omega⟩
  have hk : b.charAt k = '\n' ∨ b.charAt k = '\r' ∧ b.charAt (k + 1) ≠ '\n' :=
    Text.isLineStart_succ_iff.1 hnext
  have hbreak : isLineBreak (b.charAt k) = true := by
    rcases hk with hlf | ⟨hcr, -⟩
    · exact isLineBreak_iff.2 (.inl hlf)
    · exact isLineBreak_iff.2 (.inr hcr)
  rw [beforeLineEnd, Nat.add_sub_cancel, if_pos ⟨hlt, hbreak⟩, show k + 1 - 2 = k - 1 by omega]
  split_ifs with hpair
  · obtain ⟨hsk, hlf, hcr⟩ := hpair
    obtain ⟨m, rfl⟩ : ∃ m, k = m + 1 := ⟨k - 1, by omega⟩
    refine ⟨by omega, .crlf hcr hlf, fun q hq hqm => ?_⟩
    by_contra hb
    obtain ⟨-, -, hend⟩ := hclean q hq (by omega) (Bool.not_eq_false _ ▸ hb)
    omega
  · refine ⟨by omega, ?_, fun q hq hqk => ?_⟩
    · rcases hk with hlf | ⟨hcr, hne⟩
      · exact .lf hlf
      · exact .cr hcr hne
    · by_contra hb
      obtain ⟨hcr, hlf, rfl⟩ := hclean q hq hqk (Bool.not_eq_false _ ▸ hb)
      exact hpair ⟨by omega, hlf, by rwa [Nat.add_sub_cancel]⟩

/-! ## The starts of the lines, in order -/

theorem lineStart_of_lt (hi : i < b.lineCount) : b.lineStart i = b.lines.starts[i] := by
  rw [lineStart, LineTable.start?, List.getElem?_eq_getElem hi, Option.getD_some]

theorem lineStart_of_le (hi : b.lineCount ≤ i) : b.lineStart i = b.length := by
  rw [lineStart, LineTable.start?, List.getElem?_eq_none hi, Option.getD_none]

namespace Consistent

theorem mem_starts (h : b.Consistent) :
    p ∈ b.lines.starts ↔ p = 0 ∨ p ≤ b.length ∧ b.text.isLineStart p = true := by
  rw [h.lines_eq]
  exact LineTable.mem_ofText

theorem lineCount_pos (h : b.Consistent) : 0 < b.lineCount := by
  rw [lineCount, LineTable.count, h.lines_eq]
  exact Nat.succ_pos _

theorem lineStart_zero (h : b.Consistent) : b.lineStart 0 = 0 := by
  rw [lineStart, h.lines_eq]
  rfl

theorem lineStart_lt (h : b.Consistent) (hij : i < j) (hj : j < b.lineCount) :
    b.lineStart i < b.lineStart j := by
  have ha : b.lines.starts.Pairwise (· < ·) := by
    rw [h.lines_eq]
    exact LineTable.ascending_ofText _
  rw [lineStart_of_lt (Nat.lt_trans hij hj), lineStart_of_lt hj]
  exact List.pairwise_iff_getElem.1 ha i j _ hj hij

theorem lineStart_le_length (h : b.Consistent) (i : Nat) : b.lineStart i ≤ b.length := by
  rcases Nat.lt_or_ge i b.lineCount with hi | hi
  · rw [lineStart_of_lt hi]
    rcases h.mem_starts.1 (List.getElem_mem hi) with hzero | ⟨hle, -⟩
    · omega
    · exact hle
  · exact Nat.le_of_eq (lineStart_of_le hi)

theorem lineStart_mono (h : b.Consistent) : Monotone b.lineStart := by
  intro i j hij
  rcases Nat.lt_or_ge j b.lineCount with hj | hj
  · rcases Nat.lt_or_eq_of_le hij with hlt | rfl
    · exact Nat.le_of_lt (h.lineStart_lt hlt hj)
    · exact Nat.le_refl _
  · rw [lineStart_of_le hj]
    exact h.lineStart_le_length i

/-- A line that is not the first one starts behind a line end. -/
theorem isLineStart_lineStart (h : b.Consistent) (hi : i + 1 < b.lineCount) :
    b.text.isLineStart (b.lineStart (i + 1)) = true := by
  have hpos := h.lineStart_lt (Nat.lt_succ_self i) hi
  rw [lineStart_of_lt hi] at hpos ⊢
  rcases h.mem_starts.1 (List.getElem_mem hi) with hzero | ⟨-, hstart⟩
  · omega
  · exact hstart

/-- **Between the start of a line and the start of the next one, no line starts.** -/
theorem isLineStart_eq_false (h : b.Consistent) (hp : b.lineStart i < p)
    (hnext : i + 1 < b.lineCount → p < b.lineStart (i + 1)) (hle : p ≤ b.length) :
    b.text.isLineStart p = false := by
  by_contra hstart
  obtain ⟨k, hk, hpk⟩ := List.getElem_of_mem
    (h.mem_starts.2 (.inr ⟨hle, Bool.not_eq_false _ ▸ hstart⟩))
  rw [← lineStart_of_lt hk] at hpk
  subst hpk
  rcases Nat.lt_or_ge i k with hik | hki
  · exact absurd (hnext (Nat.lt_of_le_of_lt hik hk)) (Nat.not_lt.2 (h.lineStart_mono hik))
  · exact absurd hp (Nat.not_lt.2 (h.lineStart_mono hki))

/-! ## What a line holds -/

/-- **A line that is not the last one.**  It holds no character that ends a line, and a
    line end stands between it and the next line. -/
theorem line (h : b.Consistent) (hi : i + 1 < b.lineCount) :
    b.lineStart i ≤ b.lineEnd i ∧ b.text.BreaksAt (b.lineEnd i) (b.lineStart (i + 1)) ∧
      ∀ q, b.lineStart i ≤ q → q < b.lineEnd i → isLineBreak (b.charAt q) = false := by
  have hend : b.lineEnd i = b.beforeLineEnd (b.lineStart i) (b.lineStart (i + 1)) := by
    rw [lineEnd, LineTable.start?, List.getElem?_eq_getElem hi, lineStart_of_lt hi]
  rw [hend]
  refine beforeLineEnd_spec (h.lineStart_lt (Nat.lt_succ_self i) hi) (h.isLineStart_lineStart hi)
    fun x hx hlt => ?_
  exact h.isLineStart_eq_false hx (fun _ => hlt)
    (Nat.le_trans (Nat.le_of_lt hlt) (h.lineStart_le_length _))

end Consistent

theorem lineEnd_of_le (hi : b.lineCount ≤ i + 1) : b.lineEnd i = b.length := by
  rw [lineEnd, LineTable.start?, List.getElem?_eq_none hi]

namespace Consistent

theorem lineStart_le_lineEnd (h : b.Consistent) (i : Nat) : b.lineStart i ≤ b.lineEnd i := by
  rcases Nat.lt_or_ge (i + 1) b.lineCount with hi | hi
  · exact (h.line hi).1
  · rw [lineEnd_of_le hi]
    exact h.lineStart_le_length i

theorem lineEnd_le_lineStart (h : b.Consistent) (i : Nat) : b.lineEnd i ≤ b.lineStart (i + 1) := by
  rcases Nat.lt_or_ge (i + 1) b.lineCount with hi | hi
  · exact Nat.le_of_lt (h.line hi).2.1.lt
  · rw [lineEnd_of_le hi, lineStart_of_le hi]

/-- **No line holds a character that ends one.** -/
theorem isLineBreak_eq_false (h : b.Consistent) (hq : b.lineStart i ≤ q) (hlt : q < b.lineEnd i) :
    isLineBreak (b.charAt q) = false := by
  rcases Nat.lt_or_ge (i + 1) b.lineCount with hi | hi
  · exact (h.line hi).2.2 q hq hlt
  · rw [lineEnd_of_le hi] at hlt
    refine Text.not_isLineBreak_of_none (fun x hx hle => ?_) hq hlt
    exact h.isLineStart_eq_false hx (fun hmore => absurd hi (Nat.not_le.2 hmore)) hle

end Consistent

/-! ## The text, line by line -/

/-- The characters that end `line`: what stands between it and the next one. -/
def lineBreak (b : Buffer) (line : Nat) : List Char :=
  (b.text.extract (b.lineEnd line) (b.lineStart (line + 1))).toList

theorem lineBreak_of_le (hi : b.lineCount ≤ i + 1) : b.lineBreak i = [] := by
  rw [lineBreak, lineEnd_of_le hi, lineStart_of_le hi, Text.toList_extract, Nat.sub_self,
    List.take_zero]

namespace Consistent

theorem lineStart_add_lineLength (h : b.Consistent) (i : Nat) :
    b.lineStart i + b.lineLength i = b.lineEnd i :=
  Nat.add_sub_cancel' (h.lineStart_le_lineEnd i)

/-- The text of a line stands from its start to its end. -/
theorem lineText_eq (h : b.Consistent) (i : Nat) :
    b.lineText i = b.text.extract (b.lineStart i) (b.lineEnd i) := by
  rw [lineText, range, h.lineStart_add_lineLength]

theorem lineEnd_le_length (h : b.Consistent) (i : Nat) : b.lineEnd i ≤ b.length :=
  Nat.le_trans (h.lineEnd_le_lineStart i) (h.lineStart_le_length _)

/-- A line is spelled by the characters from its start on. -/
theorem toList_lineText (h : b.Consistent) (i : Nat) :
    (b.lineText i).toList = (List.range' (b.lineStart i) (b.lineLength i)).map b.charAt := by
  rw [h.lineText_eq, Text.toList_extract_eq_map (h.lineEnd_le_length i)]
  rfl

theorem lineText_append_lineBreak (h : b.Consistent) (i : Nat) :
    (b.lineText i).toList ++ b.lineBreak i =
      (b.text.extract (b.lineStart i) (b.lineStart (i + 1))).toList := by
  rw [h.lineText_eq, lineBreak]
  exact Text.toList_extract_append (h.lineStart_le_lineEnd i) (h.lineEnd_le_lineStart i)

/-- **The first `n` lines, with their ends, are the text before the next one.** -/
theorem flatMap_lines (h : b.Consistent) (n : Nat) :
    (List.range n).flatMap (fun i => (b.lineText i).toList ++ b.lineBreak i) =
      (b.text.extract 0 (b.lineStart n)).toList := by
  induction n with
  | zero =>
    rw [h.lineStart_zero, Text.toList_extract]
    rfl
  | succ n ih =>
    rw [List.range_succ, List.flatMap_append, List.flatMap_singleton, ih,
      h.lineText_append_lineBreak]
    exact Text.toList_extract_append (Nat.zero_le _) (h.lineStart_mono (Nat.le_succ n))

/-! ## The line of a position -/

/-- **The line of a position is the one that starts last before it.** -/
theorem lineOf_eq_iff (h : b.Consistent) (hp : p ≤ b.length) :
    b.lineOf p = i ↔ b.lineStart i ≤ p ∧ (i + 1 = b.lineCount ∨ p < b.lineStart (i + 1)) := by
  have hof : b.lineOf p < b.lineCount := by
    obtain ⟨start, hstart, -⟩ := LineTable.start?_lineAt b.text p
    rw [lineOf, Nat.min_eq_left hp, lineCount, h.lines_eq]
    exact (List.getElem?_eq_some_iff.1 hstart).1
  obtain ⟨-, hle, hmax⟩ := h.lineStart_lineOf hp
  rw [← h.lines_eq] at hmax
  -- A later line starts behind `p`.
  have hlater : ∀ k, b.lineOf p < k → k < b.lineCount → p < b.lineStart k := by
    intro k hk hcount
    by_contra hkp
    have hlast : b.lineStart k ≤ b.lineStart (b.lineOf p) :=
      hmax _ (lineStart_of_lt hcount ▸ List.getElem_mem hcount) (Nat.not_lt.1 hkp)
    exact absurd (h.lineStart_lt hk hcount) (Nat.not_lt.2 hlast)
  constructor
  · rintro rfl
    refine ⟨hle, ?_⟩
    rcases Nat.lt_or_eq_of_le (Nat.succ_le_of_lt hof) with hmore | hlast
    · exact .inr (hlater _ (Nat.lt_succ_self _) hmore)
    · exact .inl hlast
  · rintro ⟨hstart, hnext⟩
    have hi : i < b.lineCount := by
      by_contra hpast
      have hpast : b.lineCount ≤ i := Nat.not_lt.1 hpast
      rw [lineStart_of_le hpast] at hstart
      rw [lineStart_of_le (Nat.le_succ_of_le hpast)] at hnext
      omega
    rcases Nat.lt_trichotomy (b.lineOf p) i with hlt | heq | hgt
    · exact absurd (hlater i hlt hi) (Nat.not_lt.2 hstart)
    · exact heq
    · have hmono : b.lineStart (i + 1) ≤ b.lineStart (b.lineOf p) := h.lineStart_mono hgt
      omega

/-- Past the end of the text is the last line. -/
theorem lineOf_of_length_le (h : b.Consistent) (hp : b.length ≤ p) :
    b.lineOf p = b.lineCount - 1 := by
  have hpos := h.lineCount_pos
  have hlast : b.lineOf b.length = b.lineCount - 1 :=
    (h.lineOf_eq_iff (Nat.le_refl _)).2 ⟨h.lineStart_le_length _, .inl (by omega)⟩
  rwa [lineOf, Nat.min_self, ← Nat.min_eq_right hp, ← lineOf] at hlast

end Consistent

/-- **A buffer is its lines**, after any run.  The lines, each with the characters that
    end it, make up the text.  These are one line end, whole and no more, and behind the
    last line there are none.  No line holds a line feed or a carriage return, each has
    its length, and each position is on just that line which starts at it or before it,
    with no other line starting in between; past the end is the last line. -/
theorem lines_of_text (ops : List Op) :
    let b := empty.run ops
    0 < b.lineCount ∧
    (List.range b.lineCount).flatMap (fun i => (b.lineText i).toList ++ b.lineBreak i) =
      b.text.toList ∧
    (∀ i, i + 1 < b.lineCount → b.lineBreak i = ['\r', '\n'] ∨ b.lineBreak i = ['\n'] ∨
      b.lineBreak i = ['\r'] ∧ b.charAt (b.lineStart (i + 1)) ≠ '\n') ∧
    b.lineBreak (b.lineCount - 1) = [] ∧
    (∀ i, ∀ c ∈ (b.lineText i).toList, c ≠ '\n' ∧ c ≠ '\r') ∧
    (∀ i, b.lineStart i + b.lineLength i = b.lineEnd i) ∧
    (∀ p ≤ b.length, ∀ i, b.lineOf p = i ↔
      b.lineStart i ≤ p ∧ (i + 1 = b.lineCount ∨ p < b.lineStart (i + 1))) ∧
    ∀ p, b.length < p → b.lineOf p = b.lineCount - 1 := by
  intro b
  have h : b.Consistent := (sound_empty.run ops).toConsistent
  refine ⟨h.lineCount_pos, ?_, fun i hi => ?_, lineBreak_of_le (by omega), fun i c hc => ?_,
    h.lineStart_add_lineLength, fun p hp i => h.lineOf_eq_iff hp,
    fun p hp => h.lineOf_of_length_le (Nat.le_of_lt hp)⟩
  · rw [h.flatMap_lines, lineStart_of_le (Nat.le_refl _), Text.toList_extract, List.drop_zero]
    exact List.take_of_length_le (Nat.le_of_eq (Text.length_toList _))
  · exact (h.line hi).2.1.toList_extract (h.lineStart_le_length _)
  · rw [h.toList_lineText] at hc
    obtain ⟨q, hq, rfl⟩ := List.mem_map.1 hc
    rw [List.mem_range'_1, h.lineStart_add_lineLength] at hq
    exact StyledText.isLineBreak_eq_false.1 (h.isLineBreak_eq_false hq.1 hq.2)

-- Line ends of each kind, one right behind the other, and one at the end.
example :
    let b := Buffer.ofText (.ofList ['a', '\r', '\r', '\n', '\n', '\r', 'b', '\n'])
    (List.range b.lineCount).map (fun i => ((b.lineText i).toList, b.lineBreak i)) =
      [(['a'], ['\r']), ([], ['\r', '\n']), ([], ['\n']), ([], ['\r']), (['b'], ['\n']),
        ([], [])] := by
  decide

end Buffer

end StyledText
