/-
  Going on from the start of a line.

  At the start of a line a scan knows no more than a scan that opens there: the
  style of the character before, and whether a slash may begin a regular
  expression.  What a scan has styled before the start of a line has nothing to
  do with what follows.

  * `Text.JoinsInto`: a line is joined to the one before it;
  * `Window.matches_of_agree` and `Window.matches_of_text_eq`: windows on texts
    that are the same up to the start of a line, or throughout;
  * `Scan.Poised`: two scans on the start of a line that may go on alike;
  * `Poised.sameOutcome`: they have the same outcome from there on;
  * `Landed.poised_ofWindow`: a scan that opens at the start of a line may go on
    as one that has come there.
-/
import StyledText.Proofs.LineLookup
import StyledText.Proofs.TwoScans

namespace StyledText

/-- The line before `p` ends in a backslash, which joins the line at `p` to it. -/
def Text.JoinsInto (t : Text) (p : Nat) : Prop :=
  (2 ≤ p ∧ t.charAt (p - 2) = '\\' ∧ isLineBreak (t.charAt (p - 1)) = true) ∨
    3 ≤ p ∧ t.charAt (p - 3) = '\\' ∧ t.charAt (p - 2) = '\r' ∧ t.charAt (p - 1) = '\n'

instance (t : Text) (p : Nat) : Decidable (t.JoinsInto p) := inferInstanceAs (Decidable (_ ∨ _))

/-- The first line is joined to none. -/
theorem Text.not_joinsInto_zero (t : Text) : ¬ t.JoinsInto 0 := by
  rintro (⟨hpos, -⟩ | ⟨hpos, -⟩) <;> exact absurd hpos (by decide)

/-- What joins the line at `p` stands before it. -/
theorem Text.joinsInto_congr {t t' : Text} {p : Nat} (hagree : ∀ q < p, t'.charAt q = t.charAt q) :
    t'.JoinsInto p ↔ t.JoinsInto p := by
  refine or_congr (and_congr_right fun hp => ?_) (and_congr_right fun hp => ?_)
  · rw [hagree (p - 2) (by omega), hagree (p - 1) (by omega)]
  · rw [hagree (p - 3) (by omega), hagree (p - 2) (by omega), hagree (p - 1) (by omega)]

/-- No line goes on behind a backslash at its end. -/
def Text.Uncontinued (t : Text) : Prop :=
  ∀ q, t.charAt q = '\\' → isLineBreak (t.charAt (q + 1)) = false

/-- Past the end there is no backslash. -/
theorem Text.uncontinued_iff {t : Text} : t.Uncontinued ↔
    ∀ q < t.length, t.charAt q = '\\' → isLineBreak (t.charAt (q + 1)) = false := by
  constructor
  · exact fun h q _ => h q
  · intro h q hc
    rcases Nat.lt_or_ge q t.length with hlt | hge
    · exact h q hlt hc
    · rw [charAt_of_length_le hge] at hc
      exact absurd hc (by decide)

instance (t : Text) : Decidable t.Uncontinued := decidable_of_iff _ Text.uncontinued_iff.symm

theorem Text.Uncontinued.not_joinsInto {t : Text} (h : t.Uncontinued) (p : Nat) :
    ¬ t.JoinsInto p := by
  rintro (⟨hp, hmark, hbreak⟩ | ⟨hp, hmark, hcr, -⟩)
  · have hnext := h _ hmark
    rw [show p - 2 + 1 = p - 1 by omega, hbreak] at hnext
    cases hnext
  · have hnext := h _ hmark
    rw [show p - 3 + 1 = p - 2 by omega, hcr] at hnext
    cases hnext

/-! ## Windows on a text -/

namespace Window

variable {b b' : Buffer} {start start' n n' p q : Nat}

@[simp] theorem source_ofBuffer : (ofBuffer b start n).source = b := rfl

@[simp] theorem pending_ofBuffer : (ofBuffer b start n).pending = #[] := rfl

theorem start_ofBuffer (h : start ≤ b.length) : (ofBuffer b start n).start = start :=
  Nat.min_eq_left h

theorem stop_ofBuffer (h : start + n ≤ b.length) : (ofBuffer b start n).stop = start + n := by
  show min (min start b.length + n) b.length = start + n
  omega

theorem stop_ofBuffer_le : (ofBuffer b start n).stop ≤ b.length := Nat.min_le_right _ _

theorem cache_ofBuffer : (ofBuffer b start n).cache = b.text.chars.extract
    (ofBuffer b start n).start (min ((ofBuffer b start n).stop + lookahead) b.length) := rfl

theorem charAt_ofBuffer : (ofBuffer b start n).charAt q = b.charAt q := by
  rw [charAt, source_ofBuffer]
  by_cases hq : (ofBuffer b start n).start ≤ q
  · rw [if_pos hq, cache_ofBuffer, Array.getElem?_extract]
    split
    · rw [Nat.add_sub_cancel' hq]
      cases hc : b.text.chars[q]? with
      | none => rfl
      | some c => simp [Buffer.charAt, Text.charAt, hc]
    · rfl
  · rw [if_neg hq]

theorem charOrSpace_ofBuffer_of_lt (hq : q < b.length) :
    (ofBuffer b start n).charOrSpace q = b.charAt q := by
  rw [charOrSpace, charOr_of_lt hq, charAt_ofBuffer]

theorem charOrSpace_ofBuffer_of_le (hq : b.length ≤ q) :
    (ofBuffer b start n).charOrSpace q = ' ' := by
  rw [charOrSpace, charOr, charAt_ofBuffer, if_pos ⟨Text.charAt_of_length_le hq, hq⟩]

/-- A window ends its lines where the text does. -/
theorem endsLine_ofBuffer (h : b.text.isLineStart (q + 1) = true)
    (hq : q < (ofBuffer b start n).stop) : (ofBuffer b start n).EndsLine q := by
  have hlen : q < b.length := Nat.lt_of_lt_of_le hq stop_ofBuffer_le
  have hchar : (ofBuffer b start n).charOrSpace q = b.charAt q := charOrSpace_ofBuffer_of_lt hlen
  have hnext : (ofBuffer b start n).charOrSpace (q + 1) = '\n' →
      q + 1 < b.length ∧ b.charAt (q + 1) = '\n' := by
    intro hlf
    rcases Nat.lt_or_ge (q + 1) b.length with hlt | hge
    · rw [charOrSpace_ofBuffer_of_lt hlt] at hlf
      exact ⟨hlt, hlf⟩
    · rw [charOrSpace_ofBuffer_of_le hge] at hlf
      exact absurd hlf (by decide)
  obtain ⟨-, hc | ⟨hc, hn⟩⟩ := Text.isLineStart_iff.1 h
  · have hc : b.charAt q = '\n' := hc
    refine ⟨hq, ?_, ?_⟩
    · simp [Cursor.endsLine, hchar, hc]
    · rw [hchar, hc]
      rfl
  · have hc : b.charAt q = '\r' := hc
    refine ⟨hq, ?_, ?_⟩
    · simp only [Cursor.endsLine, hchar, hc, beq_self_eq_true, Bool.true_and, Bool.or_eq_true,
        bne_iff_ne]
      exact Or.inl (Or.inl fun hlf => hn (hnext hlf))
    · rw [hchar, hc]
      rfl

/-- **Windows on texts that are the same up to the start of a line** show the same
    before it, whatever follows, if the line is not joined to the one before. -/
theorem matches_of_agree (hp : b.text.isLineStart p = true) (hp' : b'.text.isLineStart p = true)
    (hagree : ∀ q < p, b'.charAt q = b.charAt q) (hcont : ¬ b.text.JoinsInto p)
    (hstop : p ≤ (ofBuffer b start n).stop) (hstop' : p ≤ (ofBuffer b' start' n').stop) :
    (ofBuffer b start n).Matches (some p) (ofBuffer b' start' n') where
  char_eq := by
    intro q hq
    have hq := hq p rfl
    rw [charOrSpace_ofBuffer_of_lt (Nat.lt_of_lt_of_le hq (Nat.le_trans hstop stop_ofBuffer_le)),
      charOrSpace_ofBuffer_of_lt (Nat.lt_of_lt_of_le hq (Nat.le_trans hstop' stop_ofBuffer_le)),
      hagree q hq]
  stop_eq h := nomatch h
  ends := by
    rintro _ ⟨⟩
    obtain ⟨q, rfl⟩ := Nat.exists_eq_add_one.2 (Text.isLineStart_iff.1 hp).1
    exact ⟨q, rfl, endsLine_ofBuffer hp hstop, endsLine_ofBuffer hp' hstop'⟩
  unjoined := by
    rintro _ ⟨⟩ q hmark hbreak
    have hlen : p ≤ b.length := Nat.le_trans hstop stop_ofBuffer_le
    have hchar {k : Nat} (hk : k < p) : (ofBuffer b start n).charOrSpace k = b.text.charAt k :=
      charOrSpace_ofBuffer_of_lt (Nat.lt_of_lt_of_le hk hlen)
    refine ⟨?_, fun hcr hlf => ?_⟩
    · rintro rfl
      rw [hchar (by omega)] at hmark hbreak
      exact hcont (.inl ⟨Nat.le_add_left 2 q, hmark, hbreak⟩)
    · rintro rfl
      rw [hchar (by omega)] at hmark hcr hlf
      exact hcont (.inr ⟨Nat.le_add_left 3 q, hmark, hcr, hlf⟩)
  stop_le := stop_ofBuffer_le
  stop_le' := stop_ofBuffer_le

/-- **Windows on one text that end at the same place** show the same. -/
theorem matches_of_text_eq (ht : b'.text = b.text)
    (hstop : (ofBuffer b' start' n').stop = (ofBuffer b start n).stop) :
    (ofBuffer b start n).Matches none (ofBuffer b' start' n') where
  char_eq := by
    intro q _
    have hchar : b'.charAt q = b.charAt q := congrArg (Text.charAt · q) ht
    have hlen : b'.length = b.length := congrArg Text.length ht
    rcases Nat.lt_or_ge q b.length with hlt | hge
    · rw [charOrSpace_ofBuffer_of_lt hlt, charOrSpace_ofBuffer_of_lt (hlen ▸ hlt), hchar]
    · rw [charOrSpace_ofBuffer_of_le hge, charOrSpace_ofBuffer_of_le (hlen ▸ hge)]
  stop_eq _ := hstop
  ends := by
    intro b hb
    exact absurd hb (Option.not_mem_none b)
  unjoined := by
    intro b hb
    exact absurd hb (Option.not_mem_none b)
  stop_le := stop_ofBuffer_le
  stop_le' := stop_ofBuffer_le

end Window

namespace CFamily

/-! ## Going on from the start of a line -/

namespace Scan

variable {d : Dialect} {limit : Option Nat} {b start : Nat} {s t : Scan}

/-- **Two scans on the start of the line at `b` that may go on alike**: what they
    have styled from `start` on is the same, and a slash begins a regular
    expression in both or in none. -/
structure Poised (b start : Nat) (s t : Scan) : Prop extends Arrived b start s t where
  permits_eq : permitsRegex t.memory.lastVisible = permitsRegex s.memory.lastVisible
  includes_eq : t.includes.filter (start ≤ ·.start) = s.includes.filter (start ≤ ·.start)

theorem Landed.sees (h : Landed b s) : s.cursor.Sees where
  ch_eq _ := by rw [h.ch_eq, h.pos_eq]
  next_eq _ := by rw [h.next_eq, h.pos_eq]
  atLineEnd_eq _ := by rw [h.atLineEnd_eq, h.pos_eq]

theorem Landed.beginLine_eq (h : Landed b s) :
    s.beginLine = s.remember fun m =>
      { m with visible := 0, afterUuid := false, inInclude := false } := by
  have hquiet := not_remembersBeginning h.settled
  rw [beginLine, if_pos h.atLineStart, if_neg]
  rintro (hs | hs) <;> exact absurd hquiet (by rw [hs]; decide)

namespace Poised

/-- **At the start of a line nothing else is remembered**: the scans are alike
    there. -/
theorem alike (h : Poised b start s t) (hw : s.cursor.window.Matches limit t.cursor.window)
    (hb : Before limit b) : Alike limit start s.beginLine t.beginLine := by
  have hs := h.landed
  have ht := h.landed'
  have habreast : s.cursor.Abreast limit t.cursor :=
    { windows := hw
      before := by rwa [hs.pos_eq]
      pos_eq := by rw [ht.pos_eq, hs.pos_eq]
      state_eq := h.state_eq
      prev_eq := by rw [ht.prev_eq, hs.prev_eq, hw.char_eq _ (hb.mono (Nat.sub_le b 1))]
      ch_eq := by rw [ht.ch_eq, hs.ch_eq, hw.char_eq _ hb]
      next_eq := by
        intro hb'
        rw [hs.pos_eq] at hb'
        rw [ht.next_eq, hs.next_eq, hw.char_eq _ hb']
      atLineStart_eq := by rw [ht.atLineStart, hs.atLineStart]
      atLineEnd_eq := by
        rw [ht.atLineEnd_eq, hs.atLineEnd_eq]
        exact hw.endsLine_eq hb
      sees := hs.sees
      sees' := ht.sees }
  rw [hs.beginLine_eq, ht.beginLine_eq]
  exact
    { abreast := habreast
      painted := h.painted
      continued_eq := ht.continued.trans hs.continued.symm
      visible_eq := rfl
      afterUuid_eq := rfl
      inInclude_eq := rfl
      permits_eq := h.permits_eq
      recalls := .of_not (not_remembersBeginning hs.settled)
      includes_eq := h.includes_eq }

/-- **Scans that are poised at the start of a line have the same outcome.** -/
theorem sameOutcome (h : Poised b start s t)
    (hw : s.cursor.window.Matches none t.cursor.window) (hm : s.Tidy) (hm' : t.Tidy) :
    SameOutcome start (s.complete d) (t.complete d) := by
  have halike := h.alike hw (before_none b)
  by_cases inside : s.cursor.pos < s.cursor.window.stop
  · exact halike.complete hm inside
  · -- The line is the empty one behind the end of the text.
    have hset := h.landed.settled
    have hset' := h.landed'.settled
    have outside' := mt halike.inside_iff_of_beginLine.1 inside
    rw [complete, complete, run_of_outside inside, run_of_outside outside',
      closeWord_of_settled hm hset, closeWord_of_settled hm' hset']
    exact .finish h.painted (by rw [h.landed.pos_eq, h.landed'.pos_eq]) h.state_eq h.includes_eq
      (Nat.not_lt.1 inside)

end Poised

/-- Closing the open run at the start of a line changes nothing. -/
theorem Landed.poised_switchTo (h : Landed b s) (hc : Covers s.cursor)
    (hb : s.cursor.window.start < b) :
    Poised b s.cursor.window.start s (s.switchTo s.style) := by
  have hcode : s.style.code = s.cursor.state := hc.code_ofCode
  have hpos := h.pos_eq
  have hshown : ∀ q, s.cursor.window.start ≤ q → q < b →
      (s.switchTo s.style).cursor.shown q = s.cursor.shown q := by
    intro q hq hlt
    exact Cursor.shown_switchTo hq (by omega) hc.pos_le
  have hlanded' : Landed b (s.switchTo s.style) :=
    { h with
      settled := by
        rw [style_switchTo]
        exact h.settled
      shown_eq := by
        rw [hshown _ (by omega) (by omega), h.shown_eq]
        exact hcode.symm }
  have hpainted : Painted s.cursor.window.start s.cursor (s.switchTo s.style).cursor :=
    { covers := hc
      covers' := hc.switchTo s.style
      start_le := Nat.le_refl _
      start_le' := Nat.le_refl _
      run_eq htent := absurd htent (Bool.eq_false_iff.1 (Style.not_isTentative h.settled))
      shown_eq := fun q hq hlt => hshown q hq (hpos ▸ hlt) }
  exact
    { landed := h
      landed' := hlanded'
      state_eq := hcode
      painted := hpainted
      permits_eq := rfl
      includes_eq := rfl }

/-- **What is shown behind the start of a line stays**, whatever follows. -/
theorem Landed.committed?_complete (h : Landed b s) (hm : s.Tidy) (hc : Covers s.cursor)
    (hw : s.cursor.window.Matches none s.cursor.window) {q : Nat}
    (hq : s.cursor.window.start ≤ q) (hlt : q < b) :
    (s.complete d).cursor.window.committed? q = some (s.cursor.shown q) := by
  have hpos := h.pos_eq
  -- Closing the open run commits what is shown, and leads to the same outcome.
  have hmove : Reaches s.cursor (s.switchTo s.style).cursor := Reaches.refl.switchTo s.style
  have hsame : SameOutcome s.cursor.window.start (s.complete d) ((s.switchTo s.style).complete d) :=
    (h.poised_switchTo hc (Nat.lt_of_le_of_lt hq hlt)).sameOutcome (Reaches.refl.matches hmove hw)
      hm (hm.move hmove hm.sane rfl rfl)
  have hstop : q < (s.complete d).cursor.window.stop := by
    have := hc.pos_le
    rw [stop_complete]
    omega
  rw [← hsame.committed?_eq q hq hstop]
  exact Scan.committed?_complete .refl (Cursor.committed?_close hq (by omega) hc.pos_le)

end Scan

/-! ## Scans that open at the start of a line -/

section Opening

variable {settings : Settings} {d : Dialect} {b b' : Buffer} {p n n' : Nat} {style : Style}

theorem reopen_of_settled {w : Window} (h : style.isSettled = true) :
    reopen settings w style = (w, style) := by
  cases style <;> first | rfl | exact nomatch h

theorem Dialect.opening_of_settled {w : Window} (h : style.isSettled = true) :
    d.opening w style.code = Scan.ofWindow w style := by
  rw [opening, Style.ofCode_code, reopen_of_settled h]

theorem le_length_of_mem_starts {t : Text} (h : p ∈ (LineTable.ofText t).starts) :
    p ≤ t.length := by
  rcases LineTable.mem_ofText.1 h with rfl | h
  · exact Nat.zero_le _
  · exact h.1

/-- What a window finds right before `p` is whether the line at `p` is joined to the one
    before. -/
theorem lineContinues_iff : lineContinues (.ofBuffer b p n) p = true ↔ b.text.JoinsInto p := by
  -- The character `k` places before `p`.
  obtain ⟨back, hback⟩ : ∃ back : Nat → Char,
      ∀ k, back k = if k ≤ p then b.charAt (p - k) else nul := ⟨_, fun _ => rfl⟩
  have hat {k : Nat} {c : Char} (hc : c ≠ nul) :
      back k = c ↔ k ≤ p ∧ b.text.charAt (p - k) = c := by
    rw [hback]
    split
    · rename_i hk
      exact (and_iff_right hk).symm
    · rename_i hk
      exact iff_of_false (Ne.symm hc) (fun h => hk h.1)
  have hbreak : isLineBreak (back 1) = true ↔
      1 ≤ p ∧ isLineBreak (b.text.charAt (p - 1)) = true := by
    rw [isLineBreak_iff, isLineBreak_iff, hat (by decide), hat (by decide), and_or_left]
  simp only [lineContinues, Window.charAt_ofBuffer, ← hback]
  by_cases hpair : back 2 = '\r' ∧ back 1 = '\n'
  · rw [if_pos hpair, beq_iff_eq, hat (by decide)]
    rw [hat (by decide), hat (by decide)] at hpair
    obtain ⟨⟨-, hcr⟩, -, hlf⟩ := hpair
    constructor
    · rintro ⟨hp, hmark⟩
      exact .inr ⟨hp, hmark, hcr, hlf⟩
    · rintro (⟨-, hmark, -⟩ | ⟨hp, hmark, -⟩)
      · rw [hcr] at hmark
        cases hmark
      · exact ⟨hp, hmark⟩
  · rw [if_neg hpair, Bool.and_eq_true, hbreak, beq_iff_eq, hat (by decide)]
    rw [hat (by decide), hat (by decide)] at hpair
    constructor
    · rintro ⟨⟨-, hend⟩, hp, hmark⟩
      exact .inl ⟨hp, hmark, hend⟩
    · rintro (⟨hp, hmark, hend⟩ | ⟨hp, -, hcr, hlf⟩)
      · exact ⟨⟨by omega, hend⟩, hp, hmark⟩
      · exact absurd ⟨⟨by omega, hcr⟩, by omega, hlf⟩ hpair

/-- **A scan that opens at the start of a line is on the start of that line.** -/
theorem landed_ofWindow (h : b.Consistent) (hp : p ∈ (LineTable.ofText b.text).starts)
    (hcont : ¬ b.text.JoinsInto p) (hset : style.isSettled = true) :
    Scan.Landed p (.ofWindow (.ofBuffer b p n) style) := by
  have hlen : p ≤ b.length := le_length_of_mem_starts hp
  have hstart := Window.start_ofBuffer (n := n) hlen
  constructor
  case pos_eq => exact hstart
  case prev_eq =>
    simp only [Scan.ofWindow, Cursor.ofWindow, hstart]
    split
    · rfl
    · rw [Window.charOrSpace_ofBuffer_of_lt (by omega), Window.charAt_ofBuffer]
  case ch_eq => simp only [Scan.ofWindow, Cursor.ofWindow, hstart]
  case next_eq => simp only [Scan.ofWindow, Cursor.ofWindow, hstart]
  case atLineStart =>
    simp only [Scan.ofWindow, Cursor.ofWindow, hstart, Window.source_ofBuffer,
      h.lineStart_lineOf_eq hp, beq_self_eq_true]
  case atLineEnd_eq => simp only [Scan.ofWindow, Cursor.ofWindow, hstart]
  case settled => simpa [Scan.style, Scan.ofWindow, Cursor.ofWindow] using hset
  case shown_eq =>
    rw [Cursor.shown, Window.committed?]
    simp [Scan.ofWindow, Cursor.ofWindow]
  case continued =>
    simp only [Scan.ofWindow, hstart, Bool.eq_false_iff.2 (mt lineContinues_iff.1 hcont),
      Bool.and_false]

/-- A scan that opens at the start of a line may go on as one that has come
    there. -/
theorem Scan.Landed.poised_ofWindow {s : Scan} (hs : s.Landed p) (hm : s.Tidy)
    (hc : Scan.Covers s.cursor) (h : b.Consistent) (hp : p ∈ (LineTable.ofText b.text).starts)
    (hcont : ¬ b.text.JoinsInto p)
    (hpermits : permitsRegex (Scan.ofWindow (.ofBuffer b p n) s.style).memory.lastVisible =
      permitsRegex s.memory.lastVisible) :
    Scan.Poised p p s (.ofWindow (.ofBuffer b p n) s.style) := by
  have hlen : p ≤ b.length := le_length_of_mem_starts hp
  have hstart := Window.start_ofBuffer (n := n) hlen
  have hpainted : Painted p s.cursor (Scan.ofWindow (.ofBuffer b p n) s.style).cursor :=
    { covers := hc
      covers' := by
        refine Scan.covers_ofWindow rfl ?_ s.style
        rw [hstart]
        exact Nat.le_min.2 ⟨by omega, hlen⟩
      start_le := hs.pos_eq ▸ hm.start_le
      start_le' := Nat.le_of_eq hstart
      run_eq htent := absurd htent (Bool.eq_false_iff.1 (Style.not_isTentative hs.settled))
      shown_eq := by
        intro q hq hlt
        rw [hs.pos_eq] at hlt
        omega }
  refine
    { landed := hs
      landed' := landed_ofWindow h hp hcont hs.settled
      state_eq := hc.code_ofCode
      painted := hpainted
      permits_eq := hpermits
      includes_eq := ?_ }
  have hnone : s.includes.filter (p ≤ ·.start) = [] := by
    rw [List.filter_eq_nil_iff]
    intro span hspan hle
    have hlt := (hm.includes span hspan).2
    rw [hs.pos_eq] at hlt
    have hle : p ≤ span.start := by simpa using hle
    omega
  rw [hnone]
  rfl

/-- **Scans of texts that are the same up to the start of a line come there
    together.** -/
theorem arrived_runTo (h : b.Consistent) (h' : b'.Consistent)
    (hp : b.text.isLineStart p = true) (hp' : b'.text.isLineStart p = true)
    (hagree : ∀ q < p, b'.charAt q = b.charAt q) (hcont : ¬ b.text.JoinsInto p)
    (hstop : p ≤ (Window.ofBuffer b 0 n).stop) (hstop' : p ≤ (Window.ofBuffer b' 0 n').stop) :
    Scan.Arrived p 0 ((Scan.ofWindow (.ofBuffer b 0 n) .plain).runTo d p)
      ((Scan.ofWindow (.ofBuffer b' 0 n') .plain).runTo d p) := by
  -- At the start of a text there is nothing yet to differ in.
  have hzero (t : Text) : 0 ∈ (LineTable.ofText t).starts := LineTable.mem_ofText.2 (Or.inl rfl)
  have hpoised : Scan.Poised 0 0 (Scan.ofWindow (.ofBuffer b 0 n) .plain)
      (Scan.ofWindow (.ofBuffer b' 0 n') .plain) := by
    have hlanded : Scan.Landed 0 (Scan.ofWindow (.ofBuffer b 0 n) .plain) :=
      landed_ofWindow h (hzero _) (Text.not_joinsInto_zero _) rfl
    refine hlanded.poised_ofWindow (.ofWindow _ _) (Scan.covers_ofWindow rfl ?_ _) h' (hzero _)
      (Text.not_joinsInto_zero _) ?_
    · rw [Window.start_ofBuffer (Nat.zero_le _)]
      exact Nat.zero_le _
    · simp only [Scan.ofWindow, Window.start_ofBuffer (Nat.zero_le _), operatorBefore?]
  have hbefore : Before (some p) 0 := by
    rintro _ ⟨⟩
    exact (Text.isLineStart_iff.1 hp).1
  exact (hpoised.alike (Window.matches_of_agree hp hp' hagree hcont hstop hstop') hbefore).runTo
    (.ofWindow _ _)

end Opening

end CFamily

end StyledText
