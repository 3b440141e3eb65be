/-
  Styling on demand, between edits.

  A document styles no more than it is asked for, and after an edit it starts
  again at the line of the edit.  What it has styled before stays right only up
  to the start of that line: the styles of the line itself, and those between the
  start of the line and the end of what was asked for, may be those of a line that
  looked different.  Nor are they settled at the start of a line that a backslash
  joins to the one before.

  * `Content.SameBelow`: an edit leaves everything before its place alone;
  * `Document.Tracks`: before the start of every line that is known, the styles
    are those of a text that was styled, and is still the same there;
  * `Document.MayResume`: where styling may go on, and `mayResume_of_resumePoint`, that it
    always may from the start of the text;
  * `Tracks.apply`: every operation keeps this, if no edit parts a carriage return
    from its line feed and styling resumes where it may;
  * `Document.styles_of_run`: then styling to the end gives the styles of the
    whole text, if the last edit has left something to style;
  * `Document.styles_of_run_shortened`: if it has left nothing, it may not.
-/
import StyledText.Document.Editing
import StyledText.Proofs.LineByLine

namespace StyledText

open CFamily

/-! ## Edits and what lies before them -/

/-- A carriage return stands right before `p`, and its line feed at `p`. -/
def Text.SplitsLineEnd (t : Text) (p : Nat) : Prop :=
  0 < p ∧ t.charAt (p - 1) = '\r' ∧ t.charAt p = '\n'

instance (t : Text) (p : Nat) : Decidable (t.SplitsLineEnd p) :=
  inferInstanceAs (Decidable (_ ∧ _))

/-- A line that starts up to the place of an edit has started there before, unless
    the edit has parted a line end. -/
theorem Text.isLineStart_of_agree {t t' : Text} {p x : Nat}
    (hagree : ∀ q < p, t'.charAt q = t.charAt q) (hsplit : ¬ t.SplitsLineEnd p) (hx : x ≤ p)
    (h : t'.isLineStart x = true) : t.isLineStart x = true := by
  simp only [isLineStart, Bool.and_eq_true, Bool.or_eq_true, decide_eq_true_eq, beq_iff_eq,
    bne_iff_ne] at h ⊢
  obtain ⟨hpos, h⟩ := h
  rw [hagree (x - 1) (by omega)] at h
  refine ⟨hpos, h.imp_right ?_⟩
  -- What follows a carriage return may be behind the place of the edit.
  rintro ⟨hcr, hlf⟩
  refine ⟨hcr, fun hlf' => ?_⟩
  rcases Nat.lt_or_eq_of_le hx with hlt | rfl
  · exact hlf ((hagree x hlt).trans hlf')
  · exact hsplit ⟨hpos, hcr, hlf'⟩

theorem getElem?_extract_zero_append {α : Type} {a : Array α} {p q : Nat} (hq : q < p)
    (hp : p ≤ a.size) (x : Array α) : (a.extract 0 p ++ x)[q]? = a[q]? := by
  rw [Array.getElem?_append_left (by rw [Array.size_extract]; omega), Array.getElem?_extract,
    if_pos (by omega), Nat.zero_add]

namespace Content

variable {x y : Content} {p n : Nat}

/-- **Everything before `p` is the same in both contents**, and the second one goes
    on at least to `p`. -/
structure SameBelow (p : Nat) (x y : Content) : Prop where
  le' : p ≤ y.text.length
  charAt_eq : ∀ q < p, y.text.charAt q = x.text.charAt q
  styleAt_eq : ∀ q < p, y.styles.bind (·[q]?) = x.styles.bind (·[q]?)
  kept_eq : y.styles.isSome = x.styles.isSome

theorem sameBelow_put (hx : x.Aligned) (hp : p ≤ x.text.length) (data : Text)
    (known : Option (Array UInt8)) : SameBelow p x (x.put p data known) where
  le' := by
    simp only [put, Text.length_insert hp]
    omega
  charAt_eq := by
    intro q hq
    simp only [put, Text.charAt_insert hp, if_pos hq]
  styleAt_eq := by
    intro q hq
    rcases hs : x.styles with _ | styles
    · simp [put, hs]
    · have hsize := hx styles hs
      simp only [put, hs, Option.map_some, Option.bind_some]
      rw [Array.append_assoc, getElem?_extract_zero_append hq (by omega)]
  kept_eq := by simp [put]

theorem sameBelow_cut (hx : x.Aligned) (hn : p + n ≤ x.text.length) :
    SameBelow p x (x.cut p n) where
  le' := by
    simp only [cut, Text.length_remove (Nat.le_add_right p n) hn]
    omega
  charAt_eq := by
    intro q hq
    simp only [cut, Text.charAt_remove hn, if_pos hq]
  styleAt_eq := by
    intro q hq
    rcases hs : x.styles with _ | styles
    · simp [cut, hs]
    · have hsize := hx styles hs
      simp only [cut, hs, Option.map_some, Option.bind_some]
      exact getElem?_extract_zero_append hq (by omega) _
  kept_eq := by simp [cut]

theorem back_eq_of_isMark {e : Edit} (h : e.isMark = true) : e.back x = x := by
  cases e with
  | mark token => rfl
  | insert p data => exact nomatch h
  | delete p data styles => exact nomatch h

theorem forth_eq_of_isMark {e : Edit} (h : e.isMark = true) : e.forth x = x := by
  cases e with
  | mark token => rfl
  | insert p data => exact nomatch h
  | delete p data styles => exact nomatch h

theorem sameBelow_back {e : Edit} (hx : x.Aligned) (he : e.CanRevert x.text)
    (hmark : e.isMark = false) : SameBelow e.position x (e.back x) := by
  cases e with
  | insert p data => exact sameBelow_cut hx he.1
  | delete p data styles => exact sameBelow_put hx he data styles
  | mark token => exact nomatch hmark

theorem sameBelow_forth {e : Edit} (hx : x.Aligned) (he : e.CanReapply x.text)
    (hmark : e.isMark = false) : SameBelow e.position x (e.forth x) := by
  cases e with
  | insert p data => exact sameBelow_put hx he data none
  | delete p data styles => exact sameBelow_cut hx he.1
  | mark token => exact nomatch hmark

end Content

/-! ## Styles put into a buffer -/

namespace Buffer

variable {b b' : Buffer} {p q : Nat} {values : Array UInt8}

theorem text_setStyles (b : Buffer) (p : Nat) (values : Array UInt8) :
    (b.setStyles p values).text = b.text := by
  unfold setStyles setStyles?
  rcases b.styles with _ | styles
  · rfl
  · simp only [Option.bind_eq_bind, Option.bind_some]
    split <;> rfl

/-- Styles that fit replace those in their place. -/
theorem setStyles_eq {styles : Array UInt8} (hs : b.styles = some styles)
    (hp : p + values.size ≤ styles.size) :
    b.setStyles p values = { b with
      styles := some (styles.extract 0 p ++ values ++
        styles.extract (p + values.size) styles.size) } := by
  have hwhole : styles.extract 0 p ++ styles.extract p (p + values.size) ++
      styles.extract (p + values.size) styles.size = styles := by
    simp
  have hall : values.extract 0 (p + values.size - p) = values := by simp
  unfold setStyles setStyles?
  simp only [hs, Option.bind_eq_bind, Option.bind_some, Nat.min_eq_left hp, hall]
  split
  · -- Nothing changes if nothing is put in, or if it has been there before.
    rename_i hsame
    have heq : styles.extract p (p + values.size) = values := by
      rcases hsame with hend | heq
      · have hnil : values = #[] := Array.eq_empty_of_size_eq_zero (by omega)
        rw [hnil]
        simp
      · exact heq
    rw [heq] at hwhole
    rw [hwhole, Option.getD_none, ← hs]
  · rfl

/-- **The styles put in stand where they were put**, and the others stay. -/
theorem styleAt_setStyles {styles : Array UInt8} (hs : b.styles = some styles)
    (hp : p + values.size ≤ styles.size) (q : Nat) :
    (b.setStyles p values).styleAt q =
      if p ≤ q ∧ q < p + values.size then values[q - p]?.getD 0 else b.styleAt q := by
  have hfirst : (styles.extract 0 p).size = p := by
    rw [Array.size_extract]
    omega
  have hsecond : (styles.extract 0 p ++ values).size = p + values.size := by
    rw [Array.size_append, hfirst]
  rw [setStyles_eq hs hp, styleAt, styleAt, hs, Option.bind_some, Option.bind_some]
  by_cases hlt : q < p
  · rw [if_neg (by omega), Array.append_assoc, getElem?_extract_zero_append hlt (by omega)]
  · by_cases hin : q < p + values.size
    · rw [if_pos ⟨by omega, hin⟩, Array.getElem?_append_left (by omega),
        Array.getElem?_append_right (by omega), hfirst]
    · rw [if_neg fun h => hin h.2, Array.getElem?_append_right (by omega), hsecond,
        Array.getElem?_extract]
      by_cases hsize : q < styles.size
      · rw [if_pos (by omega), Nat.add_sub_cancel' (by omega)]
      · rw [if_neg (by omega), Array.getElem?_eq_none (by omega)]

end Buffer

/-! ## What a document knows -/

namespace Document

variable {dl : Dialect} {doc : Document} {b b' : Buffer} {p x : Nat}

/-- **Before the start of each line up to `p`, the styles of the buffer are those
    of a text that was styled as a whole**, and the buffer still has that text
    there.  Nothing is said of a line that is joined to the one before. -/
def Known (dl : Dialect) (b : Buffer) (p : Nat) : Prop :=
  ∃ u : Text, ∀ x ≤ p, b.text.isLineStart x = true → ¬ b.text.JoinsInto x →
    u.isLineStart x = true ∧ ∀ q < x, u.charAt q = b.charAt q ∧
      (dl.lexer.lexText u 0 u.length 0)[q]? = some (b.styleAt q)

theorem known_zero (dl : Dialect) (b : Buffer) : Known dl b 0 := by
  refine ⟨.empty, fun x hx hstart => ?_⟩
  have := (Text.isLineStart_iff.1 hstart).1
  omega

theorem Known.edit (h : Known dl b p) (hsame : Content.SameBelow x b.content b'.content)
    (hsplit : ¬ b.text.SplitsLineEnd x) : Known dl b' (min p x) := by
  obtain ⟨u, hu⟩ := h
  refine ⟨u, fun y hy hstart hfree => ?_⟩
  have hle : y ≤ x := by omega
  have hjoins : b'.text.JoinsInto y ↔ b.text.JoinsInto y :=
    Text.joinsInto_congr fun q hq => hsame.charAt_eq q (Nat.lt_of_lt_of_le hq hle)
  obtain ⟨hline, hbelow⟩ :=
    hu y (by omega) (Text.isLineStart_of_agree hsame.charAt_eq hsplit hle hstart)
      (mt hjoins.2 hfree)
  refine ⟨hline, fun q hq => ?_⟩
  obtain ⟨hchar, hstyle⟩ := hbelow q hq
  have hchar' : b'.charAt q = b.charAt q := hsame.charAt_eq q (by omega)
  have hstyle' : b'.styleAt q = b.styleAt q :=
    congrArg (Option.getD · 0) (hsame.styleAt_eq q (by omega))
  exact ⟨hchar.trans hchar'.symm, hstyle.trans (congrArg some hstyle'.symm)⟩

theorem length_of_isLineStart {t : Text} (h : t.isLineStart x = true) : x ≤ t.length := by
  obtain ⟨hpos, h⟩ := Text.isLineStart_iff.1 h
  by_contra hlt
  rw [Text.charAt_of_length_le (by omega)] at h
  rcases h with h | h
  · exact absurd h (by decide)
  · exact absurd h.1 (by decide)

/-- **What is known are the styles of the text as it is now.** -/
theorem Known.getElem?_lexText (h : Known dl b p) (hfree : ¬ b.text.JoinsInto x) (hx : x ≤ p)
    (hmem : x ∈ (LineTable.ofText b.text).starts) {q : Nat} (hq : q < x) :
    (dl.lexer.lexText b.text 0 b.length 0)[q]? = some (b.styleAt q) := by
  obtain ⟨u, hu⟩ := h
  rcases LineTable.mem_ofText.1 hmem with rfl | ⟨hlen, hstart⟩
  · exact absurd hq (Nat.not_lt_zero q)
  · obtain ⟨hline, hbelow⟩ := hu x hx hstart hfree
    have hagree : ∀ q < x, u.charAt q = b.text.charAt q := fun q hq => (hbelow q hq).1
    have hstop : x ≤ (Window.ofBuffer (.ofText u) 0 u.length).stop :=
      (Dialect.stop_whole u).symm ▸ length_of_isLineStart hline
    have hstop' : x ≤ (Window.ofBuffer (.ofText b.text) 0 b.text.length).stop :=
      (Dialect.stop_whole b.text).symm ▸ hlen
    rw [← (hbelow q hq).2, Dialect.getElem?_lexText, Dialect.getElem?_lexText]
    exact dl.committed?_lex_eq_of_agree (Dialect.consistent_ofText u)
      (Dialect.consistent_ofText b.text) hline hstart (fun q hq => (hagree q hq).symm)
      (mt (Text.joinsInto_congr hagree).1 hfree) hstop hstop' hq

/-- **The styles of the buffer are those of lexing its whole text.** -/
def Whole (dl : Dialect) (b : Buffer) : Prop :=
  ∀ q < b.length, (dl.lexer.lexText b.text 0 b.length 0)[q]? = some (b.styleAt q)

/-- If the last line is empty, and not joined to the one before, nothing is left to know. -/
theorem Known.whole (h : Known dl b p) (hp : b.length ≤ p)
    (hmem : b.length ∈ (LineTable.ofText b.text).starts) (hfree : ¬ b.text.JoinsInto b.length) :
    Whole dl b := fun _ hq => h.getElem?_lexText hfree hp hmem hq

theorem Whole.styleRange_eq (h : Whole dl b) (hb : b.Sound) (hkept : b.styles.isSome = true) :
    b.styleRange 0 b.length = dl.lexer.lexText b.text 0 b.length 0 := by
  obtain ⟨styles, hs⟩ := Option.isSome_iff_exists.1 hkept
  have hsize : styles.size = b.length := hb.aligned styles hs
  have hlength : b.text.length = b.length := rfl
  refine Array.ext_getElem? fun q => ?_
  rw [Buffer.styleRange, hs]
  dsimp only
  rw [Array.getElem?_extract, Nat.zero_add, Nat.zero_add]
  by_cases hq : q < b.length
  · rw [if_pos (by omega), h q hq, Buffer.styleAt, hs, Option.bind_some,
      Array.getElem?_eq_getElem (by omega), Option.getD_some]
  · rw [if_neg (by omega), Array.getElem?_eq_none]
    rw [Dialect.size_lexText]
    omega

/-- **Styling that resumes at the start of a line that is known** makes the lines on
    its way known. -/
theorem Known.resume {ls n : Nat} {styles : Array UInt8} (h : Known dl b p) (hb : b.Sound)
    (hs : b.styles = some styles) (hfree : ¬ b.text.JoinsInto ls) (hle : ls ≤ p)
    (hmem : ls ∈ (LineTable.ofText b.text).starts) (hn : ls + n ≤ b.length)
    (hpermits : permitsRegex (dl.resuming b ls n).memory.lastVisible =
      permitsRegex (dl.reaching b.text ls).memory.lastVisible) :
    ∃ w : Window, w = ((dl.resuming b ls n).complete dl).cursor.window ∧ w.start = ls ∧
      w.boundary = ls + n ∧ Known dl (b.setStyles w.start w.pending) (ls + n) ∧
      (ls + n = b.length → Whole dl (b.setStyles w.start w.pending)) := by
  have hknown : ∀ q < ls, (dl.lexer.lexText b.text 0 b.length 0)[q]? = some (b.styleAt q) :=
    fun q hq => h.getElem?_lexText hfree hle hmem hq
  obtain ⟨hstart, hsize⟩ := Dialect.window_resuming hb.toConsistent hfree hmem hn hknown hpermits
  generalize hw : ((dl.resuming b ls n).complete dl).cursor.window = w at hstart hsize
  have hstylesSize : styles.size = b.length := hb.aligned styles hs
  have hfits : w.start + w.pending.size ≤ styles.size := by omega
  have htext := b.text_setStyles w.start w.pending
  -- What was known stays, and what has been committed is put in behind it.
  have hput : ∀ q < ls + n,
      (ls ≤ q → w.committed? q = (dl.lexer.lexText b.text 0 b.length 0)[q]?) →
      (dl.lexer.lexText b.text 0 b.length 0)[q]? =
        some ((b.setStyles w.start w.pending).styleAt q) := by
    intro q hq hcommitted
    rw [Buffer.styleAt_setStyles hs hfits, hstart, hsize]
    by_cases hbefore : q < ls
    · rw [if_neg (by omega), hknown q hbefore]
    · have hcommitted := hcommitted (by omega)
      rw [Window.committed?, hstart, if_pos (by omega)] at hcommitted
      rw [if_pos (by omega), ← hcommitted, Array.getElem?_eq_getElem (by omega), Option.getD_some]
  refine ⟨w, rfl, hstart, by rw [Window.boundary, hstart, hsize], ?_, ?_⟩
  · refine ⟨b.text, fun x hx hline hfreex => ?_⟩
    rw [htext] at hline hfreex
    refine ⟨hline, fun q hq => ⟨?_, hput q (by omega) fun hbehind => ?_⟩⟩
    · rw [Buffer.charAt, htext]
    · -- The line that starts at `x` is on the way, so that the scan has come there.
      rw [← hw]
      exact Dialect.committed?_resuming hb.toConsistent hfree hmem hknown hpermits hline hfreex
        (by rwa [Window.stop_ofBuffer hn]) hbehind hq
  · intro hend q hq
    have hlength : (b.setStyles w.start w.pending).length = b.length := congrArg Text.length htext
    rw [hlength] at hq ⊢
    rw [htext]
    refine hput q (by omega) fun hbehind => ?_
    have hsame := Dialect.sameOutcome_resuming hb.toConsistent hfree hmem hend hknown hpermits
    have hcommitted := hsame.committed?_eq q hbehind (by
      rw [Scan.stop_complete, (Dialect.reaches_reaching b.text ls).stop_eq]
      exact (Dialect.stop_whole b.text).symm ▸ hq)
    rw [← hw, hcommitted, Dialect.getElem?_lexText, Dialect.reaching, Scan.complete_runTo]
    rfl

/-! ## Runs -/

/-- What an editor does to a text that it shows. -/
inductive Op where
  | load (text : Text)
  | insert (p : Nat) (data : Text)
  | delete (p n : Nat)
  | undo
  | redo
  /-- The styles before `p` are to be shown. -/
  | ensureStyledTo (p : Nat)

/-- The document after an operation; one that is refused changes nothing. -/
def apply (doc : Document) : Op → Document
  | .load text => doc.load text
  | .insert p data => (doc.insert? p data).getD doc
  | .delete p n => (doc.delete? p n).getD doc
  | .undo => doc.undo?.getD doc
  | .redo => doc.redo?.getD doc
  | .ensureStyledTo p => doc.ensureStyledTo p

/-- The document after some operations, in order. -/
def run (doc : Document) (ops : List Op) : Document := ops.foldl apply doc

/-- Where an edit changes the text, if it is not refused. -/
def changeAt? (doc : Document) : Op → Option Nat
  | .insert p data => (doc.insert? p data).map fun _ => p
  | .delete p n => (doc.delete? p n).map fun _ => p
  | .undo => doc.buffer.undo?.bind fun (e, _) => if e.isMark then none else some e.position
  | .redo => doc.buffer.redo?.bind fun (e, _) => if e.isMark then none else some e.position
  | .load _ | .ensureStyledTo _ => none

/-- The start of the line where styling goes on. -/
def resumePoint (doc : Document) : Nat := doc.buffer.lineStart (doc.buffer.lineOf doc.endStyled)

/-- **Styling up to `p` may resume where it does**, if there is something left to
    style: the line there is not joined to the one before, and a slash at its start
    is taken as in the scan of the whole text.  Elsewhere lines may be joined. -/
def MayResume (dl : Dialect) (doc : Document) (p : Nat) : Prop :=
  min p doc.buffer.length ≤ doc.endStyled ∨
    (¬ doc.buffer.text.JoinsInto doc.resumePoint ∧
      permitsRegex (dl.resuming doc.buffer doc.resumePoint
        (min p doc.buffer.length - doc.resumePoint)).memory.lastVisible =
      permitsRegex (dl.reaching doc.buffer.text doc.resumePoint).memory.lastVisible)

instance (dl : Dialect) (doc : Document) (p : Nat) : Decidable (MayResume dl doc p) :=
  inferInstanceAs (Decidable (_ ∨ _))

/-- **Styling may always start with the text.** -/
theorem mayResume_of_resumePoint (h : doc.resumePoint = 0) (p : Nat) : MayResume dl doc p := by
  refine .inr ⟨h ▸ Text.not_joinsInto_zero _, ?_⟩
  have hzero (b : Buffer) (n : Nat) : (Window.ofBuffer b 0 n).start = 0 :=
    Window.start_ofBuffer (Nat.zero_le _)
  rw [h, Dialect.resuming, if_pos rfl, Dialect.opening_zero, Dialect.reaching_eq,
    Scan.runTo_of_le (Nat.zero_le _)]
  simp only [Scan.ofWindow, hzero, operatorBefore?]

/-- Up to where the text is to be styled. -/
def Op.styledTo? : Op → Option Nat
  | .ensureStyledTo p => some p
  | _ => none

/-- **The operation is fair**: it parts no carriage return from its line feed, and
    styles only from where styling may resume. -/
def Fair (dl : Dialect) (doc : Document) (op : Op) : Prop :=
  (∀ p ∈ doc.changeAt? op, ¬ doc.buffer.text.SplitsLineEnd p) ∧
    ∀ p ∈ op.styledTo?, MayResume dl doc p

instance (dl : Dialect) (doc : Document) (op : Op) : Decidable (Fair dl doc op) :=
  inferInstanceAs (Decidable (_ ∧ _))

/-- All operations of a run are fair. -/
def FairRun (dl : Dialect) : Document → List Op → Prop
  | _, [] => True
  | doc, op :: ops => Fair dl doc op ∧ FairRun dl (doc.apply op) ops

instance decidableFairRun (dl : Dialect) : (doc : Document) → (ops : List Op) →
    Decidable (FairRun dl doc ops)
  | _, [] => isTrue trivial
  | doc, op :: ops =>
    have := decidableFairRun dl (doc.apply op) ops
    inferInstanceAs (Decidable (Fair dl doc op ∧ FairRun dl (doc.apply op) ops))

/-- **The document uses the lexer, and its styles are known as far as it says.** -/
structure Tracks (dl : Dialect) (doc : Document) : Prop where
  lexer_eq : doc.lexer = some dl.lexer
  sound : doc.buffer.Sound
  kept : doc.buffer.styles.isSome = true
  endStyled_le : doc.endStyled ≤ doc.buffer.length
  known : Known dl doc.buffer doc.endStyled

theorem tellSaved_eq (doc : Document) (before : Bool) :
    (doc.tellSaved before).lexer = doc.lexer ∧ (doc.tellSaved before).buffer = doc.buffer ∧
      (doc.tellSaved before).endStyled = doc.endStyled := by
  unfold tellSaved
  split <;> exact ⟨rfl, rfl, rfl⟩

theorem adopt_eq (doc : Document) (b : Buffer) (kind : ChangeKind) (fromHistory : Bool)
    (p n : Nat) :
    (doc.adopt b kind fromHistory p n).lexer = doc.lexer ∧
      (doc.adopt b kind fromHistory p n).buffer = b ∧
      (doc.adopt b kind fromHistory p n).endStyled = doc.endStyled :=
  tellSaved_eq _ _

/-- An edit makes the styles from its place on unknown. -/
theorem Tracks.adopt (h : Tracks dl doc) (hb : b.Sound)
    (hsame : Content.SameBelow p doc.buffer.content b.content)
    (hsplit : ¬ doc.buffer.text.SplitsLineEnd p) (kind : ChangeKind) (fromHistory : Bool)
    (n : Nat) : Tracks dl ((doc.forgetStylesFrom p).adopt b kind fromHistory p n) := by
  obtain ⟨hlexer, hbuffer, hend⟩ := adopt_eq (doc.forgetStylesFrom p) b kind fromHistory p n
  constructor
  case lexer_eq => rw [hlexer, ← h.lexer_eq, forgetStylesFrom]
  case sound => rwa [hbuffer]
  case kept =>
    rw [hbuffer]
    exact hsame.kept_eq.trans h.kept
  case endStyled_le =>
    rw [hend, hbuffer]
    exact Nat.le_trans (Nat.min_le_right _ _) hsame.le'
  case known =>
    rw [hend, hbuffer]
    exact h.known.edit hsame hsplit

theorem Tracks.load (h : Tracks dl doc) (text : Text) : Tracks dl (doc.load text) := by
  unfold Document.load
  split
  · exact h
  · rename_i hr
    obtain ⟨hlexer, hbuffer, hend⟩ := adopt_eq { doc with endStyled := 0, includes := [] }
      (doc.buffer.load text) .reload false 0 text.length
    constructor
    case lexer_eq => rw [hlexer, ← h.lexer_eq]
    case sound =>
      rw [hbuffer]
      exact h.sound.load text
    case kept =>
      rw [hbuffer, Buffer.load, if_neg hr]
      simpa using h.kept
    case endStyled_le =>
      rw [hend]
      exact Nat.zero_le _
    case known =>
      rw [hend, hbuffer]
      exact known_zero dl _

theorem Tracks.insert? {data : Text} {doc' : Document} (h : Tracks dl doc)
    (hsplit : ¬ doc.buffer.text.SplitsLineEnd p) (hi : doc.insert? p data = some doc') :
    Tracks dl doc' := by
  obtain ⟨b, hb, rfl⟩ := Option.map_eq_some_iff.1 hi
  obtain ⟨⟨-, -, hp⟩, heq⟩ := Buffer.insert?_eq_some.1 hb
  refine h.adopt (h.sound.insert? hb) ?_ hsplit _ _ _
  rw [heq]
  exact Content.sameBelow_put h.sound.aligned hp data none

theorem Tracks.delete? {n : Nat} {doc' : Document} (h : Tracks dl doc)
    (hsplit : ¬ doc.buffer.text.SplitsLineEnd p) (hd : doc.delete? p n = some doc') :
    Tracks dl doc' := by
  obtain ⟨b, hb, rfl⟩ := Option.map_eq_some_iff.1 hd
  obtain ⟨⟨-, -, hn⟩, heq⟩ := Buffer.delete?_eq_some.1 hb
  refine h.adopt (h.sound.delete? hb) ?_ hsplit _ _ _
  rw [heq]
  exact Content.sameBelow_cut h.sound.aligned hn

/-- A mark that is passed changes neither text nor styles. -/
theorem Tracks.passMark (h : Tracks dl doc) (hb : b.Sound)
    (hsame : b.content = doc.buffer.content) :
    Tracks dl (({ doc with buffer := b }).tellSaved doc.buffer.isSaved) := by
  obtain ⟨hlexer, hbuffer, hend⟩ := tellSaved_eq { doc with buffer := b } doc.buffer.isSaved
  have htext : b.text = doc.buffer.text := congrArg Content.text hsame
  have hstyles : b.styles = doc.buffer.styles := congrArg Content.styles hsame
  constructor
  case lexer_eq => rw [hlexer, ← h.lexer_eq]
  case sound => rwa [hbuffer]
  case kept =>
    rw [hbuffer, hstyles]
    exact h.kept
  case endStyled_le =>
    rw [hend, hbuffer, Buffer.length, htext]
    exact h.endStyled_le
  case known =>
    rw [hend, hbuffer]
    obtain ⟨u, hu⟩ := h.known
    exact ⟨u, by simpa only [Buffer.charAt, Buffer.styleAt, htext, hstyles] using hu⟩

/-- An edit that is taken back or made again changes the text like any other. -/
theorem Tracks.adoptReplay {e : Edit} {kind : Option ChangeKind} (h : Tracks dl doc) (hb : b.Sound)
    (hkind : kind.isNone = e.isMark)
    (hmark : e.isMark = true → b.content = doc.buffer.content)
    (hsame : e.isMark = false → Content.SameBelow e.position doc.buffer.content b.content)
    (hsplit : e.isMark = false → ¬ doc.buffer.text.SplitsLineEnd e.position) :
    Tracks dl (doc.adoptReplay b e kind) := by
  cases kind with
  | none => exact h.passMark hb (hmark hkind.symm)
  | some kind => exact h.adopt hb (hsame hkind.symm) (hsplit hkind.symm) _ _ _

theorem Tracks.undo? {doc' : Document} (h : Tracks dl doc)
    (hsplit : ∀ p ∈ doc.changeAt? .undo, ¬ doc.buffer.text.SplitsLineEnd p)
    (hu : doc.undo? = some doc') : Tracks dl doc' := by
  obtain ⟨⟨e, b⟩, hb, rfl⟩ := Option.map_eq_some_iff.1 hu
  obtain ⟨hsound, hleads⟩ := h.sound.undo? hb
  have hcontent : b.content = e.back doc.buffer.content := by
    obtain ⟨-, log, -, rfl⟩ := Buffer.undo?_eq_some.1 hb
    exact Buffer.content_revert doc.buffer e
  refine h.adoptReplay hsound (by cases e <;> rfl) ?_ ?_ ?_
  · intro hmark
    rw [hcontent, Content.back_eq_of_isMark hmark]
  · intro hmark
    rw [hcontent]
    exact Content.sameBelow_back h.sound.aligned hleads.canRevert hmark
  · intro hmark
    exact hsplit _ (by simp [changeAt?, hb, hmark])

theorem Tracks.redo? {doc' : Document} (h : Tracks dl doc)
    (hsplit : ∀ p ∈ doc.changeAt? .redo, ¬ doc.buffer.text.SplitsLineEnd p)
    (hr : doc.redo? = some doc') : Tracks dl doc' := by
  obtain ⟨⟨e, b⟩, hb, rfl⟩ := Option.map_eq_some_iff.1 hr
  obtain ⟨hsound, hleads⟩ := h.sound.redo? hb
  have hcontent : b.content = e.forth doc.buffer.content := by
    obtain ⟨-, log, -, rfl⟩ := Buffer.redo?_eq_some.1 hb
    exact Buffer.content_reapply doc.buffer e
  refine h.adoptReplay hsound (by cases e <;> rfl) ?_ ?_ ?_
  · intro hmark
    rw [hcontent, Content.forth_eq_of_isMark hmark]
  · intro hmark
    rw [hcontent]
    exact Content.sameBelow_forth h.sound.aligned hleads.canReapply hmark
  · intro hmark
    exact hsplit _ (by simp [changeAt?, hb, hmark])

/-- What styling up to `p` does, if there is something left to style. -/
theorem ensureStyledTo_eq (hlexer : doc.lexer = some dl.lexer)
    (hmore : doc.endStyled < min p doc.buffer.length) {w : Window}
    (hw : w = ((dl.resuming doc.buffer doc.resumePoint
      (min p doc.buffer.length - doc.resumePoint)).complete dl).cursor.window) :
    (doc.ensureStyledTo p).lexer = doc.lexer ∧
      (doc.ensureStyledTo p).buffer = doc.buffer.setStyles w.start w.pending ∧
      (doc.ensureStyledTo p).endStyled =
        if w.start ≤ doc.endStyled then max doc.endStyled w.boundary else doc.endStyled := by
  subst hw
  simp only [ensureStyledTo, if_neg (Nat.not_le.2 hmore), lex, hlexer, Option.getD_some]
  exact ⟨trivial, rfl, rfl⟩

theorem text_ensureStyledTo (doc : Document) (p : Nat) :
    (doc.ensureStyledTo p).buffer.text = doc.buffer.text := by
  unfold Document.ensureStyledTo
  dsimp only
  split
  · rfl
  · exact Buffer.text_setStyles _ _ _

theorem length_ensureStyledTo (doc : Document) (p : Nat) :
    (doc.ensureStyledTo p).buffer.length = doc.buffer.length :=
  congrArg Text.length (text_ensureStyledTo doc p)

/-- **Either something is left to style, or the styles are those of the whole
    text.** -/
def Mendable (dl : Dialect) (doc : Document) : Prop :=
  doc.endStyled < doc.buffer.length ∨ Whole dl doc.buffer

theorem Tracks.mendable (h : Tracks dl doc)
    (hmore : doc.endStyled < doc.buffer.length ∨
      doc.buffer.length ≤ doc.resumePoint ∧ ¬ doc.buffer.text.JoinsInto doc.buffer.length) :
    Mendable dl doc := by
  refine hmore.imp_right fun ⟨hlast, hfree⟩ => ?_
  obtain ⟨hmem, hle, -⟩ := h.sound.lineStart_lineOf h.endStyled_le
  have hle : doc.resumePoint ≤ doc.endStyled := hle
  have hend := h.endStyled_le
  refine h.known.whole (by omega) ?_ hfree
  rwa [show doc.buffer.length = doc.resumePoint by omega]

/-- **Styling from where it may resume makes the lines on its way known**, and all
    styles right, if it goes to the end of the text. -/
theorem Tracks.resume (h : Tracks dl doc) (hmore : doc.endStyled < min p doc.buffer.length)
    (hmay : MayResume dl doc p) :
    Tracks dl (doc.ensureStyledTo p) ∧
      (doc.ensureStyledTo p).endStyled = min p doc.buffer.length ∧
      (doc.buffer.length ≤ p → Whole dl (doc.ensureStyledTo p).buffer) := by
  obtain ⟨hfree, hpermits⟩ := hmay.resolve_left (Nat.not_le.2 hmore)
  obtain ⟨styles, hs⟩ := Option.isSome_iff_exists.1 h.kept
  obtain ⟨hmem, hle, -⟩ := h.sound.lineStart_lineOf h.endStyled_le
  have hle : doc.resumePoint ≤ doc.endStyled := hle
  have hstop : doc.resumePoint + (min p doc.buffer.length - doc.resumePoint) =
      min p doc.buffer.length := by omega
  obtain ⟨w, hw, hstart, hboundary, hknown, hall⟩ :=
    h.known.resume h.sound hs hfree hle hmem (by omega) hpermits
  obtain ⟨hlexer, hbuffer, hend⟩ := ensureStyledTo_eq h.lexer_eq hmore hw
  rw [hstop] at hboundary hknown hall
  -- The window starts no later than what is unknown, so all of it becomes known.
  have hend : (doc.ensureStyledTo p).endStyled = min p doc.buffer.length := by
    rw [hend, hstart, if_pos hle, hboundary]
    omega
  have hput : (doc.buffer.setStyles w.start w.pending).styles.isSome = true := by
    have hsize : styles.size = doc.buffer.length := h.sound.aligned styles hs
    have hfits : w.start + w.pending.size = min p doc.buffer.length := hboundary
    rw [Buffer.setStyles_eq hs (by omega)]
    rfl
  refine ⟨?_, hend, fun hp => ?_⟩
  · constructor
    case lexer_eq => rw [hlexer, h.lexer_eq]
    case sound =>
      rw [hbuffer]
      exact h.sound.getD fun _ hput => h.sound.setStyles? hput
    case kept => rwa [hbuffer]
    case endStyled_le =>
      rw [hend, length_ensureStyledTo]
      exact Nat.min_le_right _ _
    case known => rwa [hend, hbuffer]
  · rw [hbuffer]
    exact hall (Nat.min_eq_right hp)

/-- **Styling leaves the document mendable**, and all styles right, if it goes to
    the end of the text. -/
theorem Tracks.ensureStyledTo (h : Tracks dl doc) (hmay : MayResume dl doc p) :
    Tracks dl (doc.ensureStyledTo p) ∧
      (Mendable dl doc → Mendable dl (doc.ensureStyledTo p) ∧
        (doc.buffer.length ≤ p → Whole dl (doc.ensureStyledTo p).buffer)) := by
  by_cases hdone : min p doc.buffer.length ≤ doc.endStyled
  · have hsame : doc.ensureStyledTo p = doc := by
      simp only [Document.ensureStyledTo, if_pos hdone]
    -- Nothing is done, so whatever is right was so before.
    rw [hsame]
    refine ⟨h, fun hmend => ⟨hmend, fun hp => hmend.resolve_left ?_⟩⟩
    omega
  · obtain ⟨hknows, hend, hwhole⟩ := h.resume (Nat.not_le.1 hdone) hmay
    refine ⟨hknows, fun _ => ⟨?_, hwhole⟩⟩
    rcases Nat.lt_or_ge p doc.buffer.length with hp | hp
    · refine .inl ?_
      rw [hend, length_ensureStyledTo]
      omega
    · exact .inr (hwhole hp)

/-! ## Whole runs -/

variable {ops : List Op} {op : Op}

/-- **Every fair operation keeps what is known.** -/
theorem Tracks.apply (h : Tracks dl doc) (hfair : Fair dl doc op) : Tracks dl (doc.apply op) := by
  obtain ⟨hsplit, hmay⟩ := hfair
  cases op with
  | load text => exact h.load text
  | insert p data =>
    cases hi : doc.insert? p data with
    | none => rwa [Document.apply, hi]
    | some doc' =>
      rw [Document.apply, hi]
      exact h.insert? (hsplit p (by simp [changeAt?, hi])) hi
  | delete p n =>
    cases hd : doc.delete? p n with
    | none => rwa [Document.apply, hd]
    | some doc' =>
      rw [Document.apply, hd]
      exact h.delete? (hsplit p (by simp [changeAt?, hd])) hd
  | undo =>
    cases hu : doc.undo? with
    | none => rwa [Document.apply, hu]
    | some doc' =>
      rw [Document.apply, hu]
      exact h.undo? hsplit hu
  | redo =>
    cases hr : doc.redo? with
    | none => rwa [Document.apply, hr]
    | some doc' =>
      rw [Document.apply, hr]
      exact h.redo? hsplit hr
  | ensureStyledTo p => exact (h.ensureStyledTo (hmay p rfl)).1

theorem Tracks.run (h : Tracks dl doc) (hfair : FairRun dl doc ops) : Tracks dl (doc.run ops) := by
  induction ops generalizing doc with
  | nil => exact h
  | cons op ops ih => exact ih (h.apply hfair.1) hfair.2

theorem Tracks.show {stops : List Nat} (h : Tracks dl doc) (hmend : Mendable dl doc)
    (hfair : FairRun dl doc (stops.map .ensureStyledTo)) :
    Tracks dl (doc.run (stops.map .ensureStyledTo)) ∧
      Mendable dl (doc.run (stops.map .ensureStyledTo)) := by
  induction stops generalizing doc with
  | nil => exact ⟨h, hmend⟩
  | cons p stops ih =>
    obtain ⟨⟨-, hmay⟩, hfair⟩ := hfair
    obtain ⟨h', hmend'⟩ := h.ensureStyledTo (hmay p rfl)
    exact ih h' (hmend' hmend).1 hfair

/-- **Styling on demand gives the styles of the whole text.**  A document starts with
    a lexer for a C-like language and nothing styled.  Whatever edits are made to
    it, whatever is styled between them and after the last of them, styling to the
    end of the text then gives the styles of lexing the whole text in one go:
    provided that the last edit leaves something to style, or an empty last line
    that is not joined to the one before, that no edit has parted a carriage return
    from its line feed, and that styling has always gone on where it may. -/
theorem styles_of_run (dl : Dialect) (doc edited shown : Document) (ops : List Op)
    (stops : List Nat) (hlexer : doc.lexer = some dl.lexer) (hreach : doc.buffer.Reachable)
    (hkept : doc.buffer.styles.isSome = true) (hfresh : doc.endStyled = 0)
    (hedited : edited = doc.run ops) (hshown : shown = edited.run (stops.map .ensureStyledTo))
    (hmore : edited.endStyled < edited.buffer.length ∨
      edited.buffer.length ≤ edited.resumePoint ∧
        ¬ edited.buffer.text.JoinsInto edited.buffer.length)
    (hfair : FairRun dl doc ops) (hfairShow : FairRun dl edited (stops.map .ensureStyledTo))
    (hmay : MayResume dl shown shown.buffer.length) :
    (shown.ensureStyledTo shown.buffer.length).buffer.styleRange 0 shown.buffer.length =
      dl.lexer.lexText shown.buffer.text 0 shown.buffer.length 0 := by
  have hstart : Tracks dl doc :=
    { lexer_eq := hlexer
      sound := hreach.sound
      kept := hkept
      endStyled_le := hfresh ▸ Nat.zero_le _
      known := hfresh ▸ known_zero dl _ }
  have hrun : Tracks dl edited := hedited ▸ hstart.run hfair
  obtain ⟨hshow, hmend⟩ := hshown ▸ hrun.show (hrun.mendable hmore) hfairShow
  obtain ⟨hdone, hwhole⟩ := hshow.ensureStyledTo hmay
  have heq := ((hwhole hmend).2 (Nat.le_refl _)).styleRange_eq hdone.sound hdone.kept
  rwa [length_ensureStyledTo, text_ensureStyledTo] at heq

/-- The dialect with one word. -/
def oneWord : Dialect := Dialect.standard.withWords 0 ['i', 'n', 't']

/-- A document with a macro of two lines, and with a comment between two declarations. -/
def declarations : Document :=
  (Document.ofText (.ofString "#define m a \\\n  b\nint a;\n/* c */\nint b;")).setLexer
    oneWord.lexer

theorem styles_of_run_declarations :
    let edited := declarations.run
      [.ensureStyledTo 39, .insert 22 (.ofString "/*"), .ensureStyledTo 41, .undo]
    let shown := edited.run [.ensureStyledTo 27]
    (shown.ensureStyledTo shown.buffer.length).buffer.styleRange 0 shown.buffer.length =
      oneWord.lexer.lexText shown.buffer.text 0 shown.buffer.length 0 := by
  intro edited shown
  exact styles_of_run oneWord declarations edited shown
    [.ensureStyledTo 39, .insert 22 (.ofString "/*"), .ensureStyledTo 41, .undo] [27]
    rfl ⟨[.load _], rfl⟩ rfl rfl rfl rfl (by decide +kernel) (by decide +kernel)
    (by decide +kernel) (by decide +kernel)

/-- **With nothing left to style, the last line may be styled wrongly.**  The word
    `int` keeps the style of the longer word that it has been a part of: the
    deletion ends the text where the styles that are known end, so that styling
    does not go back to the start of the line. -/
theorem styles_of_run_shortened :
    let doc := (Document.ofText (.ofString "intx")).setLexer oneWord.lexer
    let edited := doc.run [.ensureStyledTo 4, .delete 3 1]
    edited.buffer.text = .ofString "int" ∧
      (edited.ensureStyledTo 3).buffer.styleRange 0 3 = #[11, 11, 11] ∧
      oneWord.lexer.lexText edited.buffer.text 0 3 0 = #[5, 5, 5] := by
  decide +kernel

-- Nor can the other conditions go.  A directive ends with a bracket, which is not
-- found where styling resumes, so that the slash after it divides.
example :
    let doc := (Document.ofText (.ofString "#if (\n/x/")).setLexer Dialect.standard.lexer
    let shown := doc.run [.ensureStyledTo 6, .ensureStyledTo 9]
    shown.buffer.styleRange 6 3 = #[10, 11, 10] ∧
      (Dialect.standard.lexer.lexText shown.buffer.text 0 9 0).extract 6 9 = #[14, 14, 14] := by
  decide +kernel

-- A string goes on behind a backslash, and where styling resumes it is not known
-- that it belongs to a directive.
example :
    let doc := (Document.ofText (.ofString "#a \"b\\\nc\" d")).setLexer Dialect.standard.lexer
    let shown := doc.run [.ensureStyledTo 7, .ensureStyledTo 11]
    shown.buffer.styleRange 7 4 = #[6, 6, 0, 11] ∧
      (Dialect.standard.lexer.lexText shown.buffer.text 0 11 0).extract 7 11 = #[6, 6, 9, 9] := by
  decide +kernel

-- A carriage return that has lost its line feed ends a line, but keeps its style.
example :
    let doc := (Document.ofText (.ofString "#\r\nx")).setLexer Dialect.standard.lexer
    let shown := doc.run [.ensureStyledTo 4, .delete 2 1, .ensureStyledTo 3]
    shown.buffer.styleRange 0 3 = #[9, 9, 11] ∧
      Dialect.standard.lexer.lexText shown.buffer.text 0 3 0 = #[9, 0, 11] := by
  decide +kernel

end Document

end StyledText
