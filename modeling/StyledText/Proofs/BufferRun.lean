/-
  Runs of a buffer.

  Whatever is done to a buffer, in whatever order, its parts stay in step: there
  is one style for each character, the line table is the one of the text, and
  the log says truly how the text has come about and where it can go from here.

  * `Op`, `apply` and `run`: what can be done to a buffer, one operation and
    several in a row;
  * `Sound`: the parts of a buffer are in step;
  * `Sound.apply` and `Sound.run`: an operation keeps them in step, and so does a
    run;
  * `lines_of_run`: after any run, the patched line table is the one made from
    the text.
-/
import StyledText.Proofs.History
import StyledText.Proofs.LinePatch

namespace StyledText

namespace Buffer

/-! ## Operations -/

/-- What can be done to a buffer.  The first group are the edits, the second one
    is about styles, and the third one about what is taken and recorded. -/
inductive Op where
  | load (text : Text)
  | insert (p : Nat) (data : Text)
  | delete (p n : Nat)
  | undo
  | redo
  | addMark (token : Nat)
  -- styles
  | setStyleAt (p : Nat) (style : UInt8)
  | setStyles (p : Nat) (values : Array UInt8)
  | keepStyles (keep : Bool)
  -- switches and the log
  | setReadOnly (readOnly : Bool)
  | setRecording (recording : Bool)
  | clearLog
  | save

/-- The buffer with the newest edit taken back, if there is one to take back. -/
def undo (b : Buffer) : Buffer := (b.undo?.map Prod.snd).getD b

/-- The buffer with the edit taken back last made again, if there is one. -/
def redo (b : Buffer) : Buffer := (b.redo?.map Prod.snd).getD b

/-- The buffer after one operation.  An operation that is refused leaves it as
    it is. -/
def apply (b : Buffer) : Op → Buffer
  | .load text => b.load text
  | .insert p data => (b.insert? p data).getD b
  | .delete p n => (b.delete? p n).getD b
  | .undo => b.undo
  | .redo => b.redo
  | .addMark token => b.addMark token
  | .setStyleAt p style => (b.setStyleAt? p style).getD b
  | .setStyles p values => b.setStyles p values
  | .keepStyles keep => b.keepStyles keep
  | .setReadOnly readOnly => b.setReadOnly readOnly
  | .setRecording recording => b.setRecording recording
  | .clearLog => b.clearLog
  | .save => b.save

/-- The buffer after some operations, first one first. -/
def run (b : Buffer) (ops : List Op) : Buffer := ops.foldl apply b

/-- The buffer has come about by operations on the empty one. -/
def Reachable (b : Buffer) : Prop := ∃ ops, run empty ops = b

theorem run_append (b : Buffer) (ops ops' : List Op) :
    b.run (ops ++ ops') = (b.run ops).run ops' := List.foldl_append

/-! ## Text, styles and lines -/

variable {b b' : Buffer} {e : Edit} {x y : Content} {p n : Nat}

/-- The text of a buffer with its styles. -/
def content (b : Buffer) : Content := ⟨b.text, b.styles⟩

/-- **Text, styles and line table are in step.** -/
structure Consistent (b : Buffer) : Prop where
  aligned : b.content.Aligned
  lines_eq : b.lines = .ofText b.text

theorem content_revert (b : Buffer) (e : Edit) : (b.revert e).content = e.back b.content := by
  cases e <;> rfl

theorem content_reapply (b : Buffer) (e : Edit) : (b.reapply e).content = e.forth b.content := by
  cases e <;> rfl

theorem Consistent.place (h : b.Consistent) (hp : p ≤ b.length) (data : Text)
    (known : Option (Array UInt8)) : (b.place p data known).Consistent where
  aligned := (Content.aligned_put hp).2 h.aligned
  lines_eq := by
    simp only [Buffer.place, h.lines_eq]
    exact LineTable.afterInsert_ofText hp data

theorem Consistent.cut (h : b.Consistent) (hn : p + n ≤ b.length) : (b.cut p n).Consistent where
  aligned := h.aligned.cut hn
  lines_eq := by
    simp only [Buffer.cut, h.lines_eq]
    exact LineTable.afterRemove_ofText hn

/-- An edit that has led to the text of a buffer can be taken back in it. -/
theorem Consistent.revert (h : b.Consistent) (he : e.Leads x b.content.bare) :
    (b.revert e).Consistent := by
  have hf := he.canRevert
  cases e with
  | insert p data => exact h.cut hf.1
  | delete p data styles => exact h.place hf data styles
  | mark token => exact h

/-- An edit that leads on from the text of a buffer can be made in it. -/
theorem Consistent.reapply (h : b.Consistent) (he : e.Leads b.content.bare x) :
    (b.reapply e).Consistent := by
  have hf := he.canReapply
  cases e with
  | insert p data => exact h.place hf data none
  | delete p data styles => exact h.cut hf.1
  | mark token => exact h

/-! ## Sound buffers -/

/-- **Text, styles and line table are in step, and the log is not stale.** -/
structure Sound (b : Buffer) : Prop extends Consistent b where
  fits : b.log.Fits b.content.bare

theorem sound_empty : empty.Sound where
  aligned := by rintro styles ⟨⟩; rfl
  lines_eq := rfl
  fits := .of_nil rfl rfl (by rintro k ⟨⟩; rfl) _

theorem Sound.load (h : b.Sound) (text : Text) : (b.load text).Sound := by
  unfold Buffer.load
  split_ifs with hr
  · exact h
  · refine ⟨⟨?_, rfl⟩, (EditLog.fits_clear _ _).save⟩
    intro styles hs
    obtain ⟨old, -, rfl⟩ := Option.map_eq_some_iff.1 hs
    exact Array.size_replicate

/-- The removal of `n` characters at `p`, as an edit. -/
def deletion (b : Buffer) (p n : Nat) : Edit :=
  .delete p (b.range p n) (b.styles.map fun styles : Array UInt8 => styles.extract p (p + n))

theorem insert?_eq_some {data : Text} :
    b.insert? p data = some b' ↔
      (b.readOnly = false ∧ data.isEmpty = false ∧ p ≤ b.length) ∧
        b' = { b with log := b.log.record (.insert p data) }.place p data none := by
  unfold insert?
  split_ifs with h
  · refine iff_of_false (by simp) fun ⟨⟨h1, h2, h3⟩, _⟩ => ?_
    simp only [h1, h2, Bool.false_eq_true, false_or] at h
    omega
  · simp only [not_or, Bool.not_eq_true, Nat.not_lt] at h
    simp only [h, Option.some.injEq, and_self, true_and, eq_comm]

theorem delete?_eq_some :
    b.delete? p n = some b' ↔
      (b.readOnly = false ∧ n ≠ 0 ∧ p + n ≤ b.length) ∧
        b' = { b with log := b.log.record (b.deletion p n) }.cut p n := by
  unfold delete?
  split_ifs with h
  · refine iff_of_false (by simp) fun ⟨⟨h1, h2, h3⟩, _⟩ => ?_
    simp only [h1, h2, Bool.false_eq_true, false_or] at h
    omega
  · simp only [not_or, Bool.not_eq_true, Nat.not_lt] at h
    simp only [h, Option.some.injEq, ne_eq, not_false_eq_true, and_self, true_and, eq_comm,
      deletion]

theorem undo?_eq_some :
    b.undo? = some (e, b') ↔
      b.readOnly = false ∧ ∃ log, b.log.undo? = some (e, log) ∧ b' = { b.revert e with log } := by
  unfold undo?
  cases b.readOnly <;> simp [eq_comm]

theorem redo?_eq_some :
    b.redo? = some (e, b') ↔
      b.readOnly = false ∧ ∃ log, b.log.redo? = some (e, log) ∧ b' = { b.reapply e with log } := by
  unfold redo?
  cases b.readOnly <;> simp [eq_comm]

/-- The edit that an insertion records leads to the content after it. -/
theorem leads_insert? {data : Text} (hi : b.insert? p data = some b') :
    (Edit.insert p data).Leads b.content b'.content := by
  obtain ⟨⟨-, -, hp⟩, rfl⟩ := insert?_eq_some.1 hi
  exact ⟨hp, rfl⟩

/-- The edit that a deletion records leads to the content after it. -/
theorem leads_delete? (h : b.Consistent) (hd : b.delete? p n = some b') :
    (b.deletion p n).Leads b.content b'.content := by
  obtain ⟨⟨-, -, hn⟩, rfl⟩ := delete?_eq_some.1 hd
  exact Edit.leads_delete h.aligned hn

theorem Sound.insert? {data : Text} (h : b.Sound) (hi : b.insert? p data = some b') : b'.Sound := by
  have hl := (leads_insert? hi).bare
  obtain ⟨⟨-, -, hp⟩, rfl⟩ := insert?_eq_some.1 hi
  have hc : ({ b with log := b.log.record (.insert p data) } : Buffer).Consistent :=
    ⟨h.aligned, h.lines_eq⟩
  exact ⟨hc.place hp data none, h.fits.record hl (by rintro styles ⟨⟩)⟩

theorem Sound.delete? (h : b.Sound) (hd : b.delete? p n = some b') : b'.Sound := by
  have hl := (leads_delete? h.toConsistent hd).bare
  obtain ⟨⟨-, -, hn⟩, rfl⟩ := delete?_eq_some.1 hd
  have hc : ({ b with log := b.log.record (b.deletion p n) } : Buffer).Consistent :=
    ⟨h.aligned, h.lines_eq⟩
  refine ⟨hc.cut hn, h.fits.record hl fun styles hs => ?_⟩
  obtain ⟨old, hold, rfl⟩ := Option.map_eq_some_iff.1 hs
  have hsize : old.size = b.length := h.aligned old hold
  simp only [Array.size_extract, Edit.length, Edit.data, deletion, range, Text.length_extract,
    hsize]
  rfl

/-- Taking an edit back walks one step back from the text. -/
theorem Sound.undo? (h : b.Sound) (hu : b.undo? = some (e, b')) :
    b'.Sound ∧ e.Leads b'.content.bare b.content.bare := by
  obtain ⟨-, log, hlog, rfl⟩ := undo?_eq_some.1 hu
  obtain ⟨w, he, hw⟩ := h.fits.undo hlog
  have hc := h.toConsistent.revert he
  have hback : (b.revert e).content.bare = w := by
    rw [content_revert, ← he.back_eq (Content.aligned_bare _)]
    cases e <;> rfl
  subst hback
  exact ⟨⟨⟨hc.aligned, hc.lines_eq⟩, hw⟩, he⟩

/-- Making an edit again walks one step on from the text. -/
theorem Sound.redo? (h : b.Sound) (hu : b.redo? = some (e, b')) :
    b'.Sound ∧ e.Leads b.content.bare b'.content.bare := by
  obtain ⟨-, log, hlog, rfl⟩ := redo?_eq_some.1 hu
  obtain ⟨w, he, hw⟩ := h.fits.redo hlog
  have hc := h.toConsistent.reapply he
  have hforth : (b.reapply e).content.bare = w := by
    rw [content_reapply, ← he.forth_eq (Content.aligned_bare _)]
    cases e <;> rfl
  subst hforth
  exact ⟨⟨⟨hc.aligned, hc.lines_eq⟩, hw⟩, he⟩

/-- Other styles change nothing else, as long as there is one for each
    character. -/
theorem Sound.withStyles (h : b.Sound) {styles : Option (Array UInt8)}
    (hs : ∀ s ∈ styles, s.size = b.length) : { b with styles }.Sound :=
  ⟨⟨hs, h.lines_eq⟩, h.fits⟩

theorem Sound.setStyleAt? {style : UInt8} (h : b.Sound) (hs : b.setStyleAt? p style = some b') :
    b'.Sound := by
  simp only [Buffer.setStyleAt?, Option.bind_eq_bind, Option.bind_eq_some_iff] at hs
  obtain ⟨styles, hst, old, -, hs⟩ := hs
  split_ifs at hs
  obtain rfl := Option.some.inj hs
  refine h.withStyles ?_
  rintro s ⟨⟩
  rw [Array.size_setIfInBounds]
  exact h.aligned styles hst

theorem Sound.setStyles? {values : Array UInt8} (h : b.Sound)
    (hs : b.setStyles? p values = some b') : b'.Sound := by
  simp only [Buffer.setStyles?, Option.bind_eq_bind, Option.bind_eq_some_iff] at hs
  obtain ⟨styles, hst, hs⟩ := hs
  split_ifs at hs with hp
  obtain rfl := Option.some.inj hs
  refine h.withStyles ?_
  rintro s ⟨⟩
  have hsize : styles.size = b.length := h.aligned styles hst
  simp only [not_or, Nat.not_le] at hp
  simp only [Array.size_append, Array.size_extract]
  omega

theorem Sound.keepStyles (h : b.Sound) (keep : Bool) : (b.keepStyles keep).Sound := by
  unfold Buffer.keepStyles
  split
  · refine h.withStyles ?_
    rintro s ⟨⟩
    exact Array.size_replicate
  · exact h.withStyles (by rintro s ⟨⟩)
  · exact h

/-! ## Runs -/

/-- An operation that may be refused leaves a sound buffer, if it leaves one
    when it is not. -/
theorem Sound.getD (h : b.Sound) {b? : Option Buffer} (hb : ∀ b' ∈ b?, b'.Sound) :
    (b?.getD b).Sound := by
  rcases b? with _ | b'
  · exact h
  · exact hb b' rfl

theorem Sound.undo (h : b.Sound) : b.undo.Sound := by
  refine h.getD fun b' hb' => ?_
  obtain ⟨⟨e, _⟩, hu, rfl⟩ := Option.map_eq_some_iff.1 hb'
  exact (h.undo? hu).1

theorem Sound.redo (h : b.Sound) : b.redo.Sound := by
  refine h.getD fun b' hb' => ?_
  obtain ⟨⟨e, _⟩, hu, rfl⟩ := Option.map_eq_some_iff.1 hb'
  exact (h.redo? hu).1

/-- **Every operation keeps a buffer sound.** -/
theorem Sound.apply (h : b.Sound) (op : Op) : (b.apply op).Sound := by
  cases op with
  | load text => exact h.load text
  | insert p data => exact h.getD fun _ hi => h.insert? hi
  | delete p n => exact h.getD fun _ hd => h.delete? hd
  | undo => exact h.undo
  | redo => exact h.redo
  | addMark token => exact ⟨⟨h.aligned, h.lines_eq⟩, h.fits.record rfl (by rintro styles ⟨⟩)⟩
  | setStyleAt p style => exact h.getD fun _ hs => h.setStyleAt? hs
  | setStyles p values => exact h.getD fun _ hs => h.setStyles? hs
  | keepStyles keep => exact h.keepStyles keep
  | setReadOnly readOnly => exact ⟨⟨h.aligned, h.lines_eq⟩, h.fits⟩
  | setRecording recording => exact ⟨⟨h.aligned, h.lines_eq⟩, h.fits.setRecording recording⟩
  | clearLog => exact ⟨⟨h.aligned, h.lines_eq⟩, EditLog.fits_clear _ _⟩
  | save => exact ⟨⟨h.aligned, h.lines_eq⟩, h.fits.save⟩

/-- **Every run keeps a buffer sound.** -/
theorem Sound.run (h : b.Sound) (ops : List Op) : (b.run ops).Sound := by
  induction ops generalizing b with
  | nil => exact h
  | cons op ops ih => exact ih (h.apply op)

theorem Reachable.sound (h : b.Reachable) : b.Sound := by
  obtain ⟨ops, rfl⟩ := h
  exact sound_empty.run ops

/-- **After any run, the patched line table is the table of the text**: its
    entries are, in ascending order, `0` and the positions behind a line feed or
    behind a carriage return that no line feed follows. -/
theorem lines_of_run (ops : List Op) :
    let b := empty.run ops
    b.lines = .ofText b.text ∧ b.lines.starts.Pairwise (· < ·) ∧
      ∀ p, p ∈ b.lines.starts ↔ p = 0 ∨ 1 ≤ p ∧ p ≤ b.length ∧
        (b.charAt (p - 1) = '\n' ∨
          b.charAt (p - 1) = '\r' ∧ ¬ (p < b.length ∧ b.charAt p = '\n')) := by
  intro b
  have hl : b.lines = .ofText b.text := (sound_empty.run ops).lines_eq
  refine ⟨hl, by rw [hl]; exact LineTable.ascending_ofText _, fun p => ?_⟩
  rw [hl, LineTable.mem_ofText, Text.isLineStart_iff]
  constructor
  · rintro (rfl | ⟨h1, h2, h3⟩)
    · exact Or.inl rfl
    · exact Or.inr ⟨h2, h1, h3⟩
  · rintro (rfl | ⟨h1, h2, h3⟩)
    · exact Or.inl rfl
    · exact Or.inr ⟨h2, h1, h3⟩

end Buffer

end StyledText
