/-
  A buffer that is read-only.

  To load, insert, delete, undo or redo is refused then, and nothing changes.  A mark is
  not refused.  It changes no text, but it goes on the log as a new edit does: what was
  taken back cannot be made again, and the text does not count as saved any more.

  * `EditLog.recordMarks` and `EditLog.Topped`: a log that takes some marks has them on top;
  * `Op.revises`: the operations that go through a buffer's text and log;
  * `apply_of_readOnly` and `run_of_readOnly`: one operation takes its mark, and a run
    takes its marks, and nothing else changes;
  * `run_readOnly`: what that means for the parts of the buffer;
  * `run_readOnly_mark`: a mark does change the log.
-/
import StyledText.Proofs.UndoRedo

namespace StyledText

/-! ## Marks on a log -/

namespace EditLog

variable {log log' : EditLog} {tokens : List Nat}

/-- The log after some marks, in order. -/
def recordMarks (log : EditLog) (tokens : List Nat) : EditLog :=
  tokens.foldl (fun log token => log.record (.mark token)) log

theorem recordMarks_append (log : EditLog) (tokens tokens' : List Nat) :
    log.recordMarks (tokens ++ tokens') = (log.recordMarks tokens).recordMarks tokens' :=
  List.foldl_append

/-- While nothing is recorded, marks are passed over. -/
theorem recordMarks_of_not_recording (h : log.recording = false) (tokens : List Nat) :
    log.recordMarks tokens = log := by
  induction tokens with
  | nil => rfl
  | cons token tokens ih =>
    have hpass : log.record (.mark token) = log := by simp [record, h, Edit.isMark]
    rw [recordMarks, List.foldl_cons, hpass]
    exact ih

/-- **`log'` is `log` with some marks on top**, at least one: none of them leads back to an
    edit that was taken back before, and a saved text lies below them. -/
structure Topped (log : EditLog) (tokens : List Nat) (log' : EditLog) : Prop where
  recording : log'.recording = true
  done_eq : log'.done = (tokens.map Edit.mark).reverse ++ log.done
  undone_eq : log'.undone = []
  saved_le : ∀ k ∈ log'.savedDepth, k ≤ log.depth

theorem topped_record (h : log.recording = true) (token : Nat) :
    Topped log [token] (log.record (.mark token)) := by
  rw [record, if_pos h]
  exact ⟨h, rfl, rfl, fun k hk => of_decide_eq_true (Option.filter_eq_some_iff.1 hk).2⟩

/-- One mark more is one more on top. -/
theorem Topped.record (h : Topped log tokens log') (token : Nat) :
    Topped log (tokens ++ [token]) (log'.record (.mark token)) := by
  rw [EditLog.record, if_pos h.recording]
  refine ⟨h.recording, ?_, rfl, fun k hk => h.saved_le k (Option.filter_eq_some_iff.1 hk).1⟩
  rw [List.map_append, List.reverse_append, h.done_eq]
  rfl

/-- **Marks that are recorded lie on top of the edits made.** -/
theorem topped_recordMarks (h : log.recording = true) (hne : tokens ≠ []) :
    Topped log tokens (log.recordMarks tokens) := by
  induction tokens using List.reverseRecOn with
  | nil => exact absurd rfl hne
  | append_singleton tokens token ih =>
    rw [recordMarks_append]
    cases tokens with
    | nil => exact topped_record h token
    | cons first tokens => exact (ih (List.cons_ne_nil _ _)).record token

/-- The text does not count as saved then. -/
theorem Topped.isSaved_eq (h : Topped log tokens log') (hne : tokens ≠ []) :
    log'.isSaved = false := by
  rw [isSaved, beq_eq_false_iff_ne]
  intro hsaved
  have hle := h.saved_le _ hsaved
  have hpos : 0 < tokens.length := List.length_pos_iff.2 hne
  simp only [depth, h.done_eq, List.length_append, List.length_reverse, List.length_map] at hle
  omega

end EditLog

/-! ## Operations on a buffer that is read-only -/

namespace Buffer

variable {b : Buffer} {op : Op} {ops : List Op}

/-- Loading a text, and the edits: what goes through the text and the log of a buffer. -/
def Op.revises : Op → Bool
  | load _ => true
  | op => op.isEdit

/-- The token of a mark. -/
def Op.token? : Op → Option Nat
  | addMark token => some token
  | _ => none

/-- **Of an operation that is refused, only its mark is left**, if it is one. -/
theorem apply_of_readOnly (hr : b.readOnly = true) (hop : op.revises = true) :
    b.apply op = { b with log := b.log.recordMarks op.token?.toList } := by
  cases op with
  | load text => exact if_pos hr
  | insert p data =>
    rw [apply, insert?, if_pos (.inl hr)]
    rfl
  | delete p n =>
    rw [apply, delete?, if_pos (.inl hr)]
    rfl
  | undo =>
    rw [apply, undo, undo?, if_pos hr]
    rfl
  | redo =>
    rw [apply, redo, redo?, if_pos hr]
    rfl
  | addMark token => rfl
  | _ => exact absurd hop Bool.false_ne_true

/-- **So it is with a run**: its marks are left of it. -/
theorem run_of_readOnly (hr : b.readOnly = true) (hops : ∀ op ∈ ops, op.revises = true) :
    b.run ops = { b with log := b.log.recordMarks (ops.filterMap Op.token?) } := by
  induction ops generalizing b with
  | nil => rfl
  | cons op ops ih =>
    obtain ⟨hfirst, hrest⟩ := List.forall_mem_cons.1 hops
    have hstep := apply_of_readOnly hr hfirst
    have hr' : (b.apply op).readOnly = true := by rw [hstep]; exact hr
    change (b.apply op).run ops = _
    rw [ih hr' hrest, hstep, ← EditLog.recordMarks_append]
    cases hmark : op.token? with
    | none => rw [List.filterMap_cons_none hmark]; rfl
    | some token => rw [List.filterMap_cons_some hmark]; rfl

/-- **While a buffer is read-only**, text, styles and lines stay as they are, whatever is
    loaded, inserted, deleted, taken back or made again.  Without a mark that is recorded
    the whole buffer does.  Marks that are recorded lie on top of the edits made, the edits
    taken back are gone, and the text does not count as saved. -/
theorem run_readOnly (b : Buffer) (ops : List Op) (hr : b.readOnly = true)
    (hops : ∀ op ∈ ops, op.revises = true) :
    let c := b.run ops
    let tokens := ops.filterMap Op.token?
    (c.text = b.text ∧ c.styles = b.styles ∧ c.lines = b.lines ∧ c.readOnly = true) ∧
    (tokens = [] ∨ b.log.recording = false → c = b) ∧
    (tokens ≠ [] → b.log.recording = true →
      c.log.done = (tokens.map Edit.mark).reverse ++ b.log.done ∧ c.log.undone = [] ∧
        c.isSaved = false) := by
  intro c tokens
  have hc : c = { b with log := b.log.recordMarks tokens } := run_of_readOnly hr hops
  refine ⟨?_, ?_, fun hne hrec => ?_⟩
  · rw [hc]
    exact ⟨rfl, rfl, rfl, hr⟩
  · rintro (hnil | hrec)
    · rw [hc, hnil]
      rfl
    · rw [hc, EditLog.recordMarks_of_not_recording hrec]
  · have htop := EditLog.topped_recordMarks hrec hne
    rw [hc]
    exact ⟨htop.done_eq, htop.undone_eq, htop.isSaved_eq hne⟩

/-- Everything is tried on a buffer that is read-only, and a mark among it. -/
theorem run_readOnly_refused :
    let b := empty.run [.load (.ofList ['a']), .insert 1 (.ofList ['b']), .insert 2 (.ofList ['c']),
      .undo, .setReadOnly true]
    let ops : List Op := [.load (.ofList ['z']), .insert 0 (.ofList ['y']), .addMark 7, .delete 0 1,
      .undo, .redo]
    b.readOnly = true ∧ (∀ op ∈ ops, op.revises = true) ∧ (b.run ops).text = .ofList ['a', 'b'] ∧
      (b.run ops).log.done = [.mark 7, .insert 1 (.ofList ['b'])] ∧
      (b.run ops).log.undone = [] := by
  intro b ops
  have hr : b.readOnly = true := by decide
  have hops : ∀ op ∈ ops, op.revises = true := by decide
  obtain ⟨⟨htext, -⟩, -, hmarks⟩ := run_readOnly b ops hr hops
  obtain ⟨hdone, hundone, -⟩ := hmarks (by decide) (by decide)
  exact ⟨hr, hops, htext.trans (by decide), hdone.trans (by decide), hundone⟩

/-- **A mark is not refused.**  A buffer that is read-only loses the edit that could be
    made again, and its text, which is the saved one, does not count as saved. -/
theorem run_readOnly_mark :
    let b := empty.run [.load (.ofList ['a']), .insert 1 (.ofList ['b']), .undo, .setReadOnly true]
    let c := b.run [.addMark 7]
    b.readOnly = true ∧ c.text = b.text ∧
      (b.log.done = [] ∧ b.log.undone = [.insert 1 (.ofList ['b'])] ∧ b.isSaved = true) ∧
      c.log.done = [.mark 7] ∧ c.log.undone = [] ∧ c.isSaved = false := by
  decide

end Buffer

end StyledText
