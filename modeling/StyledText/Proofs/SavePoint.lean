/-
  The saved state.

  A log knows that the text is as it was saved by a depth only: the number of
  edits that had been made.  The depth is right because it marks a place on the
  path of the log, and the content at that place is the one that was saved.
  Whatever would put another content at that place makes the log forget it.

  * `contentAt`: the content at a depth of the path;
  * `Marks`: the saved depth, as far as there is one, is where a given text
    stands, and each use of the log keeps it there;
  * `Draft`: a run, parted where the text was saved last;
  * `isSaved_of_run`: a text that counts as saved is the one saved last, and it
    counts as saved again when recorded edits have led away from it and back.
-/
import StyledText.Proofs.UndoRedo

namespace StyledText

/-! ## Places on the path of a log -/

namespace EditLog

variable {log log' : EditLog} {e : Edit} {t : Text} {x y z : Content} {k : Nat}

/-- The content at depth `k` of the path, of which `y` is the present one: edits
    are taken back, or made again, until there are `k`. -/
def contentAt (log : EditLog) (y : Content) (k : Nat) : Content :=
  if k ≤ log.depth then (log.done.take (log.depth - k)).foldl Edit.back y
  else (log.undone.take (k - log.depth)).foldl Edit.forth y

/-- **The saved depth is where the text `t` stands**, unless it is out of
    reach. -/
def Marks (log : EditLog) (y : Content) (t : Text) : Prop :=
  ∀ k ∈ log.savedDepth, (log.contentAt y k).text = t

theorem contentAt_depth (log : EditLog) (y : Content) : log.contentAt y log.depth = y := by
  rw [contentAt, if_pos le_rfl, Nat.sub_self]
  rfl

/-- A new edit leaves what lies below it in its place. -/
theorem contentAt_push (he : e.Leads y z) (hz : z.Aligned) (hd : log'.done = e :: log.done)
    (hk : k ≤ log.depth) : log'.contentAt z k = log.contentAt y k := by
  have hdepth : log'.depth = log.depth + 1 := by simp [depth, hd]
  rw [contentAt, if_pos (by omega), contentAt, if_pos hk, hd,
    show log'.depth - k = (log.depth - k) + 1 by omega, List.take_succ_cons, List.foldl_cons,
    he.back_eq hz]

theorem contentAt_pop (he : e.Leads x y) (hx : x.Aligned) (hd : log.depth = log'.depth + 1)
    (hu : log'.undone = e :: log.undone) (hk : log.depth < k) :
    log'.contentAt x k = log.contentAt y k := by
  rw [contentAt, if_neg (by omega), contentAt, if_neg (by omega), hu,
    show k - log'.depth = (k - log.depth) + 1 by omega, List.take_succ_cons, List.foldl_cons,
    he.forth_eq hx]

/-- **Moving along the path leaves every place of it where it is.**  `log'` is
    `log` with the edit `e` taken back. -/
theorem contentAt_move (he : e.Leads x y) (hy : y.Aligned) (hd : log.done = e :: log'.done)
    (hu : log'.undone = e :: log.undone) (k : Nat) :
    log'.contentAt x k = log.contentAt y k := by
  have hx := he.aligned_iff.2 hy
  have hdepth : log.depth = log'.depth + 1 := by simp [depth, hd]
  rcases Nat.lt_trichotomy k log.depth with hk | hk | hk
  · exact (contentAt_push he hy hd (by omega)).symm
  · -- The place of `y` itself is one step ahead of `x`.
    rw [hk, contentAt_depth, contentAt, if_neg (by omega), hu,
      show log.depth - log'.depth = 1 by omega]
    exact he.forth_eq hx
  · exact contentAt_pop he hx hdepth hu hk

theorem Marks.of_isSaved (h : log.Marks y t) (hs : log.isSaved = true) : y.text = t := by
  have hk : log.savedDepth = some log.depth := by simpa [isSaved] using hs
  rw [← h log.depth hk, contentAt_depth]

theorem marks_save (log : EditLog) (y : Content) : log.save.Marks y y.text := by
  rintro k ⟨⟩
  exact congrArg Content.text (contentAt_depth log.save y)

theorem Marks.clear (h : log.Marks y t) : log.clear.Marks y t := by
  intro k hk
  simp only [EditLog.clear] at hk
  split_ifs at hk with hs
  · obtain rfl := Option.some.inj hk
    rw [← h.of_isSaved hs]
    exact congrArg Content.text (contentAt_depth log.clear y)
  · exact absurd hk (Option.not_mem_none k)

/-- An edit that is recorded leaves the saved text in its place, or makes the log
    forget it. -/
theorem Marks.record (h : log.Marks y t) (he : e.Leads y z) (hz : z.Aligned) :
    (log.record e).Marks z t := by
  by_cases hr : log.recording = true
  · rw [EditLog.record, if_pos hr]
    intro k hk
    obtain ⟨hk, hle⟩ := Option.filter_eq_some_iff.1 hk
    rw [contentAt_push he hz rfl (of_decide_eq_true hle)]
    exact h k hk
  · rw [EditLog.record, if_neg hr]
    split_ifs with hm
    · cases e with
      | insert p data => exact absurd hm Bool.false_ne_true
      | delete p data styles => exact absurd hm Bool.false_ne_true
      | mark token => cases he; exact h
    · intro k hk
      exact absurd hk (Option.not_mem_none k)

theorem Marks.undo (h : log.Marks y t) (hu : log.undo? = some (e, log')) (he : e.Leads x y)
    (hy : y.Aligned) : log'.Marks x t := by
  obtain ⟨rest, hd, rfl⟩ := undo?_eq_some.1 hu
  intro k hk
  rw [contentAt_move he hy hd rfl k]
  exact h k hk

theorem Marks.redo (h : log.Marks x t) (hr : log.redo? = some (e, log')) (he : e.Leads x y)
    (hx : x.Aligned) : log'.Marks y t := by
  obtain ⟨rest, hu, rfl⟩ := redo?_eq_some.1 hr
  intro k hk
  have hmove : log.contentAt x k =
      { log with done := e :: log.done, undone := rest }.contentAt y k :=
    contentAt_move he (he.aligned_iff.1 hx) rfl hu k
  rw [← hmove]
  exact h k hk

end EditLog

/-! ## Runs, parted where the text was saved last -/

namespace Buffer

variable {b b' : Buffer} {e : Edit} {t : Text}

/-- Whether an operation saves the text: by itself, or by loading one. -/
def saves (b : Buffer) : Op → Bool
  | .save => true
  | .load _ => !b.readOnly
  | _ => false

/-- Whether an operation is an edit of the text that is not refused. -/
def accepts (b : Buffer) : Op → Bool
  | .insert p data => (b.insert? p data).isSome
  | .delete p n => (b.delete? p n).isSome
  | _ => false

/-- Whether an operation puts a new edit on the log. -/
def records (b : Buffer) (op : Op) : Bool :=
  b.log.recording && (b.accepts op || op matches .addMark _)

/-- A run, parted where the text was saved last. -/
structure Draft where
  /-- The buffer as it was saved last. -/
  saved : Buffer
  /-- The operations since. -/
  since : List Op

namespace Draft

/-- The buffer as it is now. -/
def buffer (draft : Draft) : Buffer := draft.saved.run draft.since

/-- The draft after one more operation. -/
def apply (draft : Draft) (op : Op) : Draft :=
  if draft.buffer.saves op then ⟨draft.buffer.apply op, []⟩
  else ⟨draft.saved, draft.since ++ [op]⟩

/-- The draft after a run from the beginning, where the empty text counts as
    saved. -/
def ofRun (ops : List Op) : Draft := ops.foldl apply ⟨empty, []⟩

theorem buffer_apply (draft : Draft) (op : Op) :
    (draft.apply op).buffer = draft.buffer.apply op := by
  unfold apply
  split_ifs
  · rfl
  · exact run_append _ _ _

theorem buffer_ofRun (ops : List Op) : (ofRun ops).buffer = empty.run ops := by
  induction ops using List.reverseRecOn with
  | nil => rfl
  | append_singleton ops op ih =>
    rw [ofRun, List.foldl_append, List.foldl_cons, List.foldl_nil, buffer_apply, ← ofRun, ih,
      run_append]
    rfl

end Draft

/-! ## A text that counts as saved -/

/-- The saved depth is where `t` stands on the log of the buffer. -/
abbrev Marks (b : Buffer) (t : Text) : Prop := b.log.Marks b.content.bare t

theorem Marks.undo (h : b.Marks t) (hb : b.Sound) : b.undo.Marks t := by
  unfold Buffer.undo
  rcases hu : b.undo? with _ | ⟨e, b'⟩
  · exact h
  · have hl := (hb.undo? hu).2
    obtain ⟨-, log, hlog, rfl⟩ := undo?_eq_some.1 hu
    exact EditLog.Marks.undo h hlog hl (Content.aligned_bare _)

theorem Marks.redo (h : b.Marks t) (hb : b.Sound) : b.redo.Marks t := by
  unfold Buffer.redo
  rcases hr : b.redo? with _ | ⟨e, b'⟩
  · exact h
  · have hl := (hb.redo? hr).2
    obtain ⟨-, log, hlog, rfl⟩ := redo?_eq_some.1 hr
    exact EditLog.Marks.redo h hlog hl (Content.aligned_bare _)

theorem Marks.getD_styles (h : b.Marks t) {b? : Option Buffer}
    (hb : ∀ b' ∈ b?, ∃ styles, b' = { b with styles }) : (b?.getD b).Marks t := by
  rcases b? with _ | b'
  · exact h
  · obtain ⟨styles, rfl⟩ := hb b' rfl
    exact h

/-- **An operation that does not save leaves the saved text in its place.** -/
theorem Marks.apply (h : b.Marks t) (hb : b.Sound) {op : Op} (hop : b.saves op = false) :
    (b.apply op).Marks t := by
  cases op with
  | load text =>
    have hr : b.readOnly = true := by simpa [saves] using hop
    simpa [Buffer.apply, Buffer.load, hr] using h
  | insert p data =>
    rcases hi : b.insert? p data with _ | b'
    · simpa [Buffer.apply, hi] using h
    · simp only [Buffer.apply, hi, Option.getD_some]
      have hl := (leads_insert? hi).bare
      obtain ⟨-, rfl⟩ := insert?_eq_some.1 hi
      exact EditLog.Marks.record h hl (Content.aligned_bare _)
  | delete p n =>
    rcases hi : b.delete? p n with _ | b'
    · simpa [Buffer.apply, hi] using h
    · simp only [Buffer.apply, hi, Option.getD_some]
      have hl := (leads_delete? hb.toConsistent hi).bare
      obtain ⟨-, rfl⟩ := delete?_eq_some.1 hi
      exact EditLog.Marks.record h hl (Content.aligned_bare _)
  | undo => exact h.undo hb
  | redo => exact h.redo hb
  | addMark token =>
    exact EditLog.Marks.record (e := .mark token) h rfl (Content.aligned_bare _)
  | setStyleAt p style =>
    refine h.getD_styles fun b' hs => ?_
    simp only [Buffer.setStyleAt?, Option.bind_eq_bind, Option.mem_def,
      Option.bind_eq_some_iff] at hs
    obtain ⟨styles, -, old, -, hs⟩ := hs
    split_ifs at hs
    exact ⟨_, (Option.some.inj hs).symm⟩
  | setStyles p values =>
    refine h.getD_styles fun b' hs => ?_
    simp only [Buffer.setStyles?, Option.bind_eq_bind, Option.mem_def,
      Option.bind_eq_some_iff] at hs
    obtain ⟨styles, -, hs⟩ := hs
    split_ifs at hs
    exact ⟨_, (Option.some.inj hs).symm⟩
  | keepStyles keep =>
    change (b.keepStyles keep).Marks t
    unfold Buffer.keepStyles
    split <;> exact h
  | setReadOnly readOnly => exact h
  | setRecording recording => exact h
  | clearLog => exact EditLog.Marks.clear h
  | save => exact absurd hop (by simp [saves])

/-- Where the text is saved, the saved depth is where it stands. -/
theorem marks_apply_of_saves {op : Op} (hop : b.saves op = true) :
    (b.apply op).Marks (b.apply op).text ∧ (b.apply op).isSaved = true := by
  cases op with
  | load text =>
    have hr : b.readOnly = false := by simpa [saves] using hop
    simp only [Buffer.apply, Buffer.load, hr]
    exact ⟨EditLog.marks_save _ _, beq_self_eq_true _⟩
  | save => exact ⟨EditLog.marks_save _ _, beq_self_eq_true _⟩
  | _ => exact absurd hop Bool.false_ne_true

/-- **The text at the beginning of a draft is the one that its log has for
    saved.** -/
structure Draft.Faithful (draft : Draft) : Prop where
  sound : draft.buffer.Sound
  marks : draft.buffer.Marks draft.saved.text
  saved : draft.saved.isSaved = true

theorem Draft.Faithful.apply {draft : Draft} (h : draft.Faithful) (op : Op) :
    (draft.apply op).Faithful := by
  have hsound : (draft.apply op).buffer.Sound := by
    rw [buffer_apply]
    exact h.sound.apply op
  have hbuffer := draft.buffer_apply op
  by_cases hop : draft.buffer.saves op = true
  · rw [Draft.apply, if_pos hop] at hsound ⊢
    obtain ⟨hmarks, hsaved⟩ := marks_apply_of_saves hop
    exact ⟨hsound, hmarks, hsaved⟩
  · rw [Draft.apply, if_neg hop] at hsound hbuffer ⊢
    refine ⟨hsound, ?_, h.saved⟩
    rw [hbuffer]
    exact h.marks.apply h.sound (Bool.eq_false_iff.2 hop)

theorem Draft.faithful_ofRun (ops : List Op) : (Draft.ofRun ops).Faithful := by
  induction ops using List.reverseRecOn with
  | nil => exact ⟨sound_empty, EditLog.marks_save EditLog.fresh _, rfl⟩
  | append_singleton ops op ih =>
    rw [Draft.ofRun, List.foldl_append]
    exact ih.apply op

/-! ## Back at the saved depth -/

/-- **The operation keeps a text saved at depth `k` within reach**: it is an edit
    that can be taken back, and if it puts a new edit on the log, then not below
    that depth. -/
structure KeepsReach (k : Nat) (b : Buffer) (op : Op) : Prop where
  isEdit : op.isEdit = true
  recorded : b.accepts op = true → b.log.recording = true
  reach : b.records op = true → k ≤ b.log.depth

instance (k : Nat) (b : Buffer) (op : Op) : Decidable (KeepsReach k b op) :=
  decidable_of_iff (op.isEdit = true ∧ (b.accepts op = true → b.log.recording = true) ∧
      (b.records op = true → k ≤ b.log.depth))
    ⟨fun ⟨h1, h2, h3⟩ => ⟨h1, h2, h3⟩, fun h => ⟨h.isEdit, h.recorded, h.reach⟩⟩

theorem savedDepth_undo (b : Buffer) : b.undo.log.savedDepth = b.log.savedDepth := by
  unfold undo
  rcases hu : b.undo? with _ | ⟨e, b'⟩
  · rfl
  · obtain ⟨-, log, hlog, rfl⟩ := undo?_eq_some.1 hu
    obtain ⟨rest, -, rfl⟩ := EditLog.undo?_eq_some.1 hlog
    rfl

theorem savedDepth_redo (b : Buffer) : b.redo.log.savedDepth = b.log.savedDepth := by
  unfold redo
  rcases hr : b.redo? with _ | ⟨e, b'⟩
  · rfl
  · obtain ⟨-, log, hlog, rfl⟩ := redo?_eq_some.1 hr
    obtain ⟨rest, -, rfl⟩ := EditLog.redo?_eq_some.1 hlog
    rfl

end Buffer

/-- An edit recorded at the saved depth, or above it, leaves that depth in
    force. -/
theorem EditLog.savedDepth_record {log : EditLog} {k : Nat} (hs : log.savedDepth = some k)
    (hr : log.recording = true) (hk : k ≤ log.depth) (e : Edit) :
    (log.record e).savedDepth = some k := by
  rw [EditLog.record, if_pos hr]
  simp [hs, hk]

namespace Buffer

variable {b : Buffer} {k : Nat} {op : Op}

theorem KeepsReach.savedDepth (h : KeepsReach k b op) (hs : b.log.savedDepth = some k) :
    (b.apply op).log.savedDepth = some k := by
  cases op with
  | insert p data =>
    rcases hi : b.insert? p data with _ | b'
    · simpa [Buffer.apply, hi] using hs
    · have hacc : b.accepts (.insert p data) = true := by simp [accepts, hi]
      have hr := h.recorded hacc
      simp only [Buffer.apply, hi, Option.getD_some]
      obtain ⟨-, rfl⟩ := insert?_eq_some.1 hi
      exact EditLog.savedDepth_record hs hr (h.reach (by simp [records, hr, hacc])) _
  | delete p n =>
    rcases hi : b.delete? p n with _ | b'
    · simpa [Buffer.apply, hi] using hs
    · have hacc : b.accepts (.delete p n) = true := by simp [accepts, hi]
      have hr := h.recorded hacc
      simp only [Buffer.apply, hi, Option.getD_some]
      obtain ⟨-, rfl⟩ := delete?_eq_some.1 hi
      exact EditLog.savedDepth_record hs hr (h.reach (by simp [records, hr, hacc])) _
  | undo => exact (savedDepth_undo b).trans hs
  | redo => exact (savedDepth_redo b).trans hs
  | addMark token =>
    by_cases hr : b.log.recording = true
    · exact EditLog.savedDepth_record hs hr (h.reach (by simp [records, hr])) _
    · simpa [Buffer.apply, addMark, EditLog.record, hr, Edit.isMark] using hs
  | _ => exact absurd h.isEdit Bool.false_ne_true

/-- A run that keeps the saved text within reach leaves the saved depth in
    force. -/
theorem savedDepth_run (hs : b.log.savedDepth = some k) (ops : List Op)
    (hops : ∀ i (hi : i < ops.length), KeepsReach k (b.run (ops.take i)) ops[i]) :
    (b.run ops).log.savedDepth = some k := by
  induction ops generalizing b with
  | nil => exact hs
  | cons op ops ih =>
    refine ih ((hops 0 (Nat.zero_lt_succ _)).savedDepth hs) fun i hi => ?_
    exact hops (i + 1) (Nat.succ_lt_succ hi)

/-- **Saved means saved.**  Part any run where the text was saved last: at the
    beginning, when a text was loaded, or by saving it.  If the text counts as
    saved, it is the text that was saved there.  And if since then there have
    only been recorded edits, marks, undos and redos, none of them recorded
    below the depth of the saved text, then the text counts as saved whenever
    that depth is reached again. -/
theorem isSaved_of_run (ops : List Op) :
    let draft := Draft.ofRun ops
    let b := empty.run ops
    draft.buffer = b ∧
    (b.isSaved = true → b.text = draft.saved.text) ∧
    ((∀ i (hi : i < draft.since.length),
        KeepsReach draft.saved.log.depth (draft.saved.run (draft.since.take i)) draft.since[i]) →
      b.log.depth = draft.saved.log.depth → b.isSaved = true) := by
  intro draft b
  have hb : draft.buffer = b := Draft.buffer_ofRun ops
  have hf : draft.Faithful := Draft.faithful_ofRun ops
  refine ⟨hb, fun hs => ?_, fun hkeeps hd => ?_⟩
  · rw [← hb] at hs ⊢
    exact hf.marks.of_isSaved hs
  · have hsaved : draft.saved.log.savedDepth = some draft.saved.log.depth := by
      simpa [isSaved, EditLog.isSaved] using hf.saved
    have hrun : draft.buffer.log.savedDepth = some draft.saved.log.depth :=
      savedDepth_run hsaved draft.since hkeeps
    rw [← hb] at hd ⊢
    simp [isSaved, EditLog.isSaved, hrun, hd]

/-- A text is edited after it was saved, and led back to the saved one on another
    branch. -/
theorem isSaved_of_run_branch :
    let ops : List Op := [.load (.ofList ['a', 'b']), .insert 2 (.ofList ['c']), .save,
      .delete 0 1, .addMark 7, .undo, .undo, .redo, .insert 0 (.ofList ['z']), .undo, .undo]
    let draft := Draft.ofRun ops
    let b := empty.run ops
    (∀ i (hi : i < draft.since.length),
      KeepsReach draft.saved.log.depth (draft.saved.run (draft.since.take i)) draft.since[i]) ∧
    b.log.depth = draft.saved.log.depth ∧ draft.since.length = 8 ∧ b.isSaved = true ∧
    b.text = .ofList ['a', 'b', 'c'] := by
  intro ops draft b
  have hkeeps : ∀ i (hi : i < draft.since.length),
      KeepsReach draft.saved.log.depth (draft.saved.run (draft.since.take i)) draft.since[i] := by
    decide
  have hdepth : b.log.depth = draft.saved.log.depth := by decide
  obtain ⟨-, htext, hsaved⟩ := isSaved_of_run ops
  have hb : b.isSaved = true := hsaved hkeeps hdepth
  exact ⟨hkeeps, hdepth, by decide, hb, (htext hb).trans (by decide)⟩

end Buffer

end StyledText
