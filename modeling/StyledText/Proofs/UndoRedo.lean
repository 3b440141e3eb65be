/-
  Undoing and redoing over whole runs.

  * `Since`: a buffer that has come from another one by recorded edits that are
    still on its log, above the edits of the other one;
  * `undo_to_start`: taking these edits back gives the text, the styles, the
    line table and the saved state of the other buffer;
  * `log_not_stale`: all the edits on the log of a buffer, however it has come
    about, find their text when they are taken back or made again, and some
    edits taken back and made again leave the text and the log as they were.
-/
import Mathlib.Data.List.Induction
import Mathlib.Logic.Function.Iterate
import StyledText.Proofs.BufferRun

namespace StyledText

namespace Buffer

variable {b c : Buffer} {e : Edit} {rest : List Edit}

/-! ## One undo, one redo -/

theorem undo?_of_done (hw : b.readOnly = false) (hd : b.log.done = e :: rest) :
    b.undo? = some (e, b.undo) ∧
      b.undo.log = { b.log with done := rest, undone := e :: b.log.undone } := by
  have hu : b.undo? = some (e, { b.revert e with
      log := { b.log with done := rest, undone := e :: b.log.undone } }) :=
    undo?_eq_some.2 ⟨hw, _, EditLog.undo?_eq_some.2 ⟨rest, hd, rfl⟩, rfl⟩
  have hb : b.undo = { b.revert e with
      log := { b.log with done := rest, undone := e :: b.log.undone } } := by
    rw [undo, hu]; rfl
  exact ⟨by rw [hu, hb], by rw [hb]⟩

theorem undo_of_done_nil (hd : b.log.done = []) : b.undo = b := by
  have hl : b.log.undo? = none := by simp [EditLog.undo?, EditLog.popDone?, hd]
  unfold undo undo?
  cases b.readOnly <;> simp [hl]

theorem redo?_of_undone (hw : b.readOnly = false) (hd : b.log.undone = e :: rest) :
    b.redo? = some (e, b.redo) ∧
      b.redo.log = { b.log with done := e :: b.log.done, undone := rest } := by
  have hu : b.redo? = some (e, { b.reapply e with
      log := { b.log with done := e :: b.log.done, undone := rest } }) :=
    redo?_eq_some.2 ⟨hw, _, EditLog.redo?_eq_some.2 ⟨rest, hd, rfl⟩, rfl⟩
  have hb : b.redo = { b.reapply e with
      log := { b.log with done := e :: b.log.done, undone := rest } } := by
    rw [redo, hu]; rfl
  exact ⟨by rw [hu, hb], by rw [hb]⟩

theorem redo_of_undone_nil (hd : b.log.undone = []) : b.redo = b := by
  have hl : b.log.redo? = none := by simp [EditLog.redo?, EditLog.popUndone?, hd]
  unfold redo redo?
  cases b.readOnly <;> simp [hl]

theorem readOnly_undo (b : Buffer) : b.undo.readOnly = b.readOnly := by
  unfold undo
  rcases hu : b.undo? with _ | ⟨e, b'⟩
  · rfl
  · obtain ⟨-, log, -, rfl⟩ := undo?_eq_some.1 hu
    cases e <;> rfl

theorem readOnly_redo (b : Buffer) : b.redo.readOnly = b.readOnly := by
  unfold redo
  rcases hu : b.redo? with _ | ⟨e, b'⟩
  · rfl
  · obtain ⟨-, log, -, rfl⟩ := redo?_eq_some.1 hu
    cases e <;> rfl

theorem Sound.iterate_undo (h : b.Sound) (k : Nat) : (Buffer.undo^[k] b).Sound :=
  Function.Iterate.rec Sound h (fun _ => Sound.undo) k

theorem Sound.iterate_redo (h : b.Sound) (k : Nat) : (Buffer.redo^[k] b).Sound :=
  Function.Iterate.rec Sound h (fun _ => Sound.redo) k

/-! ## Back to where some edits began -/

/-- What is done to the text and the log by one who edits: inserting, deleting,
    marking, undoing and redoing. -/
def Op.isEdit : Op → Bool
  | insert _ _ | delete _ _ | addMark _ | undo | redo => true
  | load _ | setStyleAt _ _ | setStyles _ _ | keepStyles _ | setReadOnly _ | setRecording _
  | clearLog | save => false

/-- **`c` has come from `b` by edits that can be taken back**: they lie on the
    log of `c`, above the edits of `b`. -/
structure Since (b c : Buffer) : Prop where
  sound : c.Sound
  writable : c.readOnly = false
  recording : c.log.recording = true
  saved : c.log.savedDepth = b.log.savedDepth
  spans : c.log.Spans b.log.done b.content c.content

namespace Since

theorem depth_le (h : Since b c) : b.log.depth ≤ c.log.depth := by
  obtain ⟨es, hes, -⟩ := h.spans.behind
  simp only [EditLog.depth, hes, List.length_append]
  omega

/-- When all later edits have been taken back, everything is as it was. -/
theorem eq_of_depth (h : Since b c) (hb : b.Sound) (hd : c.log.depth = b.log.depth) :
    c.text = b.text ∧ c.styles = b.styles ∧ c.lines = b.lines ∧ c.isSaved = b.isSaved := by
  obtain ⟨es, hes, hp⟩ := h.spans.behind
  have hnil : es = [] := by
    simp only [EditLog.depth, hes, List.length_append] at hd
    exact List.eq_nil_of_length_eq_zero (by omega)
  subst hnil
  have hc : b.content = c.content := hp
  have ht : c.text = b.text := congrArg Content.text hc.symm
  refine ⟨ht, congrArg Content.styles hc.symm, ?_, ?_⟩
  · rw [h.sound.lines_eq, hb.lines_eq, ht]
  · simp only [isSaved, EditLog.isSaved, h.saved, hd]

/-- A recorded edit is one more to be taken back.  The saved text stays within
    reach, since it lies below the edits of `b`. -/
theorem record (h : Since b c) (hs : ∀ k ∈ b.log.savedDepth, k ≤ b.log.depth) {c' : Buffer}
    (hc : c'.Sound) (hw : c'.readOnly = c.readOnly) (hl : c'.log = c.log.record e)
    (he : e.Leads c.content c'.content) : Since b c' := by
  have hr := h.recording
  refine ⟨hc, hw.trans h.writable, ?_, ?_, by rw [hl]; exact h.spans.record hr he⟩
  · rw [hl, EditLog.record, if_pos hr]
    exact hr
  · rw [hl, EditLog.record, if_pos hr]
    dsimp only
    rw [h.saved]
    rcases hk : b.log.savedDepth with _ | k
    · rfl
    · exact if_pos (decide_eq_true ((hs k hk).trans h.depth_le))

/-- Taking one of the later edits back leaves one less of them. -/
theorem undo (h : Since b c) (hd : b.log.depth < c.log.depth) :
    Since b c.undo ∧ c.undo.log.depth + 1 = c.log.depth := by
  rcases hdone : c.log.done with _ | ⟨e, rest⟩
  · simp [EditLog.depth, hdone] at hd
  · obtain ⟨hu, hlog⟩ := undo?_of_done h.writable hdone
    refine ⟨⟨h.sound.undo, (readOnly_undo c).trans h.writable, by rw [hlog]; exact h.recording,
      by rw [hlog]; exact h.saved, ?_⟩, by simp [hlog, EditLog.depth, hdone]⟩
    obtain ⟨-, log, hlu, hc⟩ := undo?_eq_some.1 hu
    obtain ⟨w, he, hw⟩ := h.spans.undo hd hlu
    have hcont : c.undo.content = w := by
      rw [← he.back_eq h.sound.aligned, ← content_revert, hc]; rfl
    have hl : c.undo.log = log := by rw [hc]
    rw [hcont, hl]
    exact hw

theorem redo (h : Since b c) : Since b c.redo := by
  rcases hundone : c.log.undone with _ | ⟨e, rest⟩
  · rw [redo_of_undone_nil hundone]
    exact h
  · obtain ⟨hu, hlog⟩ := redo?_of_undone h.writable hundone
    refine ⟨h.sound.redo, (readOnly_redo c).trans h.writable, by rw [hlog]; exact h.recording,
      by rw [hlog]; exact h.saved, ?_⟩
    obtain ⟨-, log, hlu, hc⟩ := redo?_eq_some.1 hu
    obtain ⟨w, he, hw⟩ := h.spans.redo hlu
    have hcont : c.redo.content = w := by
      rw [← he.forth_eq h.sound.aligned, ← content_reapply, hc]; rfl
    have hl : c.redo.log = log := by rw [hc]
    rw [hcont, hl]
    exact hw

/-- **An edit that does not reach below `b` can be taken back as well.** -/
theorem apply (h : Since b c) (hs : ∀ k ∈ b.log.savedDepth, k ≤ b.log.depth) {op : Op}
    (hop : op.isEdit = true) (hd : b.log.depth ≤ (c.apply op).log.depth) :
    Since b (c.apply op) := by
  have hsound := h.sound.apply op
  cases op with
  | insert p data =>
    rcases hi : c.insert? p data with _ | c'
    · simpa [Buffer.apply, hi] using h
    · simp only [Buffer.apply, hi, Option.getD_some] at hsound ⊢
      have he := leads_insert? hi
      obtain ⟨-, rfl⟩ := insert?_eq_some.1 hi
      exact h.record hs hsound rfl rfl he
  | delete p n =>
    rcases hi : c.delete? p n with _ | c'
    · simpa [Buffer.apply, hi] using h
    · simp only [Buffer.apply, hi, Option.getD_some] at hsound ⊢
      have he := leads_delete? h.sound.toConsistent hi
      obtain ⟨-, rfl⟩ := delete?_eq_some.1 hi
      exact h.record hs hsound rfl rfl he
  | addMark token => exact h.record hs hsound rfl rfl rfl
  | undo =>
    rcases hdone : c.log.done with _ | ⟨e, rest⟩
    · simpa only [Buffer.apply, undo_of_done_nil hdone] using h
    · refine (h.undo ?_).1
      obtain ⟨-, hlog⟩ := undo?_of_done h.writable hdone
      simp only [Buffer.apply, hlog, EditLog.depth, hdone, List.length_cons] at hd ⊢
      omega
  | redo => exact h.redo
  | _ => exact absurd hop Bool.false_ne_true

theorem iterate_undo (h : Since b c) {n : Nat} (hn : c.log.depth = b.log.depth + n) :
    Since b (Buffer.undo^[n] c) ∧ (Buffer.undo^[n] c).log.depth = b.log.depth := by
  induction n generalizing c with
  | zero => exact ⟨h, hn⟩
  | succ n ih =>
    obtain ⟨hs, hd⟩ := h.undo (by omega)
    exact ih hs (by omega)

end Since

/-- **A run of edits that does not reach below `b` can be taken back.** -/
theorem since_run (hb : b.Sound) (hw : b.readOnly = false) (hr : b.log.recording = true)
    (hu : b.log.undone = []) (hs : ∀ k ∈ b.log.savedDepth, k ≤ b.log.depth) (ops : List Op)
    (hops : ∀ op ∈ ops, op.isEdit = true)
    (hd : ∀ k ≤ ops.length, b.log.depth ≤ (b.run (ops.take k)).log.depth) :
    Since b (b.run ops) := by
  induction ops using List.reverseRecOn with
  | nil => exact ⟨hb, hw, hr, rfl, .start rfl hu _⟩
  | append_singleton ops op ih =>
    have hinit : Since b (b.run ops) := by
      refine ih (fun op' hop' => hops op' (List.mem_append_left _ hop')) fun k hk => ?_
      have := hd k (by rw [List.length_append]; omega)
      rwa [List.take_append_of_le_length hk] at this
    have hlast := hd (ops ++ [op]).length le_rfl
    rw [List.take_length, run_append] at hlast
    rw [run_append]
    exact hinit.apply hs (hops op (by simp)) hlast

/-- **Taking edits back restores what was there before them.**  From a buffer
    that takes and records edits and has none to make again, edit on in any way
    that does not take back what lies before, and then take back as many edits
    as there are more than at the beginning: text, styles, line table and saved
    state are those of the beginning. -/
theorem undo_to_start (hb : b.Reachable) (hw : b.readOnly = false)
    (hr : b.log.recording = true) (hu : b.log.undone = []) (ops : List Op)
    (hops : ∀ op ∈ ops, op.isEdit = true)
    (hd : ∀ k ≤ ops.length, b.log.depth ≤ (b.run (ops.take k)).log.depth) :
    let c := b.run ops
    let u := undo^[c.log.depth - b.log.depth] c
    u.log.depth = b.log.depth ∧ u.text = b.text ∧ u.styles = b.styles ∧ u.lines = b.lines ∧
      u.isSaved = b.isSaved := by
  intro c u
  have hsound := hb.sound
  have hsaved : ∀ k ∈ b.log.savedDepth, k ≤ b.log.depth := by
    intro k hk
    simpa [hu] using hsound.fits.saved_le k hk
  have hc : Since b c := since_run hsound hw hr hu hsaved ops hops hd
  have hle := hc.depth_le
  obtain ⟨hs, hdepth⟩ := hc.iterate_undo (n := c.log.depth - b.log.depth) (by omega)
  exact ⟨hdepth, hs.eq_of_depth hsound hdepth⟩

/-- A line break is split and joined again, an edit is replaced by another one,
    and a mark is taken back. -/
theorem undo_to_start_split :
    let b := empty.run [.load (.ofList ['a', 'b', '\r', '\n', 'c']), .setStyles 0 #[1, 2, 3, 4, 5]]
    let c := b.run [.insert 3 (.ofList ['x']), .delete 0 4, .undo, .redo, .addMark 7, .undo]
    let u := undo^[c.log.depth - b.log.depth] c
    u.text = b.text ∧ u.styles = some #[1, 2, 3, 4, 5] ∧ u.lines = b.lines ∧ u.isSaved = true := by
  intro b c u
  obtain ⟨-, ht, hs, hl, hsaved⟩ :=
    undo_to_start (b := b) ⟨_, rfl⟩ (by decide) (by decide) (by decide)
      [.insert 3 (.ofList ['x']), .delete 0 4, .undo, .redo, .addMark 7, .undo]
      (by decide) (by decide)
  exact ⟨ht, hs.trans (by decide), hl, hsaved.trans (by decide)⟩

/-! ## Logs that are not stale -/

theorem done_iterate_undo (hw : b.readOnly = false) (k : Nat) :
    (undo^[k] b).readOnly = false ∧ (undo^[k] b).log.done = b.log.done.drop k := by
  induction k with
  | zero => exact ⟨hw, rfl⟩
  | succ k ih =>
    obtain ⟨hwk, hdk⟩ := ih
    rw [Function.iterate_succ_apply']
    refine ⟨(readOnly_undo _).trans hwk, ?_⟩
    rw [← List.drop_drop, ← hdk]
    rcases hdone : (undo^[k] b).log.done with _ | ⟨e, rest⟩
    · rw [undo_of_done_nil hdone, hdone]; rfl
    · rw [(undo?_of_done hwk hdone).2]; rfl

theorem undone_iterate_redo (hw : b.readOnly = false) (k : Nat) :
    (redo^[k] b).readOnly = false ∧ (redo^[k] b).log.undone = b.log.undone.drop k := by
  induction k with
  | zero => exact ⟨hw, rfl⟩
  | succ k ih =>
    obtain ⟨hwk, hdk⟩ := ih
    rw [Function.iterate_succ_apply']
    refine ⟨(readOnly_redo _).trans hwk, ?_⟩
    rw [← List.drop_drop, ← hdk]
    rcases hundone : (redo^[k] b).log.undone with _ | ⟨e, rest⟩
    · rw [redo_of_undone_nil hundone, hundone]; rfl
    · rw [(redo?_of_undone hwk hundone).2]; rfl

/-- Each edit of the log is taken back in its turn. -/
theorem undo?_iterate (hw : b.readOnly = false) {k : Nat} (hk : k < b.log.depth) :
    ∃ e, b.log.done[k]? = some e ∧ (undo^[k] b).undo? = some (e, undo^[k + 1] b) := by
  obtain ⟨hwk, hdk⟩ := done_iterate_undo hw k
  rw [List.drop_eq_getElem_cons hk] at hdk
  obtain ⟨hu, -⟩ := undo?_of_done hwk hdk
  exact ⟨_, List.getElem?_eq_getElem hk, by rw [Function.iterate_succ_apply']; exact hu⟩

/-- Each edit taken back is made again in its turn. -/
theorem redo?_iterate (hw : b.readOnly = false) {k : Nat} (hk : k < b.log.undone.length) :
    ∃ e, b.log.undone[k]? = some e ∧ (redo^[k] b).redo? = some (e, redo^[k + 1] b) := by
  obtain ⟨hwk, hdk⟩ := undone_iterate_redo hw k
  rw [List.drop_eq_getElem_cons hk] at hdk
  obtain ⟨hu, -⟩ := redo?_of_undone hwk hdk
  exact ⟨_, List.getElem?_eq_getElem hk, by rw [Function.iterate_succ_apply']; exact hu⟩

/-- Making the edit just taken back again leaves everything as it was, but for
    the styles of text put in again. -/
theorem redo_undo (h : b.Sound) (hw : b.readOnly = false) (hd : 0 < b.log.depth) :
    ∃ styles, b.undo.redo = { b with styles } := by
  rcases hdone : b.log.done with _ | ⟨e, rest⟩
  · simp [EditLog.depth, hdone] at hd
  · obtain ⟨hu, hul⟩ := undo?_of_done hw hdone
    have hwu := (readOnly_undo b).trans hw
    obtain ⟨hr, hrl⟩ := redo?_of_undone hwu (congrArg EditLog.undone hul)
    have he := (h.undo? hu).2
    have he' := (h.undo.redo? hr).2
    have ht : b.undo.redo.content.bare = b.content.bare :=
      (he'.forth_eq (Content.aligned_bare _)).symm.trans (he.forth_eq (Content.aligned_bare _))
    have htext : b.undo.redo.text = b.text := congrArg Content.text ht
    have hlines : b.undo.redo.lines = b.lines := by
      rw [h.undo.redo.lines_eq, h.lines_eq, htext]
    have hlog : b.undo.redo.log = b.log := by
      rw [hrl, hul, ← hdone]
    have hread : b.undo.redo.readOnly = b.readOnly :=
      (readOnly_redo _).trans (readOnly_undo b)
    refine ⟨b.undo.redo.styles, ?_⟩
    rw [← htext, ← hlines, ← hlog, ← hread]

/-- What is made again does not hang on the styles at hand. -/
theorem redo_withStyles (b : Buffer) (styles : Option (Array UInt8)) :
    ∃ styles', { b with styles }.redo = { b.redo with styles := styles' } := by
  obtain ⟨text, old, lines, log, readOnly⟩ := b
  unfold redo redo?
  cases readOnly with
  | true => exact ⟨styles, rfl⟩
  | false =>
    rcases log.redo? with _ | ⟨e, log'⟩
    · exact ⟨styles, rfl⟩
    · refine ⟨(Buffer.reapply ⟨text, styles, lines, log, false⟩ e).styles, ?_⟩
      cases e <;> rfl

theorem iterate_redo_withStyles (b : Buffer) (styles : Option (Array UInt8)) (k : Nat) :
    ∃ styles', redo^[k] { b with styles } = { redo^[k] b with styles := styles' } := by
  induction k with
  | zero => exact ⟨styles, rfl⟩
  | succ k ih =>
    obtain ⟨mid, hmid⟩ := ih
    simp only [Function.iterate_succ_apply', hmid]
    exact redo_withStyles _ mid

/-- Edits taken back and made again leave everything as it was, but for the
    styles of text put in again. -/
theorem iterate_redo_undo (h : b.Sound) (hw : b.readOnly = false) {j : Nat}
    (hj : j ≤ b.log.depth) : ∃ styles, redo^[j] (undo^[j] b) = { b with styles } := by
  induction j with
  | zero => exact ⟨b.styles, rfl⟩
  | succ j ih =>
    -- The innermost pair goes first: what is left are `j` pairs around other styles.
    obtain ⟨hwj, hdj⟩ := done_iterate_undo hw j
    have hpos : 0 < (undo^[j] b).log.depth := by
      rw [EditLog.depth, hdj, List.length_drop]
      exact Nat.sub_pos_of_lt hj
    obtain ⟨s₁, h₁⟩ := redo_undo (h.iterate_undo j) hwj hpos
    obtain ⟨s₂, h₂⟩ := iterate_redo_withStyles (undo^[j] b) s₁ j
    obtain ⟨s₃, h₃⟩ := ih (Nat.le_of_succ_le hj)
    refine ⟨s₂, ?_⟩
    rw [Function.iterate_succ_apply, Function.iterate_succ_apply', h₁, h₂, h₃]

/-- **No log goes stale.**  After any run, once the buffer takes edits: each edit
    whose turn it is to be taken back finds the text that it put in, or room for
    what it took out, and each edit whose turn it is to be made again finds the
    text that it took out, or room for what it put in.  All along there is one
    style for each character, and edits taken back and made again leave text,
    lines, log and saved state as they were. -/
theorem log_not_stale (ops : List Op) :
    let b := (empty.run ops).setReadOnly false
    (∀ k < b.log.depth, ∃ e, b.log.done[k]? = some e ∧
      (undo^[k] b).undo? = some (e, undo^[k + 1] b) ∧ e.CanRevert (undo^[k] b).text) ∧
    (∀ k < b.log.undone.length, ∃ e, b.log.undone[k]? = some e ∧
      (redo^[k] b).redo? = some (e, redo^[k + 1] b) ∧ e.CanReapply (redo^[k] b).text) ∧
    (∀ k, (undo^[k] b).content.Aligned ∧ (redo^[k] b).content.Aligned) ∧
    (∀ e ∈ b.log.done ++ b.log.undone, e.StylesFit) ∧
    ∀ j ≤ b.log.depth, let c := redo^[j] (undo^[j] b)
      c.text = b.text ∧ c.lines = b.lines ∧ c.log = b.log ∧ c.isSaved = b.isSaved := by
  intro b
  have hw : b.readOnly = false := rfl
  have hsound : b.Sound := (sound_empty.run ops).apply (.setReadOnly false)
  refine ⟨fun k hk => ?_, fun k hk => ?_, fun k => ⟨?_, ?_⟩, hsound.fits.styles_fit, fun j hj => ?_⟩
  · obtain ⟨e, he, hu⟩ := undo?_iterate hw hk
    exact ⟨e, he, hu, ((hsound.iterate_undo k).undo? hu).2.canRevert⟩
  · obtain ⟨e, he, hr⟩ := redo?_iterate hw hk
    exact ⟨e, he, hr, ((hsound.iterate_redo k).redo? hr).2.canReapply⟩
  · exact (hsound.iterate_undo k).aligned
  · exact (hsound.iterate_redo k).aligned
  · obtain ⟨styles, hc⟩ := iterate_redo_undo hsound hw hj
    rw [hc]
    exact ⟨rfl, rfl, rfl, rfl⟩

end Buffer

end StyledText
