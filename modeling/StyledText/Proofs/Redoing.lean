/-
  An edit made again and taken back at once.

  A deletion keeps the styles of the text that it takes out, and gives them back with the
  text.  It keeps those that the text had when it was taken out first, also when it is made
  again.  Styles that the text was given in between are lost then: when the deletion has
  been made again and taken back, the older ones are there.

  * `Content.put_cut_of_size`: text that is taken out and put in again with known styles
    has these written over its own;
  * `Keeping`: styles are kept, in the buffer and by every deletion on its log, and all
    operations that do not drop the styles leave it so;
  * `Keeping.undo?_of_redo?`: what is there when an edit was made again and taken back;
  * `undo_redo_of_run`: it is all that was there before, but for the styles of a deletion
    that were not up to date.
-/
import StyledText.Proofs.Cells
import StyledText.Proofs.UndoRedo

namespace StyledText

/-! ## Text taken out and put in again -/

namespace Buffer

variable {styles values : Array UInt8} {p : Nat}

/-- Styles that all find a place stand in the place of as many others. -/
theorem overwrite_of_fits (h : p + values.size ≤ styles.size) :
    overwrite styles p values =
      styles.extract 0 p ++ values ++ styles.extract (p + values.size) styles.size := by
  by_cases hp : p < styles.size
  · rw [overwrite_eq_append hp, Nat.min_eq_left h, Nat.add_sub_cancel_left, Array.extract_size]
  · have hnone : values = #[] := Array.eq_empty_of_size_eq_zero (by omega)
    rw [overwrite_of_size_le (Nat.le_of_not_lt hp), hnone, Array.append_empty, Array.size_empty,
      Nat.add_zero, Array.extract_append_extract, Nat.zero_min, Nat.max_eq_right (by omega),
      Array.extract_size]

/-- To write such styles changes nothing only if they stood there before. -/
theorem overwrite_eq_self_iff_of_fits (h : p + values.size ≤ styles.size) :
    overwrite styles p values = styles ↔ styles.extract p (p + values.size) = values := by
  by_cases hp : p < styles.size
  · rw [overwrite_eq_self_iff hp, Nat.min_eq_left h, Nat.add_sub_cancel_left, Array.extract_size]
  · have hnone : values = #[] := Array.eq_empty_of_size_eq_zero (by omega)
    refine iff_of_true (overwrite_of_size_le (Nat.le_of_not_lt hp)) ?_
    rw [hnone, Array.size_empty, Nat.add_zero, Array.extract_empty_of_stop_le_start le_rfl]

end Buffer

/-- **Text that is taken out and put in again with known styles has these then.** -/
theorem Content.put_cut_of_size {x : Content} {p : Nat} {styles kept : Array UInt8}
    (hs : x.styles = some styles) (hx : x.Aligned) (hn : p + kept.size ≤ x.text.length) :
    (x.cut p kept.size).put p (x.text.extract p (p + kept.size)) (some kept) =
      ⟨x.text, some (Buffer.overwrite styles p kept)⟩ := by
  have hsize : styles.size = x.text.length := hx styles hs
  ext1
  · exact Text.insert_remove hn
  · have hfor : Buffer.stylesFor (x.text.extract p (p + kept.size)).length (some kept) = kept := by
      refine stylesFor_of_size ?_
      rw [Text.length_extract]
      omega
    simp only [cut, put, hs, Option.map_some, hfor, Buffer.overwrite_of_fits (hsize ▸ hn)]
    exact congrArg some (splice_excise_eq (hsize ▸ hn) kept)

/-! ## Deletions that keep styles -/

/-- A deletion keeps styles. -/
def Edit.KeepsStyles : Edit → Prop
  | delete _ _ known => known.isSome = true
  | insert _ _ | mark _ => True

namespace Buffer

variable {b b' : Buffer} {e : Edit} {op : Op}

/-- **Styles are kept**, one for each character, and so they are by every deletion on the
    log. -/
structure Keeping (b : Buffer) : Prop extends Sound b where
  kept : b.content.Kept
  log_keeps : ∀ e ∈ b.log.done ++ b.log.undone, e.KeepsStyles

theorem keeping_empty : empty.Keeping where
  toSound := sound_empty
  kept := ⟨#[], rfl, rfl⟩
  log_keeps := by simp [empty, EditLog.fresh]

/-- An edit that keeps styles may be recorded. -/
theorem Keeping.record (h : b.Keeping) (he : e.KeepsStyles) :
    ∀ e' ∈ (b.log.record e).done ++ (b.log.record e).undone, e'.KeepsStyles := by
  unfold EditLog.record
  split_ifs
  · rw [List.append_nil]
    exact List.forall_mem_cons.2
      ⟨he, fun e' he' => h.log_keeps e' (List.mem_append_left _ he')⟩
  · exact h.log_keeps
  · simp

/-- **Every operation that does not drop the styles goes on keeping them.** -/
theorem Keeping.apply (h : b.Keeping) (hop : op.dropsStyles = false) : (b.apply op).Keeping := by
  refine ⟨h.toSound.apply op, (refines_apply h.toSound h.kept hop).kept, ?_⟩
  obtain ⟨styles, hs, -⟩ := h.kept
  have hs : b.styles = some styles := hs
  cases op with
  | load text =>
    rw [Buffer.apply, load]
    split_ifs
    · exact h.log_keeps
    · simp [EditLog.save, EditLog.clear]
  | insert p data =>
    rcases hi : b.insert? p data with _ | b'
    · simpa [Buffer.apply, hi] using h.log_keeps
    · obtain ⟨-, rfl⟩ := insert?_eq_some.1 hi
      simp only [Buffer.apply, hi, Option.getD_some]
      exact h.record trivial
  | delete p n =>
    rcases hd : b.delete? p n with _ | b'
    · simpa [Buffer.apply, hd] using h.log_keeps
    · obtain ⟨-, rfl⟩ := delete?_eq_some.1 hd
      simp only [Buffer.apply, hd, Option.getD_some]
      exact h.record (by simp [deletion, Edit.KeepsStyles, hs])
  | undo =>
    rcases hu : b.undo? with _ | ⟨e, b'⟩
    · simpa [Buffer.apply, undo, hu] using h.log_keeps
    · obtain ⟨-, log, hlog, rfl⟩ := undo?_eq_some.1 hu
      simp only [Buffer.apply, undo, hu, Option.map_some, Option.getD_some]
      exact fun e' he' => h.log_keeps e' ((EditLog.perm_undo hlog).mem_iff.1 he')
  | redo =>
    rcases hr : b.redo? with _ | ⟨e, b'⟩
    · simpa [Buffer.apply, redo, hr] using h.log_keeps
    · obtain ⟨-, log, hlog, rfl⟩ := redo?_eq_some.1 hr
      simp only [Buffer.apply, redo, hr, Option.map_some, Option.getD_some]
      exact fun e' he' => h.log_keeps e' ((EditLog.perm_redo hlog).mem_iff.1 he')
  | addMark token => exact h.record trivial
  | setStyleAt p style =>
    rw [Buffer.apply, setStyleAt?_eq hs]
    split_ifs <;> exact h.log_keeps
  | setStyles p values =>
    rw [Buffer.apply, setStyles_eq_overwrite hs]
    exact h.log_keeps
  | keepStyles keep =>
    obtain rfl : keep = true := by simpa [Op.dropsStyles] using hop
    have hsame : b.keepStyles true = b := by simp [keepStyles, hs]
    rw [Buffer.apply, hsame]
    exact h.log_keeps
  | setReadOnly readOnly => exact h.log_keeps
  | setRecording recording => exact h.log_keeps
  | clearLog => simp [Buffer.apply, clearLog, EditLog.clear]
  | save => exact h.log_keeps

theorem Keeping.run (h : b.Keeping) {ops : List Op} (hops : ∀ op ∈ ops, op.dropsStyles = false) :
    (b.run ops).Keeping := by
  induction ops generalizing b with
  | nil => exact h
  | cons op ops ih =>
    obtain ⟨hfirst, hrest⟩ := List.forall_mem_cons.1 hops
    exact ih (h.apply hfirst) hrest

/-- Such a deletion keeps a style for each of its characters. -/
theorem Keeping.exists_kept (h : b.Keeping) {p : Nat} {data : Text} {known : Option (Array UInt8)}
    (he : .delete p data known ∈ b.log.done ++ b.log.undone) :
    ∃ kept, known = some kept ∧ kept.size = data.length := by
  obtain ⟨kept, rfl⟩ := Option.isSome_iff_exists.1 (h.log_keeps _ he)
  exact ⟨kept, rfl, h.fits.styles_fit _ he kept rfl⟩

/-! ## Made again, and taken back -/

/-- The buffer with the styles that a deletion keeps written over those of its text. -/
def putBack (b : Buffer) : Edit → Buffer
  | .delete p _ (some kept) => b.setStyles p kept
  | _ => b

/-- The styles that a deletion keeps are the ones that its text has. -/
def UpToDate (b : Buffer) : Edit → Prop
  | .delete p data known => known = some (b.styleRange p data.length)
  | .insert _ _ | .mark _ => True

instance (b : Buffer) : (e : Edit) → Decidable (b.UpToDate e)
  | .delete p data known => inferInstanceAs (Decidable (known = some (b.styleRange p data.length)))
  | .insert _ _ | .mark _ => inferInstanceAs (Decidable True)

theorem putBack_eq (b : Buffer) (e : Edit) :
    b.putBack e = { b with styles := (b.putBack e).styles } := by
  unfold putBack
  split
  · rename_i p _ kept
    unfold setStyles setStyles?
    rcases b.styles with _ | styles
    · rfl
    · dsimp only [Option.bind_eq_bind, Option.bind_some]
      split_ifs <;> rfl
  · rfl

theorem Sound.putBack (h : b.Sound) (e : Edit) : (b.putBack e).Sound := by
  unfold Buffer.putBack
  split
  · exact h.apply (.setStyles _ _)
  · exact h

/-- **An edit made again and taken back puts in the styles that it keeps.** -/
theorem Keeping.back_forth (h : b.Keeping) (he : e ∈ b.log.done ++ b.log.undone)
    (hcan : e.CanReapply b.text) : e.back (e.forth b.content) = (b.putBack e).content := by
  cases e with
  | insert p data => exact Content.cut_put h.aligned hcan
  | delete p data known =>
    obtain ⟨kept, rfl, hkept⟩ := h.exists_kept he
    obtain ⟨styles, hs, -⟩ := h.kept
    obtain ⟨hn, hdata⟩ := hcan
    rw [← hkept] at hn hdata
    rw [putBack, setStyles_eq_overwrite hs, Edit.forth, Edit.back, ← hkept, ← hdata]
    exact Content.put_cut_of_size hs h.aligned hn
  | mark token => rfl

/-- That changes nothing only if these styles are up to date. -/
theorem Keeping.putBack_eq_self_iff (h : b.Keeping) (he : e ∈ b.log.done ++ b.log.undone)
    (hcan : e.CanReapply b.text) : b.putBack e = b ↔ b.UpToDate e := by
  cases e with
  | insert p data => exact iff_of_true rfl trivial
  | delete p data known =>
    obtain ⟨kept, rfl, hkept⟩ := h.exists_kept he
    obtain ⟨styles, hs, hsize⟩ := h.kept
    have hs : b.styles = some styles := hs
    have hfits : p + kept.size ≤ styles.size := by rw [hkept, hsize]; exact hcan.1
    have hsame : b.putBack (.delete p data (some kept)) = b ↔
        overwrite styles p kept = styles := by
      rw [putBack, setStyles_eq_overwrite hs]
      constructor
      · intro heq
        exact Option.some.inj ((congrArg Buffer.styles heq).trans hs)
      · intro heq
        rw [heq, ← hs]
    rw [hsame, overwrite_eq_self_iff_of_fits hfits, UpToDate, styleRange, hs, ← hkept,
      Option.some.injEq, eq_comm]
  | mark token => exact iff_of_true rfl trivial

/-- Sound buffers with the same content, log and switch are the same. -/
theorem Sound.eq_of_content (h : b.Sound) (h' : b'.Sound) (hcontent : b'.content = b.content)
    (hlog : b'.log = b.log) (hreadOnly : b'.readOnly = b.readOnly) : b' = b := by
  have htext : b'.text = b.text := congrArg Content.text hcontent
  have hstyles : b'.styles = b.styles := congrArg Content.styles hcontent
  have hlines : b'.lines = b.lines := by rw [h'.lines_eq, h.lines_eq, htext]
  obtain ⟨text, styles, lines, log, readOnly⟩ := b'
  obtain rfl : text = b.text := htext
  obtain rfl : styles = b.styles := hstyles
  obtain rfl : lines = b.lines := hlines
  obtain rfl : log = b.log := hlog
  obtain rfl : readOnly = b.readOnly := hreadOnly
  rfl

/-- **The edit that was made again is the next one to be taken back**, and what is there
    then is what was there before, with the styles that the edit keeps. -/
theorem Keeping.undo?_of_redo? (h : b.Keeping) (hr : b.redo? = some (e, b')) :
    b'.undo? = some (e, b.putBack e) := by
  have hcan : e.CanReapply b.text := (h.toSound.redo? hr).2.canReapply
  have hsound : b'.Sound := (h.toSound.redo? hr).1
  obtain ⟨hwrite, log, hlog, hb'⟩ := redo?_eq_some.1 hr
  obtain ⟨rest, hundone, hlog'⟩ := EditLog.redo?_eq_some.1 hlog
  have hforth : b'.content = e.forth b.content := by
    rw [hb', ← content_reapply]
    rfl
  have hwrite' : b'.readOnly = false := by
    rw [hb', ← hwrite]
    cases e <;> rfl
  have hdone : b'.log.done = e :: b.log.done := by rw [hb', hlog']
  obtain ⟨hu, hlogu⟩ := undo?_of_done hwrite' hdone
  obtain ⟨-, log', -, hb''⟩ := undo?_eq_some.1 hu
  rw [hu]
  refine congrArg (fun b'' => some (e, b'')) ?_
  have hput := b.putBack_eq e
  refine (h.toSound.putBack e).eq_of_content hsound.undo ?_ ?_ ?_
  · rw [← h.back_forth (EditLog.mem_of_redo? hlog) hcan, ← hforth, ← content_revert, hb'']
    rfl
  · rw [hlogu, hput, hb', hlog', ← hundone]
  · rw [readOnly_undo, hwrite', hput, hwrite]

/-- **An edit that was just taken back is up to date.** -/
theorem Keeping.upToDate_of_undo? (h : b.Keeping) (hu : b.undo? = some (e, b')) :
    b'.UpToDate e := by
  have hcan : e.CanRevert b.text := (h.toSound.undo? hu).2.canRevert
  obtain ⟨-, log, hlog, rfl⟩ := undo?_eq_some.1 hu
  cases e with
  | insert p data => trivial
  | delete p data known =>
    obtain ⟨kept, rfl, hkept⟩ := h.exists_kept (EditLog.mem_of_undo? hlog)
    obtain ⟨styles, hs, hsize⟩ := h.kept
    have hs : b.styles = some styles := hs
    have hp : p ≤ styles.size := by rw [hsize]; exact hcan
    simp only [UpToDate, styleRange, revert, place, hs, Option.map_some,
      ← hkept, Content.stylesFor_of_size rfl, extract_splice hp]
  | mark token => trivial

/-- **To make an edit again and take it back**, in a buffer that has kept styles all along.
    The edit that is made again is the one taken back, and everything is as it was, except
    that the text of a deletion has the styles that the deletion keeps.  So nothing at all
    has changed if these styles are up to date, and only then.  They are up to date when the
    edit has just been taken back. -/
theorem undo_redo_of_run (ops : List Op) (hops : ∀ op ∈ ops, op.dropsStyles = false) :
    let b := empty.run ops
    (∀ e b', b.redo? = some (e, b') →
      b'.undo? = some (e, b.putBack e) ∧
      b.putBack e = { b with styles := (b.putBack e).styles } ∧
      (b.putBack e = b ↔ b.UpToDate e)) ∧
    ∀ e b', b.undo? = some (e, b') → b'.UpToDate e := by
  intro b
  have h : b.Keeping := keeping_empty.run hops
  refine ⟨fun e b' hr => ⟨h.undo?_of_redo? hr, b.putBack_eq e, ?_⟩, fun e b' hu =>
    h.upToDate_of_undo? hu⟩
  obtain ⟨-, log, hlog, -⟩ := redo?_eq_some.1 hr
  exact h.putBack_eq_self_iff (EditLog.mem_of_redo? hlog) (h.toSound.redo? hr).2.canReapply

/-- A deletion that has just been taken back is made again and taken back once more. -/
theorem undo_redo_of_run_deletion :
    let ops : List Op := [.load (.ofList ['a', 'b', 'c']), .setStyles 0 #[1, 2, 3], .delete 1 2,
      .undo]
    let b := empty.run ops
    let e : Edit := .delete 1 (.ofList ['b', 'c']) (some #[2, 3])
    (∀ op ∈ ops, op.dropsStyles = false) ∧ b.redo?.map Prod.fst = some e ∧ b.UpToDate e ∧
      b.redo.undo? = some (e, b) := by
  intro ops b e
  have hops : ∀ op ∈ ops, op.dropsStyles = false := by decide
  obtain ⟨hredo, -⟩ := undo_redo_of_run ops hops
  obtain ⟨hundo, -, hiff⟩ := hredo e b.redo (by decide)
  have hdate : b.UpToDate e := by decide
  exact ⟨hops, by decide, hdate, by rw [hundo, hiff.2 hdate]⟩

/-- **Styles given to a text in between are lost.**  A text is taken out in style `1`, comes
    back, and gets style `2`.  When it has been taken out and put in again, it has style
    `1`. -/
theorem undo_redo_of_run_restyled :
    let ops : List Op := [.load (.ofList ['a', 'b']), .setStyles 0 #[1, 1], .delete 0 2, .undo,
      .setStyles 0 #[2, 2]]
    let b := empty.run ops
    (∀ op ∈ ops, op.dropsStyles = false) ∧ b.canRedo = true ∧
      b.styles = some #[2, 2] ∧ b.redo.undo.styles = some #[1, 1] := by
  decide

/-- Text that is put in again has style `0`, and gets an older style back with a deletion
    that is made again and taken back. -/
example :
    let b := empty.run [.insert 0 (.ofList ['a']), .setStyleAt 0 1, .delete 0 1, .undo, .undo,
      .redo]
    b.styles = some #[0] ∧ b.redo.undo.styles = some #[1] := by
  decide

end Buffer

end StyledText
