/-
  How far the styles of a document are known.

  A document takes its styles to be right up to a position, which styling moves
  forward and an edit moves back.  The position never leaves the text, whatever is done
  to the document and whatever lexers it is given: a lexer can only move its window back
  and commit styles in it, and a place where the text changes is a place of the text as
  it is then.

  * `Window.Handled`: what a lexer can make of its window, and `Lexer.Orderly`: it does
    nothing else;
  * `Lexer.Thorough`: a lexer that leaves nothing of its window without a style;
  * `Document.Effect`: what an operation does, with one line for each way;
  * `Document.Settled`: the position lies in the text, which `settled_perform` and
    `settled_obey` say of every document;
  * `endStyled_ensureStyledTo` and `endStyled_apply`: where styling on demand and an edit
    leave the position.
-/
import StyledText.Proofs.Watching

namespace StyledText

open CFamily

/-! ## What lexers do with a window -/

namespace Window

variable {w w' : Window}

/-- **What has become of `w` in the hands of a lexer**, which may move its start back and
    commit styles in it. -/
inductive Handled (w : Window) : Window → Prop where
  | refl : Handled w w
  | extendBack {w' : Window} (h : Handled w w') (p : Nat) : Handled w (w'.extendBack p)
  | commitBefore {w' : Window} (h : Handled w w') (p : Nat) (style : UInt8) :
      Handled w (w'.commitBefore p style)

theorem Handled.stop_eq (h : Handled w w') : w'.stop = w.stop := by
  induction h with
  | refl => rfl
  | extendBack _ p ih => rw [stop_extendBack, ih]
  | commitBefore _ p style ih => rw [stop_commitBefore, ih]

theorem boundary_extendBack_le (w : Window) (p : Nat) : (w.extendBack p).boundary ≤ w.boundary := by
  unfold extendBack
  split
  · rename_i hback
    exact Nat.add_le_add_right (Nat.le_of_lt hback.1) _
  · exact Nat.le_refl _

/-- No style is committed behind the window. -/
theorem Handled.boundary_le (h : Handled w w') (hw : w.boundary ≤ w.stop) :
    w'.boundary ≤ w.stop := by
  induction h with
  | refl => exact hw
  | extendBack _ p ih => exact Nat.le_trans (boundary_extendBack_le _ p) ih
  | commitBefore h p style ih =>
    have hstop := h.stop_eq
    rw [boundary_commitBefore]
    omega

theorem boundary_ofBuffer_le (b : Buffer) (start n : Nat) :
    (ofBuffer b start n).boundary ≤ (ofBuffer b start n).stop :=
  (fresh_ofBuffer b start n).start_le

end Window

namespace Lexer

/-- **The lexer only moves its window back and commits styles in it**, as often and as
    far as it likes. -/
def Orderly (lexer : Lexer) : Prop :=
  ∀ (w : Window) (initial : UInt8), w.Handled (lexer.lex w initial).window

/-- **The lexer styles each window to its end**, and from its start on. -/
def Thorough (lexer : Lexer) : Prop :=
  ∀ (w : Window) (initial : UInt8), w.Fresh →
    (lexer.lex w initial).window.start ≤ w.start ∧
      (lexer.lex w initial).window.boundary = w.stop

theorem orderly_plain : plain.Orderly := fun w _ => (Window.Handled.refl (w := w)).commitBefore _ _

theorem thorough_plain : plain.Thorough := by
  intro w initial hw
  refine ⟨Nat.le_refl _, ?_⟩
  have hboundary : w.boundary = w.start := by
    rw [Window.boundary, hw.pending_eq]
    rfl
  have hle := hw.start_le
  change (w.commitBefore w.stop 0).boundary = w.stop
  rw [Window.boundary_commitBefore, hboundary]
  omega

end Lexer

namespace CFamily

/-- The moves of a cursor do to its window what a lexer may do. -/
theorem Scan.Reaches.handled {w : Window} {c c' : Cursor} (h : Scan.Reaches c c')
    (hc : w.Handled c.window) : w.Handled c'.window := by
  induction h with
  | refl => exact hc
  | advance _ ih =>
    rw [Cursor.window_advance]
    exact ih
  | switchTo _ next ih => exact ih.commitBefore _ _
  | recolour _ next ih => exact ih

namespace Dialect

theorem orderly_lexer (d : Dialect) : d.lexer.Orderly := by
  intro w initial
  have hopen : w.Handled (reopen d.settings w (.ofCode initial)).1 := by
    rcases reopen_eq_or d.settings w (.ofCode initial) with h | ⟨p, h⟩
    · rw [h]
      exact .refl
    · rw [h]
      exact Window.Handled.refl.extendBack p
  exact ((reaches_closed d (d.opening w initial)).handled hopen).commitBefore _ _

theorem thorough_lexer (d : Dialect) : d.lexer.Thorough := by
  intro w initial hw
  have hcomplete := d.completes_lex initial hw.pending_eq hw.start_le
  exact ⟨hcomplete.start_le, hcomplete.boundary_eq.trans hcomplete.stop_eq⟩

end Dialect

end CFamily

/-! ## Where the text changes -/

namespace Buffer

variable {b b' : Buffer} {e : Edit}

/-- **Taking an edit back changes the text from its place on**, and taking a mark back
    changes nothing. -/
theorem content_of_undo? (hb : b.Sound) (hu : b.undo? = some (e, b')) :
    (e.isMark = true → b'.content = b.content) ∧
      (e.isMark = false → Content.SameBelow e.position b.content b'.content) := by
  have hcontent : b'.content = e.back b.content := by
    obtain ⟨-, log, -, rfl⟩ := undo?_eq_some.1 hu
    exact content_revert b e
  rw [hcontent]
  exact ⟨Content.back_eq_of_isMark,
    Content.sameBelow_back hb.aligned (hb.undo? hu).2.canRevert⟩

/-- And so does making it again. -/
theorem content_of_redo? (hb : b.Sound) (hr : b.redo? = some (e, b')) :
    (e.isMark = true → b'.content = b.content) ∧
      (e.isMark = false → Content.SameBelow e.position b.content b'.content) := by
  have hcontent : b'.content = e.forth b.content := by
    obtain ⟨-, log, -, rfl⟩ := redo?_eq_some.1 hr
    exact content_reapply b e
  rw [hcontent]
  exact ⟨Content.forth_eq_of_isMark,
    Content.sameBelow_forth hb.aligned (hb.redo? hr).2.canReapply⟩

end Buffer

namespace Document

variable {d d' : Document} {b : Buffer} {e : Edit} {kind : Option ChangeKind} {op : Op} {p : Nat}

/-- **What an operation does to `d`.** -/
inductive Effect (d : Document) : Op → Document → Prop where
  | load (text : Text) : Effect d (.load text) (d.load text)
  | ensureStyledTo (p : Nat) : Effect d (.ensureStyledTo p) (d.ensureStyledTo p)
  /-- An edit changes the text from its place on. -/
  | change {op : Op} {p : Nat} {b : Buffer} (changeAt_eq : d.changeAt? op = some p)
      (same : Content.SameBelow p d.buffer.content b.content) (kind : ChangeKind)
      (fromHistory : Bool) (n : Nat) :
      Effect d op ((d.forgetStylesFrom p).adopt b kind fromHistory p n)
  /-- A mark is passed, and the content stays. -/
  | mark {op : Op} {b : Buffer} (changeAt_eq : d.changeAt? op = none)
      (same : b.content = d.buffer.content) :
      Effect d op (({ d with buffer := b }).tellSaved d.buffer.isSaved)
  /-- The edit is refused. -/
  | refused {op : Op} (changeAt_eq : d.changeAt? op = none) : Effect d op d

/-- An edit that is taken back or made again is a change or a mark. -/
theorem effect_adoptReplay (hat : d.changeAt? op = if e.isMark then none else some e.position)
    (hkind : kind.isNone = e.isMark)
    (hsame : (e.isMark = true → b.content = d.buffer.content) ∧
      (e.isMark = false → Content.SameBelow e.position d.buffer.content b.content)) :
    Effect d op (d.adoptReplay b e kind) := by
  cases kind with
  | none => exact .mark (hat.trans (if_pos hkind.symm)) (hsame.1 hkind.symm)
  | some kind =>
    have hmark : e.isMark = false := hkind.symm
    exact .change (hat.trans (if_neg (Bool.eq_false_iff.1 hmark))) (hsame.2 hmark) kind true
      e.length

/-- **Each operation has one of these effects.** -/
theorem effect_apply (hd : d.buffer.Sound) (op : Op) : Effect d op (d.apply op) := by
  cases op with
  | load text => exact .load text
  | ensureStyledTo p => exact .ensureStyledTo p
  | insert p data =>
    simp only [apply, insert?]
    rcases hb : d.buffer.insert? p data with _ | b
    · exact .refused (by rw [changeAt?, insert?, hb]; rfl)
    · obtain ⟨⟨-, -, hp⟩, heq⟩ := Buffer.insert?_eq_some.1 hb
      refine .change (by rw [changeAt?, insert?, hb]; rfl) ?_ _ _ _
      rw [heq]
      exact Content.sameBelow_put hd.aligned hp data none
  | delete p n =>
    simp only [apply, delete?]
    rcases hb : d.buffer.delete? p n with _ | b
    · exact .refused (by rw [changeAt?, delete?, hb]; rfl)
    · obtain ⟨⟨-, -, hn⟩, heq⟩ := Buffer.delete?_eq_some.1 hb
      refine .change (by rw [changeAt?, delete?, hb]; rfl) ?_ _ _ _
      rw [heq]
      exact Content.sameBelow_cut hd.aligned hn
  | undo =>
    simp only [apply, undo?]
    rcases hu : d.buffer.undo? with _ | ⟨e, b⟩
    · exact .refused (by rw [changeAt?, hu]; rfl)
    · exact effect_adoptReplay (by rw [changeAt?, hu]; rfl) (by cases e <;> rfl)
        (Buffer.content_of_undo? hd hu)
  | redo =>
    simp only [apply, redo?]
    rcases hr : d.buffer.redo? with _ | ⟨e, b⟩
    · exact .refused (by rw [changeAt?, hr]; rfl)
    · exact effect_adoptReplay (by rw [changeAt?, hr]; rfl) (by cases e <;> rfl)
        (Buffer.content_of_redo? hd hr)

/-! ## The position lies in the text -/

/-- **The position up to which styles are known lies in the text**, and the lexer in use is
    an orderly one. -/
structure Settled (d : Document) : Prop where
  sound : d.buffer.Sound
  endStyled_le : d.endStyled ≤ d.buffer.length
  orderly : ∀ lexer ∈ d.lexer, lexer.Orderly

namespace Settled

theorem ofText (text : Text) : Settled (ofText text) where
  sound := Buffer.sound_empty.load text
  endStyled_le := Nat.zero_le _
  orderly := fun _ h => nomatch h

theorem of_lexer_eq (h : Settled d) (hsound : d'.buffer.Sound) (hlexer : d'.lexer = d.lexer)
    (hle : d'.endStyled ≤ d'.buffer.length) : Settled d' :=
  ⟨hsound, hle, hlexer ▸ h.orderly⟩

/-- Styling goes no further than the stretch that was asked for. -/
theorem lex (h : Settled d) (start n : Nat) (initial : UInt8) :
    Settled (d.lex start n initial).1 := by
  refine h.of_lexer_eq (sound_lex h.sound start n initial) rfl ?_
  have horderly : (d.lexer.getD .plain).Orderly := by
    cases hlexer : d.lexer with
    | none => exact Lexer.orderly_plain
    | some lexer => exact h.orderly lexer hlexer
  have hboundary := (horderly (.ofBuffer d.buffer start n) initial).boundary_le
    (Window.boundary_ofBuffer_le d.buffer start n)
  have hstop : (Window.ofBuffer d.buffer start n).stop ≤ d.buffer.length :=
    (Window.fresh_ofBuffer d.buffer start n).stop_le
  have hend := h.endStyled_le
  simp only [Document.lex, Buffer.length, Buffer.text_setStyles] at hstop hend ⊢
  split <;> omega

theorem ensureStyledTo (h : Settled d) (p : Nat) : Settled (d.ensureStyledTo p) := by
  unfold Document.ensureStyledTo
  dsimp only
  split
  · exact h
  · exact h.lex _ _ _

theorem load (h : Settled d) (text : Text) : Settled (d.load text) := by
  unfold Document.load
  split_ifs
  · exact h
  · obtain ⟨hlexer, -, hend⟩ := adopt_eq { d with endStyled := 0, includes := [] }
      (d.buffer.load text) .reload false 0 text.length
    exact h.of_lexer_eq (sound_adopt (h.sound.load text) _ _ _ _) hlexer (hend ▸ Nat.zero_le _)

/-- **Each edit keeps the position in the text**, and so does styling on demand. -/
theorem apply (h : Settled d) (op : Op) : Settled (d.apply op) := by
  have hsound := sound_apply h.sound op
  have heffect := effect_apply h.sound op
  generalize d.apply op = d' at hsound heffect ⊢
  cases heffect with
  | load text => exact h.load text
  | ensureStyledTo p => exact h.ensureStyledTo p
  | @change _ p b _ hsame kind fromHistory n =>
    obtain ⟨hlexer, hbuffer, hend⟩ := adopt_eq (d.forgetStylesFrom p) b kind fromHistory p n
    refine h.of_lexer_eq hsound hlexer ?_
    rw [hend, hbuffer]
    exact Nat.le_trans (Nat.min_le_right _ _) hsame.le'
  | @mark _ b _ hsame =>
    have hlength : b.length = d.buffer.length :=
      congrArg (fun content => content.text.length) hsame
    obtain ⟨hlexer, hbuffer, hend⟩ := tellSaved_eq { d with buffer := b } d.buffer.isSaved
    refine h.of_lexer_eq hsound hlexer ?_
    rw [hend, hbuffer, hlength]
    exact h.endStyled_le
  | refused => exact h

end Settled

/-- A command gives the document no lexer but an orderly one. -/
def Command.Orderly : Command → Prop
  | .setLexer lexer => lexer.Orderly
  | _ => True

/-- **Each command keeps the position in the text.** -/
theorem settled_perform (h : Settled d) {command : Command} (hc : command.Orderly) :
    Settled (d.perform command) := by
  have hsound := sound_perform h.sound command
  cases command with
  | edit op => exact h.apply op
  | lex start n initial => exact h.lex start n initial
  | setLexer lexer =>
    exact ⟨hsound, Nat.zero_le _, fun other hother => Option.some.inj hother ▸ hc⟩
  | save =>
    obtain ⟨hlexer, hbuffer, hend⟩ :=
      tellSaved_eq { d with buffer := d.buffer.save } d.buffer.isSaved
    exact h.of_lexer_eq hsound hlexer (hend.symm ▸ hbuffer.symm ▸ h.endStyled_le)
  | clearLog | setReadOnly _ | setRecording _ | setTabWidth _ | addWatcher =>
    exact h.of_lexer_eq hsound rfl h.endStyled_le

/-- **So does a whole run of commands.** -/
theorem settled_obey (h : Settled d) {commands : List Command}
    (hc : ∀ command ∈ commands, command.Orderly) : Settled (d.obey commands) := by
  induction commands generalizing d with
  | nil => exact h
  | cons command commands ih =>
    obtain ⟨hfirst, hrest⟩ := List.forall_mem_cons.1 hc
    exact ih (settled_perform h hfirst) hrest

/-! ## Where the position goes -/

/-- **An edit that changes the text brings the position back to its place**, if it was
    behind it. -/
theorem endStyled_apply (hd : d.buffer.Sound) (h : d.changeAt? op = some p) :
    (d.apply op).endStyled = min d.endStyled p := by
  have heffect := effect_apply hd op
  generalize d.apply op = d' at heffect ⊢
  cases heffect with
  | load text => exact nomatch h
  | ensureStyledTo q => exact nomatch h
  | @change _ q b hat _ kind fromHistory n =>
    obtain rfl := Option.some.inj (hat.symm.trans h)
    rw [(adopt_eq _ _ _ _ _ _).2.2]
    rfl
  | mark hat => exact nomatch hat.symm.trans h
  | refused hat => exact nomatch hat.symm.trans h

/-- Styling goes on from a place before which all styles are known. -/
theorem resumePoint_le (h : Settled d) : d.resumePoint ≤ d.endStyled :=
  (h.sound.lineStart_lineOf h.endStyled_le).2.1

/-- **Styling brings the position forward to the end of the stretch**, with a lexer that
    styles its window to the end, and if it leaves no gap. -/
theorem endStyled_lex (hlexer : (d.lexer.getD .plain).Thorough) {start : Nat}
    (hstart : start ≤ d.endStyled) (n : Nat) (initial : UInt8) :
    (d.lex start n initial).1.endStyled = max d.endStyled (min (start + n) d.buffer.length) := by
  obtain ⟨hle, hboundary⟩ :=
    hlexer (.ofBuffer d.buffer start n) initial (Window.fresh_ofBuffer d.buffer start n)
  have hle := Nat.le_trans hle (Nat.min_le_left start d.buffer.length)
  change (if _ then _ else _) = _
  rw [if_pos (Nat.le_trans hle hstart), hboundary]
  simp only [Window.ofBuffer]
  omega

/-- **Styling on demand brings it as far as was asked for.** -/
theorem endStyled_ensureStyledTo (h : Settled d) (hlexer : (d.lexer.getD .plain).Thorough)
    (p : Nat) : (d.ensureStyledTo p).endStyled = max d.endStyled (min p d.buffer.length) := by
  have hresume := resumePoint_le h
  rw [resumePoint] at hresume
  unfold ensureStyledTo
  dsimp only
  split
  · rename_i hdone
    exact (Nat.max_eq_left hdone).symm
  · rw [endStyled_lex hlexer hresume]
    omega

/-- Those who style their window to the end are the lexers for C-like languages and the
    one that styles nothing, which also stands in for a lexer that is missing. -/
theorem thorough_getD (h : d.lexer = none ∨ d.lexer = some .plain ∨
    ∃ dl : Dialect, d.lexer = some dl.lexer) : (d.lexer.getD .plain).Thorough := by
  rcases h with h | h | ⟨dl, h⟩ <;> rw [h]
  · exact Lexer.thorough_plain
  · exact Lexer.thorough_plain
  · exact dl.thorough_lexer

/-- **The position up to which styles are known**, in every document.  Whatever has been
    done to it, with whatever lexers, the position lies in the text.  Styling on demand
    resumes before it and brings it forward to where it was asked to, if the lexer is one
    for a C-like language, or styles nothing, or is missing.  And an edit that changes the
    text, be it made, taken back or made again, brings it back to its place. -/
theorem endStyled_obey (text : Text) (commands : List Command)
    (hc : ∀ command ∈ commands, command.Orderly) :
    let d := (Document.ofText text).obey commands
    d.endStyled ≤ d.buffer.length ∧ d.resumePoint ≤ d.endStyled ∧
    ((d.lexer = none ∨ d.lexer = some .plain ∨ ∃ dl : Dialect, d.lexer = some dl.lexer) →
      ∀ p, (d.ensureStyledTo p).endStyled = max d.endStyled (min p d.buffer.length)) ∧
    ∀ op p, d.changeAt? op = some p → (d.apply op).endStyled = min d.endStyled p := by
  intro d
  have hd : Settled d := settled_obey (.ofText text) hc
  exact ⟨hd.endStyled_le, resumePoint_le hd,
    fun hlexer p => endStyled_ensureStyledTo hd (thorough_getD hlexer) p,
    fun op p h => endStyled_apply hd.sound h⟩

/-- A lexer that begins one character early and leaves the second half of its window
    alone. -/
def halfway : Lexer where
  name := "halfway"
  extensions := []
  lex w _ := ⟨(w.extendBack (w.start - 1)).commitBefore ((w.start + w.stop) / 2) 1, 1, []⟩

/-- Half of the text is styled, then some of it is taken out and put back, and a lexer for
    a C-like language goes on from there. -/
theorem endStyled_obey_halfway :
    let commands : List Command := [.setLexer halfway, .edit (.ensureStyledTo 10),
      .edit (.delete 1 2), .lex 1 6 1, .edit .undo, .setLexer oneWord.lexer,
      .edit (.ensureStyledTo 6)]
    let d := (Document.ofText (.ofString "int a; int")).obey commands
    d.endStyled ≤ d.buffer.length ∧
      (d.ensureStyledTo 12).endStyled = max d.endStyled (min 12 d.buffer.length) ∧
      (d.apply (.insert 3 (.ofString "_"))).endStyled = min d.endStyled 3 := by
  intro commands d
  have hc : ∀ command ∈ commands, command.Orderly := by
    have hhalfway : halfway.Orderly := fun w _ =>
      ((Window.Handled.refl (w := w)).extendBack _).commitBefore _ _
    simp [commands, Command.Orderly, hhalfway, oneWord.orderly_lexer]
  obtain ⟨hle, -, hstyle, hedit⟩ := endStyled_obey (.ofString "int a; int") commands hc
  exact ⟨hle, hstyle (.inr (.inr ⟨oneWord, rfl⟩)) 12, hedit _ 3 (by decide +kernel)⟩

end Document

end StyledText
