/-
  What the log of edits says about the text.

  The content of a buffer is its text with the styles.  An edit leads from the
  content before it to the content after it, and the edits of a log, if they
  are not stale, make up a path: the edits made lead up to the present content,
  and the edits taken back lead on from it.

  * `Leads.back_eq` and `Leads.forth_eq`: taking an edit back and making it
    again walk along the path;
  * `Spans`: a log whose edits lead from one content to another, above a stack
    of older edits that is left alone;
  * `Spans.record`, `Spans.undo` and `Spans.redo`: each use of the log keeps to
    the path;
  * `Fits`: a log that is not stale, which every use of it leaves so.
-/
import Mathlib.Tactic.SplitIfs
import Mathlib.Tactic.Tauto
import StyledText.Buffer.Editing
import StyledText.Proofs.Splice

namespace StyledText

/-! ## Content -/

/-- A text with its styles, as far as they are kept. -/
@[ext]
structure Content where
  /-- The characters. -/
  text : Text
  /-- The style of each character, while styles are kept. -/
  styles : Option (Array UInt8)

namespace Content

variable {x : Content} {p n : Nat} {data : Text} {known : Option (Array UInt8)}

/-- There is one style for each character. -/
def Aligned (x : Content) : Prop := ∀ styles ∈ x.styles, styles.size = x.text.length

/-- The content without its styles. -/
def bare (x : Content) : Content := ⟨x.text, none⟩

/-- Puts `data` in at `p`, with the styles `known` if they fit. -/
def put (x : Content) (p : Nat) (data : Text) (known : Option (Array UInt8)) : Content where
  text := x.text.insert p data
  styles := x.styles.map fun styles =>
    styles.extract 0 p ++ Buffer.stylesFor data.length known ++ styles.extract p styles.size

/-- Takes `n` characters out at `p`. -/
def cut (x : Content) (p n : Nat) : Content where
  text := x.text.remove p (p + n)
  styles := x.styles.map fun styles => styles.extract 0 p ++ styles.extract (p + n) styles.size

theorem size_stylesFor (n : Nat) (known : Option (Array UInt8)) :
    (Buffer.stylesFor n known).size = n := by
  unfold Buffer.stylesFor
  split
  · rename_i styles h
    exact of_decide_eq_true (Option.filter_eq_some_iff.1 h).2
  · exact Array.size_replicate

/-- Known styles are put in, if there is one for each character. -/
theorem stylesFor_of_size {kept : Array UInt8} (h : kept.size = n) :
    Buffer.stylesFor n (some kept) = kept := by
  rw [Buffer.stylesFor, Option.filter_some, if_pos (decide_eq_true h)]

theorem aligned_bare (x : Content) : x.bare.Aligned := by simp [Aligned, bare]

theorem aligned_put (hp : p ≤ x.text.length) : (x.put p data known).Aligned ↔ x.Aligned := by
  unfold Aligned put
  rcases x.styles with _ | styles
  · simp
  · simp only [Option.map_some, Option.mem_some_iff, forall_eq', Array.size_append,
      size_stylesFor, Array.size_extract, Text.length_insert hp]
    omega

theorem Aligned.cut (hx : x.Aligned) (hn : p + n ≤ x.text.length) : (x.cut p n).Aligned := by
  intro styles hs
  obtain ⟨old, hold, rfl⟩ := Option.map_eq_some_iff.1 hs
  have := hx old hold
  rw [size_excise (by omega), this]
  simp only [Content.cut, Text.length_remove (Nat.le_add_right p n) hn]
  omega

/-- **Taking out what has been put in gives the content back.** -/
theorem cut_put (hx : x.Aligned) (hp : p ≤ x.text.length) :
    (x.put p data known).cut p data.length = x := by
  ext1
  · exact Text.remove_insert hp data
  · rcases hs : x.styles with _ | styles
    · simp [cut, put, hs]
    · have hsize := hx styles hs
      have := excise_splice (a := styles) (by omega : p ≤ styles.size)
        (Buffer.stylesFor data.length known)
      rw [size_stylesFor] at this
      simp only [cut, put, hs, Option.map_some]
      exact congrArg some this

/-- **Putting in what has been taken out gives the content back.** -/
theorem put_cut (hx : x.Aligned) (hn : p + n ≤ x.text.length) :
    (x.cut p n).put p (x.text.extract p (p + n)) (x.styles.map (·.extract p (p + n))) = x := by
  ext1
  · exact Text.insert_remove hn
  · rcases hs : x.styles with _ | styles
    · simp [cut, put, hs]
    · have hsize := hx styles hs
      have hfor : Buffer.stylesFor (x.text.extract p (p + n)).length
          (some (styles.extract p (p + n))) = styles.extract p (p + n) := by
        refine stylesFor_of_size ?_
        rw [Array.size_extract, Text.length_extract, hsize]
      simp only [cut, put, hs, Option.map_some, hfor]
      exact congrArg some (splice_excise (by omega))

end Content

/-! ## Edits between contents -/

namespace Edit

/-- The edit leads from the content `x` to the content `y`. -/
def Leads : Edit → Content → Content → Prop
  | insert p data, x, y => p ≤ x.text.length ∧ y = x.put p data none
  | delete p data styles, x, y => p ≤ y.text.length ∧ x = y.put p data styles
  | mark _, x, y => x = y

/-- The content when the edit has been taken back. -/
def back (x : Content) : Edit → Content
  | insert p data => x.cut p data.length
  | delete p data styles => x.put p data styles
  | mark _ => x

/-- The content when the edit has been made again. -/
def forth (x : Content) : Edit → Content
  | insert p data => x.put p data none
  | delete p data _ => x.cut p data.length
  | mark _ => x

/-- The edit keeps as many styles as characters, if it keeps any. -/
def StylesFit (e : Edit) : Prop := ∀ styles ∈ e.styles, styles.size = e.length

variable {e : Edit} {x y : Content}

theorem Leads.aligned_iff (h : e.Leads x y) : x.Aligned ↔ y.Aligned := by
  cases e with
  | insert p data =>
    obtain ⟨hp, rfl⟩ := h
    exact (Content.aligned_put hp).symm
  | delete p data styles =>
    obtain ⟨hp, rfl⟩ := h
    exact Content.aligned_put hp
  | mark token => exact iff_of_eq (congrArg _ h)

/-- An edit leads between texts as it does between texts with styles. -/
theorem Leads.bare (h : e.Leads x y) : e.Leads x.bare y.bare := by
  cases e with
  | insert p data => obtain ⟨hp, rfl⟩ := h; exact ⟨hp, rfl⟩
  | delete p data styles => obtain ⟨hp, rfl⟩ := h; exact ⟨hp, rfl⟩
  | mark token => exact congrArg _ h

/-- **Taking an edit back leads to where it came from.** -/
theorem Leads.back_eq (h : e.Leads x y) (hy : y.Aligned) : e.back y = x := by
  have hx := h.aligned_iff.2 hy
  cases e with
  | insert p data => obtain ⟨hp, rfl⟩ := h; exact Content.cut_put hx hp
  | delete p data styles => exact h.2.symm
  | mark token => exact Eq.symm h

/-- **Making an edit again leads to where it went.** -/
theorem Leads.forth_eq (h : e.Leads x y) (hx : x.Aligned) : e.forth x = y := by
  have hy := h.aligned_iff.1 hx
  cases e with
  | insert p data => exact h.2.symm
  | delete p data styles => obtain ⟨hp, rfl⟩ := h; exact Content.cut_put hy hp
  | mark token => exact h

/-- The removal of a stretch, with the styles it had, is an edit that leads from
    the content before to the content after. -/
theorem leads_delete {p n : Nat} (hx : x.Aligned) (hn : p + n ≤ x.text.length) :
    (delete p (x.text.extract p (p + n)) (x.styles.map (·.extract p (p + n)))).Leads x
      (x.cut p n) := by
  refine ⟨?_, (Content.put_cut hx hn).symm⟩
  simp only [Content.cut, Text.length_remove (Nat.le_add_right p n) hn]
  omega

/-! ### Edits that find their text -/

/-- Taking the edit back in `t` finds what it put in, or room for what it took
    out. -/
def CanRevert (t : Text) : Edit → Prop
  | insert p data => p + data.length ≤ t.length ∧ t.extract p (p + data.length) = data
  | delete p _ _ => p ≤ t.length
  | mark _ => True

/-- Making the edit again in `t` finds room for what it put in, or what it took
    out. -/
def CanReapply (t : Text) : Edit → Prop
  | insert p _ => p ≤ t.length
  | delete p data _ => p + data.length ≤ t.length ∧ t.extract p (p + data.length) = data
  | mark _ => True

theorem Leads.canRevert (h : e.Leads x y) : e.CanRevert y.text := by
  cases e with
  | insert p data =>
    obtain ⟨hp, rfl⟩ := h
    refine ⟨?_, Text.extract_insert hp data⟩
    simp only [Content.put, Text.length_insert hp]
    omega
  | delete p data styles => exact h.1
  | mark token => trivial

theorem Leads.canReapply (h : e.Leads x y) : e.CanReapply x.text := by
  cases e with
  | insert p data => exact h.1
  | delete p data styles =>
    obtain ⟨hp, rfl⟩ := h
    refine ⟨?_, Text.extract_insert hp data⟩
    simp only [Content.put, Text.length_insert hp]
    omega
  | mark token => trivial

end Edit

/-! ## Paths of edits -/

/-- The edits of a list, newest first, have led from `x` to `y`. -/
def Path : List Edit → Content → Content → Prop
  | [], x, y => x = y
  | e :: es, x, y => ∃ w, Path es x w ∧ e.Leads w y

/-- The edits of a list, next one first, lead on from `x`. -/
def Ahead : List Edit → Content → Prop
  | [], _ => True
  | e :: es, x => ∃ w, e.Leads x w ∧ Ahead es w

namespace EditLog

variable {log log' : EditLog} {base : List Edit} {e : Edit} {x y z : Content}

theorem undo?_eq_some :
    log.undo? = some (e, log') ↔
      ∃ rest, log.done = e :: rest ∧
        log' = { log with done := rest, undone := e :: log.undone } := by
  unfold undo? popDone?
  rcases log.done with _ | ⟨e', rest⟩
  · simp
  · simp only [Option.map_some, Option.some.injEq, Prod.mk.injEq, List.cons.injEq, pushUndone]
    constructor
    · rintro ⟨rfl, rfl⟩
      exact ⟨rest, ⟨rfl, rfl⟩, rfl⟩
    · rintro ⟨rest', ⟨rfl, rfl⟩, rfl⟩
      exact ⟨rfl, rfl⟩

theorem redo?_eq_some :
    log.redo? = some (e, log') ↔
      ∃ rest, log.undone = e :: rest ∧
        log' = { log with done := e :: log.done, undone := rest } := by
  unfold redo? popUndone?
  rcases log.undone with _ | ⟨e', rest⟩
  · simp
  · simp only [Option.map_some, Option.some.injEq, Prod.mk.injEq, List.cons.injEq, pushDone]
    constructor
    · rintro ⟨rfl, rfl⟩
      exact ⟨rest, ⟨rfl, rfl⟩, rfl⟩
    · rintro ⟨rest', ⟨rfl, rfl⟩, rfl⟩
      exact ⟨rfl, rfl⟩

theorem mem_of_undo? (hu : log.undo? = some (e, log')) : e ∈ log.done ++ log.undone := by
  obtain ⟨rest, hd, -⟩ := undo?_eq_some.1 hu
  rw [hd]
  exact List.mem_append_left _ (List.mem_cons_self ..)

theorem mem_of_redo? (hu : log.redo? = some (e, log')) : e ∈ log.done ++ log.undone := by
  obtain ⟨rest, hd, -⟩ := redo?_eq_some.1 hu
  rw [hd]
  exact List.mem_append_right _ (List.mem_cons_self ..)

/-- Taking an edit back moves it from one stack to the other. -/
theorem perm_undo (hu : log.undo? = some (e, log')) :
    (log'.done ++ log'.undone).Perm (log.done ++ log.undone) := by
  obtain ⟨rest, hd, rfl⟩ := undo?_eq_some.1 hu
  rw [hd]
  exact List.perm_middle

/-- Making an edit again moves it back. -/
theorem perm_redo (hu : log.redo? = some (e, log')) :
    (log'.done ++ log'.undone).Perm (log.done ++ log.undone) := by
  obtain ⟨rest, hd, rfl⟩ := redo?_eq_some.1 hu
  rw [hd]
  exact List.perm_middle.symm

/-- **The edits made since `base` have led from `x` to `y`**, and the edits taken
    back lead on from `y`. -/
structure Spans (log : EditLog) (base : List Edit) (x y : Content) : Prop where
  behind : ∃ es, log.done = es ++ base ∧ Path es x y
  ahead : Ahead log.undone y

theorem Spans.start (hd : log.done = base) (hu : log.undone = []) (x : Content) :
    log.Spans base x x :=
  ⟨⟨[], by simp [hd], rfl⟩, by rw [hu]; trivial⟩

/-- An edit that is recorded goes on top, and none leads on from it. -/
theorem Spans.record (h : log.Spans base x y) (hr : log.recording = true) (he : e.Leads y z) :
    (log.record e).Spans base x z := by
  obtain ⟨⟨es, hes, hp⟩, -⟩ := h
  rw [EditLog.record, if_pos hr]
  exact ⟨⟨e :: es, by simp [hes], y, hp, he⟩, trivial⟩

/-- Taking an edit back leads one step down, as long as `base` is not touched. -/
theorem Spans.undo (h : log.Spans base x y) (hb : base.length < log.depth)
    (hu : log.undo? = some (e, log')) : ∃ w, e.Leads w y ∧ log'.Spans base x w := by
  obtain ⟨rest, hd, rfl⟩ := undo?_eq_some.1 hu
  obtain ⟨⟨es, hes, hp⟩, ha⟩ := h
  cases es with
  | nil =>
    rw [depth, hes] at hb
    exact absurd hb (Nat.lt_irrefl _)
  | cons e' es =>
    obtain ⟨rfl, rfl⟩ := List.cons.inj (hd.symm.trans hes)
    obtain ⟨w, hp, he⟩ := hp
    exact ⟨w, he, ⟨es, rfl, hp⟩, y, he, ha⟩

/-- Making an edit again leads one step up. -/
theorem Spans.redo (h : log.Spans base x y) (hu : log.redo? = some (e, log')) :
    ∃ w, e.Leads y w ∧ log'.Spans base x w := by
  obtain ⟨rest, hd, rfl⟩ := redo?_eq_some.1 hu
  obtain ⟨⟨es, hes, hp⟩, ha⟩ := h
  rw [hd] at ha
  obtain ⟨w, he, ha⟩ := ha
  exact ⟨w, he, ⟨e :: es, by simp [hes], y, hp, he⟩, ha⟩

/-! ## Logs that are not stale -/

/-- **The log is not stale at the content `y`**: its edits lead up to `y` and on
    from it, they keep as many styles as characters, and the saved text is
    within their reach. -/
structure Fits (log : EditLog) (y : Content) : Prop where
  spans : ∃ x, log.Spans [] x y
  styles_fit : ∀ e ∈ log.done ++ log.undone, e.StylesFit
  saved_le : ∀ k ∈ log.savedDepth, k ≤ log.depth + log.undone.length

/-- A log without edits is not stale anywhere. -/
theorem Fits.of_nil (hd : log.done = []) (hu : log.undone = [])
    (hs : ∀ k ∈ log.savedDepth, k = 0) (y : Content) : log.Fits y where
  spans := ⟨y, .start hd hu y⟩
  styles_fit := by simp [hd, hu]
  saved_le k hk := by rw [hs k hk]; exact Nat.zero_le _

theorem Fits.record (h : log.Fits y) (he : e.Leads y z) (hf : e.StylesFit) :
    (log.record e).Fits z := by
  by_cases hr : log.recording = true
  · obtain ⟨x, hx⟩ := h.spans
    refine ⟨⟨x, hx.record hr he⟩, ?_, ?_⟩
    · rw [EditLog.record, if_pos hr]
      simp only [List.append_nil, List.mem_cons]
      rintro e' (rfl | he')
      · exact hf
      · exact h.styles_fit e' (List.mem_append_left _ he')
    · rw [EditLog.record, if_pos hr]
      intro k hk
      have := of_decide_eq_true (Option.filter_eq_some_iff.1 hk).2
      simp only [depth, List.length_cons] at this ⊢
      omega
  · rw [EditLog.record, if_neg hr]
    split_ifs with hm
    · cases e with
      | insert p data => exact absurd hm Bool.false_ne_true
      | delete p data styles => exact absurd hm Bool.false_ne_true
      | mark token => cases he; exact h
    · exact .of_nil rfl rfl (by simp) z

/-- Moving an edit from one stack to the other loses none and reaches as far. -/
theorem Fits.move (h : log.Fits y) (hp : (log'.done ++ log'.undone).Perm (log.done ++ log.undone))
    (hs : log'.savedDepth = log.savedDepth) (hx : log'.Spans [] x z) : log'.Fits z where
  spans := ⟨x, hx⟩
  styles_fit e he := h.styles_fit e (hp.mem_iff.1 he)
  saved_le k hk := by
    have := h.saved_le k (hs ▸ hk)
    have hl := hp.length_eq
    simp only [depth, List.length_append] at this hl ⊢
    omega

theorem Fits.undo (h : log.Fits y) (hu : log.undo? = some (e, log')) :
    ∃ w, e.Leads w y ∧ log'.Fits w := by
  obtain ⟨rest, hd, hlog⟩ := undo?_eq_some.1 hu
  obtain ⟨x, hx⟩ := h.spans
  obtain ⟨w, he, hw⟩ := hx.undo (by simp [depth, hd]) hu
  exact ⟨w, he, h.move (perm_undo hu) (by rw [hlog]) hw⟩

theorem Fits.redo (h : log.Fits y) (hu : log.redo? = some (e, log')) :
    ∃ w, e.Leads y w ∧ log'.Fits w := by
  obtain ⟨rest, -, hlog⟩ := redo?_eq_some.1 hu
  obtain ⟨x, hx⟩ := h.spans
  obtain ⟨w, he, hw⟩ := hx.redo hu
  exact ⟨w, he, h.move (perm_redo hu) (by rw [hlog]) hw⟩

theorem Fits.save (h : log.Fits y) : log.save.Fits y where
  spans := by obtain ⟨x, hx⟩ := h.spans; exact ⟨x, hx.behind, hx.ahead⟩
  styles_fit := h.styles_fit
  saved_le k hk := by cases hk; exact Nat.le_add_right _ _

theorem Fits.setRecording (h : log.Fits y) (recording : Bool) :
    { log with recording }.Fits y where
  spans := by obtain ⟨x, hx⟩ := h.spans; exact ⟨x, hx.behind, hx.ahead⟩
  styles_fit := h.styles_fit
  saved_le := h.saved_le

/-- A log that has been cleared is not stale anywhere. -/
theorem fits_clear (log : EditLog) (y : Content) : log.clear.Fits y := by
  refine .of_nil rfl rfl (fun k hk => ?_) y
  simp only [clear] at hk
  split_ifs at hk
  · exact (Option.some.inj hk).symm
  · exact absurd hk (Option.not_mem_none k)

end EditLog

end StyledText
