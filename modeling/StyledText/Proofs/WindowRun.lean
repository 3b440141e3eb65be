/-
  Runs of a window.

  Whatever is done to a window, in whatever order, it shows its buffer as it is,
  and its styles fill it from its start on without a gap.  The start can only be
  moved while there are no styles, so the first commit that reaches a position
  decides about it for good.

  * `Op`, `apply` and `run`: what can be done to a window;
  * `Bounds.move` and `bounds_run`: where they leave its start and its boundary;
  * `Mirrors`: the window shows its buffer, and no style lies outside of it, which
    `Mirrors.run` says of every run;
  * `firstStyle?`: the style of the first commit that reaches a position, and
    `committed?_run`: it is the one that the position has;
  * `run_ofBuffer`: what a window on a buffer reads and holds after any run.
-/
import StyledText.Proofs.Locality
import StyledText.Proofs.Shown

namespace StyledText

/-- The character at `p`, or a space past the end. -/
def Buffer.charOrSpace (b : Buffer) (p : Nat) : Char := b.text.chars[p]?.getD ' '

namespace Window

/-! ## Operations -/

/-- What can be done to a window. -/
inductive Op where
  | extendBack (p : Nat)
  | commitThrough (p : Nat) (style : UInt8)
  | commitBefore (p : Nat) (style : UInt8)

/-- The window after one operation. -/
def apply (w : Window) : Op → Window
  | .extendBack p => w.extendBack p
  | .commitThrough p style => w.commitThrough p style
  | .commitBefore p style => w.commitBefore p style

/-- The window after some operations, first one first. -/
def run (w : Window) (ops : List Op) : Window := ops.foldl apply w

variable {b : Buffer} {w : Window} {p q : Nat} {style : UInt8}

/-! ## What a window shows -/

/-- **The window shows the buffer as it is**, and none of its styles lies outside of
    it. -/
structure Mirrors (b : Buffer) (w : Window) : Prop where
  source_eq : w.source = b
  charAt_eq : ∀ q, w.charAt q = b.charAt q
  boundary_le : w.boundary ≤ w.stop
  stop_le : w.stop ≤ b.length

theorem start_le_boundary (w : Window) : w.start ≤ w.boundary := Nat.le_add_right _ _

theorem mirrors_ofBuffer (b : Buffer) (start n : Nat) : (ofBuffer b start n).Mirrors b where
  source_eq := rfl
  charAt_eq _ := charAt_ofBuffer
  boundary_le := (fresh_ofBuffer b start n).start_le
  stop_le := stop_ofBuffer_le

namespace Mirrors

/-- Without its styles, the window is one in which nothing has been styled. -/
theorem fresh (h : w.Mirrors b) : { w with pending := #[] }.Fresh where
  charAt_eq q := by
    obtain rfl := h.source_eq
    exact h.charAt_eq q
  pending_eq := rfl
  start_le := Nat.le_trans w.start_le_boundary h.boundary_le
  stop_le := by
    obtain rfl := h.source_eq
    exact h.stop_le

theorem charOrSpace_eq (h : w.Mirrors b) (q : Nat) :
    w.charOrSpace q = b.charOrSpace q := by
  obtain rfl := h.source_eq
  exact h.fresh.charOrSpace_eq q

/-- **A window that is moved back shows its buffer as before.** -/
theorem extendBack (h : w.Mirrors b) (p : Nat) : (w.extendBack p).Mirrors b := by
  by_cases hback : p < w.start ∧ w.pending.isEmpty = true
  · -- Nothing is styled yet, and so it is with the window that is moved back.
    have hempty : w.pending = #[] := Array.isEmpty_iff.1 hback.2
    have hw : { w with pending := #[] } = w := by rw [← hempty]
    have hfresh : (w.extendBack p).Fresh := (hw ▸ h.fresh).extendBack p
    have hsource : (w.extendBack p).source = b := (SameView.source_extendBack w p).trans h.source_eq
    refine ⟨hsource, fun q => ?_, ?_, ?_⟩
    · rw [hfresh.charAt_eq, hsource]
    · rw [boundary, hfresh.pending_eq]
      exact hfresh.start_le
    · rw [stop_extendBack]
      exact h.stop_le
  · rw [Window.extendBack, if_neg hback]
    exact h

theorem commitBefore (h : w.Mirrors b) (p : Nat) (style : UInt8) :
    (w.commitBefore p style).Mirrors b where
  source_eq := h.source_eq
  charAt_eq := h.charAt_eq
  boundary_le := by
    have := h.boundary_le
    rw [boundary_commitBefore, stop_commitBefore]
    omega
  stop_le := h.stop_le

theorem apply (h : w.Mirrors b) (op : Op) : (w.apply op).Mirrors b := by
  cases op with
  | extendBack p => exact h.extendBack p
  | commitThrough p style => exact h.commitBefore (p + 1) style
  | commitBefore p style => exact h.commitBefore p style

/-- **Every run leaves a window that shows its buffer.** -/
theorem run (h : w.Mirrors b) (ops : List Op) : (w.run ops).Mirrors b := by
  induction ops generalizing w with
  | nil => exact h
  | cons op ops ih => exact ih (h.apply op)

end Mirrors

/-! ## The bounds of a window -/

/-- The first position of a window, and the first one without a style. -/
structure Bounds where
  start : Nat
  boundary : Nat

/-- **How an operation moves the bounds** of a window that ends at `stop`.  Both go back
    together while they are the same, and a commit moves the boundary on, but not out of
    the window. -/
def Bounds.move (stop : Nat) (m : Bounds) : Op → Bounds
  | .extendBack p => if p < m.start ∧ m.boundary = m.start then ⟨p, p⟩ else m
  | .commitThrough p _ => { m with boundary := max m.boundary (min (p + 1) stop) }
  | .commitBefore p _ => { m with boundary := max m.boundary (min p stop) }

/-- The bounds of a window. -/
def bounds (w : Window) : Bounds := ⟨w.start, w.boundary⟩

theorem bounds_extendBack (w : Window) (p : Nat) :
    (w.extendBack p).bounds = if p < w.start ∧ w.boundary = w.start then ⟨p, p⟩ else w.bounds := by
  have hempty : w.pending.isEmpty = true ↔ w.boundary = w.start := by
    rw [Array.isEmpty_iff_size_eq_zero, boundary]
    omega
  simp only [extendBack, ← hempty]
  split_ifs with hback
  · have hsize : w.pending.size = 0 := Array.isEmpty_iff_size_eq_zero.1 hback.2
    simp only [bounds, boundary, hsize, Nat.add_zero]
  · rfl

theorem stop_apply (w : Window) (op : Op) : (w.apply op).stop = w.stop := by
  cases op with
  | extendBack p => exact stop_extendBack w p
  | commitThrough p style => rfl
  | commitBefore p style => rfl

theorem bounds_apply (w : Window) (op : Op) : (w.apply op).bounds = w.bounds.move w.stop op := by
  cases op with
  | extendBack p => exact bounds_extendBack w p
  | commitThrough p style => exact congrArg (Bounds.mk w.start) (boundary_commitBefore w _ _)
  | commitBefore p style => exact congrArg (Bounds.mk w.start) (boundary_commitBefore w _ _)

/-- **The bounds follow the operations**, whatever the window shows. -/
theorem bounds_run (w : Window) (ops : List Op) :
    (w.run ops).bounds = ops.foldl (Bounds.move w.stop) w.bounds := by
  induction ops generalizing w with
  | nil => rfl
  | cons op ops ih =>
    refine (ih (w.apply op)).trans ?_
    rw [stop_apply, bounds_apply, List.foldl_cons]

/-! ## The styles of a window -/

/-- The style with which an operation on `w` reaches `q`, if it is a commit that goes as
    far as `q` and `q` lies in the window. -/
def Op.styleFor? (w : Window) (q : Nat) : Op → Option UInt8
  | .extendBack _ => none
  | .commitThrough p style => if w.start ≤ q ∧ q < w.stop ∧ q ≤ p then some style else none
  | .commitBefore p style => if w.start ≤ q ∧ q < w.stop ∧ q < p then some style else none

/-- **The style of the first commit that reaches `q`**, if one does. -/
def firstStyle? (w : Window) (q : Nat) : List Op → Option UInt8
  | [] => none
  | op :: ops => (op.styleFor? w q).or (firstStyle? (w.apply op) q ops)

theorem committed?_extendBack (w : Window) (p q : Nat) :
    (w.extendBack p).committed? q = w.committed? q := by
  rw [extendBack]
  split_ifs with hback
  · have hempty : w.pending = #[] := Array.isEmpty_iff.1 hback.2
    simp [committed?, hempty]
  · rfl

/-- A commit reaches what it has not come too late for. -/
theorem committed?_commitBefore_eq_or (w : Window) (p q : Nat) (style : UInt8) :
    (w.commitBefore p style).committed? q =
      (w.committed? q).or (if w.start ≤ q ∧ q < w.stop ∧ q < p then some style else none) := by
  rw [committed?_commitBefore]
  have hstart := w.start_le_boundary
  rcases Nat.lt_or_ge q w.start with hlt | hge
  · rw [committed?_of_lt_start hlt, if_neg (by omega), if_neg (by omega)]
    rfl
  · rcases Nat.lt_or_ge q w.boundary with hbefore | hbehind
    · obtain ⟨old, hold⟩ := Option.ne_none_iff_exists'.1
        (mt (committed?_eq_none_iff hge).1 (Nat.not_le.2 hbefore))
      rw [hold, if_neg (by omega), Option.some_or]
    · rw [committed?_of_boundary_le hbehind, Option.none_or]
      by_cases hp : q < w.stop ∧ q < p
      · rw [if_pos (by omega), if_pos (by omega)]
      · rw [if_neg (by omega), if_neg (by omega)]

theorem committed?_apply (w : Window) (op : Op) (q : Nat) :
    (w.apply op).committed? q = (w.committed? q).or (op.styleFor? w q) := by
  cases op with
  | extendBack p => exact (committed?_extendBack w p q).trans Option.or_none.symm
  | commitThrough p style =>
    refine (committed?_commitBefore_eq_or w (p + 1) q style).trans ?_
    simp only [Op.styleFor?, Nat.lt_succ_iff]
  | commitBefore p style => exact committed?_commitBefore_eq_or w p q style

/-- **The first commit that reaches a position decides about it.** -/
theorem committed?_run (w : Window) (ops : List Op) (q : Nat) :
    (w.run ops).committed? q = (w.committed? q).or (w.firstStyle? q ops) := by
  induction ops generalizing w with
  | nil => exact Option.or_none.symm
  | cons op ops ih =>
    refine (ih (w.apply op)).trans ?_
    rw [committed?_apply, Option.or_assoc]
    rfl

/-- **`q` has a style in the window**: it lies between the start and the boundary, and
    its style is handed over in its place and is the one that reads give. -/
structure Styled (w : Window) (q : Nat) (style : UInt8) : Prop where
  start_le : w.start ≤ q
  lt_boundary : q < w.boundary
  pending_eq : w.pending[q - w.start]? = some style
  styleAt_eq : w.styleAt q = style

theorem styleAt_eq_getD (w : Window) (q : Nat) :
    w.styleAt q = (w.committed? q).getD (w.source.styleAt q) := by
  rw [styleAt, committed?]
  split <;> rfl

theorem styled_of_committed? (h : w.committed? q = some style) : w.Styled q style where
  start_le := by
    by_contra hlt
    rw [committed?_of_lt_start (Nat.lt_of_not_le hlt)] at h
    exact nomatch h
  lt_boundary := by
    by_contra hge
    rw [committed?_of_boundary_le (Nat.le_of_not_lt hge)] at h
    exact nomatch h
  pending_eq := by
    rw [committed?] at h
    split at h
    · exact h
    · exact nomatch h
  styleAt_eq := by rw [styleAt_eq_getD, h, Option.getD_some]

theorem committed?_eq_none (h : q < w.start ∨ w.boundary ≤ q) : w.committed? q = none := by
  rcases h with hlt | hge
  · exact committed?_of_lt_start hlt
  · exact committed?_of_boundary_le hge

/-- Nothing is styled in a window that has just been made, so the first commit decides. -/
theorem committed?_run_ofBuffer (b : Buffer) (start n : Nat) (ops : List Op) (q : Nat) :
    ((ofBuffer b start n).run ops).committed? q = (ofBuffer b start n).firstStyle? q ops := by
  rw [committed?_run, committed?, pending_ofBuffer]
  simp

/-- **What a window on a buffer reads and holds, whatever has been done to it.**  Its reads
    are those of the buffer, with or without the characters kept at hand.  The start and the
    boundary are where the operations have moved them.  The boundary lies between the
    start and the end, and there is one style for each position before it.  These positions
    are the ones that a commit has reached; each has the style of the first such commit, and
    keeps it whatever is done later.  All others show the style that the buffer has. -/
theorem run_ofBuffer (b : Buffer) (start n : Nat) (ops : List Op) :
    let fresh := ofBuffer b start n
    let w := fresh.run ops
    (∀ q, w.charAt q = b.charAt q) ∧
    w.bounds = ops.foldl (Bounds.move fresh.stop) ⟨fresh.start, fresh.start⟩ ∧
    w.start ≤ w.boundary ∧ w.boundary ≤ w.stop ∧ w.pending.size = w.boundary - w.start ∧
    (∀ q, w.start ≤ q → q < w.boundary →
      ∃ style, fresh.firstStyle? q ops = some style ∧ ∀ later, (w.run later).Styled q style) ∧
    ∀ q, q < w.start ∨ w.boundary ≤ q →
      fresh.firstStyle? q ops = none ∧ w.styleAt q = b.styleAt q := by
  intro fresh w
  have hw : w.Mirrors b := (mirrors_ofBuffer b start n).run ops
  have hfirst (q : Nat) : fresh.firstStyle? q ops = w.committed? q :=
    (committed?_run_ofBuffer b start n ops q).symm
  refine ⟨hw.charAt_eq, bounds_run fresh ops, w.start_le_boundary, hw.boundary_le, ?_,
    fun q hstart hboundary => ?_, fun q hq => ?_⟩
  · rw [boundary]
    omega
  · obtain ⟨style, hstyle⟩ := Option.ne_none_iff_exists'.1
      (mt (committed?_eq_none_iff hstart).1 (Nat.not_le.2 hboundary))
    refine ⟨style, (hfirst q).trans hstyle, fun later => styled_of_committed? ?_⟩
    rw [committed?_run, hstyle, Option.some_or]
  · have hnone := committed?_eq_none hq
    refine ⟨(hfirst q).trans hnone, ?_⟩
    rw [styleAt_eq_getD, hnone, hw.source_eq, Option.getD_none]

end Window

end StyledText
