/-
  A window on a buffer, in which styles are committed from left to right.

  A lexer reads the whole buffer through its window and styles the part between
  `start` and `stop`.  The characters of the window, and a few behind it, are
  kept at hand.  Styles are collected in the window: a commit fills everything
  from the boundary on with one style and moves the boundary, and no style
  committed is changed later.  The buffer gets the styles when the lexer is
  done.

  * `commitBefore` fills up to a position, and `extendBack` moves the start
    back while nothing has been committed;
  * `charAt`, `styleAt` and `textRange` are the reads;
  * `boundary_commitBefore` says where a commit leaves the boundary.
-/
import StyledText.Buffer

namespace StyledText

/-- A window on a buffer. -/
structure Window where
  /-- The buffer that the window is on. -/
  source : Buffer
  /-- The first position of the window. -/
  start : Nat
  /-- The position after the last one of the window. -/
  stop : Nat
  /-- The characters from `start` on that are kept at hand. -/
  cache : Array Char
  /-- The styles committed, the first one for `start`. -/
  pending : Array UInt8

namespace Window

/-- The number of characters behind a window that are kept at hand. -/
def lookahead : Nat := 16

/-- The window on `n` characters of `b` from `start` on, or on as many of them
    as there are. -/
def ofBuffer (b : Buffer) (start n : Nat) : Window :=
  let start := min start b.length
  let stop := min (start + n) b.length
  let cached := min (stop + lookahead) b.length
  ⟨b, start, stop, b.text.chars.extract start cached, #[]⟩

/-- The first position without a committed style. -/
def boundary (w : Window) : Nat := w.start + w.pending.size

/-! ## Reading -/

/-- The number of characters of the buffer. -/
def length (w : Window) : Nat := w.source.length

/-- The character at `p`, or `nul` past the end of the buffer. -/
def charAt (w : Window) (p : Nat) : Char :=
  if w.start ≤ p then (w.cache[p - w.start]?).getD (w.source.charAt p) else w.source.charAt p

/-- The character at `p`, or `filler` past the end of the buffer. -/
def charOr (w : Window) (p : Nat) (filler : Char) : Char :=
  if w.charAt p = nul ∧ w.length ≤ p then filler else w.charAt p

/-- The character at `p`, or a space past the end of the buffer. -/
def charOrSpace (w : Window) (p : Nat) : Char := w.charOr p ' '

/-- The style at `p`: the committed one, and the one in the buffer where none
    is committed. -/
def styleAt (w : Window) (p : Nat) : UInt8 :=
  if w.start ≤ p then (w.pending[p - w.start]?).getD (w.source.styleAt p) else w.source.styleAt p

/-- The characters of `[start, stop)`, as many of them as there are. -/
def textRange (w : Window) (start stop : Nat) : List Char :=
  (List.range' start (min stop w.length - start)).map w.charAt

/-! ## Committing -/

/-- Moves the start back to `p`, so that what began before the window is styled
    as a whole.  Nothing happens when something has been committed. -/
def extendBack (w : Window) (p : Nat) : Window :=
  if p < w.start ∧ w.pending.isEmpty then
    { w with start := p, cache := w.source.text.chars.extract p w.start ++ w.cache }
  else w

/-- Fills everything before `p` that lies in the window and has no style yet
    with `style`. -/
def commitBefore (w : Window) (p : Nat) (style : UInt8) : Window :=
  { w with pending := w.pending ++ Array.replicate (min p w.stop - w.boundary) style }

/-- Fills everything up to `p`, and `p` itself, with `style`. -/
def commitThrough (w : Window) (p : Nat) (style : UInt8) : Window := w.commitBefore (p + 1) style

@[simp] theorem start_commitBefore (w : Window) (p : Nat) (style : UInt8) :
    (w.commitBefore p style).start = w.start := rfl

@[simp] theorem stop_commitBefore (w : Window) (p : Nat) (style : UInt8) :
    (w.commitBefore p style).stop = w.stop := rfl

@[simp] theorem source_commitBefore (w : Window) (p : Nat) (style : UInt8) :
    (w.commitBefore p style).source = w.source := rfl

@[simp] theorem stop_extendBack (w : Window) (p : Nat) : (w.extendBack p).stop = w.stop := by
  unfold extendBack
  split <;> rfl

/-- **A commit moves the boundary to its end, but not back and not out of the
    window.** -/
theorem boundary_commitBefore (w : Window) (p : Nat) (style : UInt8) :
    (w.commitBefore p style).boundary = max w.boundary (min p w.stop) := by
  simp only [boundary, commitBefore, Array.size_append, Array.size_replicate]
  omega

end Window

end StyledText
