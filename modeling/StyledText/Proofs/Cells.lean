/-
  A buffer as a list of cells.

  A cell is a character with its style.  While styles are kept, a buffer is
  nothing but a list of cells and two stacks of changes to it: what happens to
  text and styles, each for itself, happens to the cells, and every answer that a
  buffer gives can be read off them.

  * `Sheet`: a list of cells with the changes made and taken back, and what can be
    done to it, in terms of taking and dropping cells;
  * `Buffer.sheet`: the sheet that a buffer stands for;
  * `Buffer.Refines`: an operation of the buffer is the one of its sheet;
  * `Buffer.refines_apply` and `Buffer.sheet_run`: each operation is, and so is
    each run.
-/
import StyledText.Proofs.BufferRun

namespace StyledText

/-! ## Sheets -/

/-- A character with its style. -/
abbrev Cell := Char × UInt8

/-- A change of a list of cells. -/
inductive CellEdit where
  /-- The characters were put in at `p`. -/
  | insert (p : Nat) (chars : List Char)
  /-- The cells were taken out at `p`. -/
  | delete (p : Nat) (cells : List Cell)
  /-- Nothing was changed. -/
  | mark
deriving DecidableEq

/-- A list of cells and what has been done to it. -/
structure Sheet where
  /-- The cells. -/
  cells : List Cell
  /-- The changes made, newest first. -/
  done : List CellEdit
  /-- The changes taken back, the latest first. -/
  undone : List CellEdit
  /-- Whether changes are refused. -/
  readOnly : Bool
  /-- Whether changes are being recorded. -/
  recording : Bool
deriving DecidableEq

/-- Characters as they are put in, in style `0`. -/
def plain (chars : List Char) : List Cell := chars.map (·, 0)

/-- The cells with `fresh` put in at `p`. -/
def splice (cells : List Cell) (p : Nat) (fresh : List Cell) : List Cell :=
  cells.take p ++ fresh ++ cells.drop p

/-- The cells without the `n` of them at `p`. -/
def excise (cells : List Cell) (p n : Nat) : List Cell := cells.take p ++ cells.drop (p + n)

/-- The style of the cell at `q` after `values` were written from `p` on. -/
def styleOver (p : Nat) (values : Array UInt8) (q : Nat) (old : UInt8) : UInt8 :=
  if p ≤ q then values[q - p]?.getD old else old

/-- The cells with the styles `values` from `p` on, as far as there are cells. -/
def restyle (cells : List Cell) (p : Nat) (values : Array UInt8) : List Cell :=
  cells.mapIdx fun q cell => (cell.1, styleOver p values q cell.2)

namespace CellEdit

/-- The cells when the change has been taken back. -/
def back (cells : List Cell) : CellEdit → List Cell
  | insert p chars => excise cells p chars.length
  | delete p gone => splice cells p gone
  | mark => cells

/-- The cells when the change has been made again. -/
def forth (cells : List Cell) : CellEdit → List Cell
  | insert p chars => splice cells p (plain chars)
  | delete p gone => excise cells p gone.length
  | mark => cells

/-- Taking the change back finds the characters that it put in, or room for the
    cells that it took out. -/
def CanRevert (cells : List Cell) : CellEdit → Prop
  | insert p chars => ((cells.drop p).take chars.length).map Prod.fst = chars
  | delete p _ => p ≤ cells.length
  | mark => True

/-- Making the change again finds room for the characters that it put in, or the
    characters that it took out. -/
def CanReapply (cells : List Cell) : CellEdit → Prop
  | insert p _ => p ≤ cells.length
  | delete p gone => ((cells.drop p).take gone.length).map Prod.fst = gone.map Prod.fst
  | mark => True

end CellEdit

namespace Sheet

open Buffer (Op)

/-- The sheet without cells. -/
def blank : Sheet := ⟨[], [], [], false, true⟩

/-- Adds a change just made.  While nothing is recorded, a change of the cells
    makes all changes known void. -/
def record (s : Sheet) (e : CellEdit) : Sheet :=
  if s.recording then { s with done := e :: s.done, undone := [] }
  else if e = .mark then s else { s with done := [], undone := [] }

/-- Whether an operation is done, or changes anything. -/
def answer (s : Sheet) : Op → Bool
  | .insert p data => !s.readOnly && !data.toList.isEmpty && p ≤ s.cells.length
  | .delete p n => !s.readOnly && 0 < n && p + n ≤ s.cells.length
  | .undo => !s.readOnly && !s.done.isEmpty
  | .redo => !s.readOnly && !s.undone.isEmpty
  | .setStyleAt p style => restyle s.cells p #[style] ≠ s.cells
  | .setStyles p values => restyle s.cells p values ≠ s.cells
  | .load _ => !s.readOnly
  | _ => true

/-- The sheet after an operation that is done. -/
def perform (s : Sheet) : Op → Sheet
  | .load text => { s with cells := plain text.toList, done := [], undone := [] }
  | .insert p data =>
    { s.record (.insert p data.toList) with cells := splice s.cells p (plain data.toList) }
  | .delete p n =>
    { s.record (.delete p ((s.cells.drop p).take n)) with cells := excise s.cells p n }
  | .undo =>
    match s.done with
    | [] => s
    | e :: rest => { s with cells := e.back s.cells, done := rest, undone := e :: s.undone }
  | .redo =>
    match s.undone with
    | [] => s
    | e :: rest => { s with cells := e.forth s.cells, done := e :: s.done, undone := rest }
  | .addMark _ => s.record .mark
  | .setStyleAt p style => { s with cells := restyle s.cells p #[style] }
  | .setStyles p values => { s with cells := restyle s.cells p values }
  | .setReadOnly readOnly => { s with readOnly }
  | .setRecording recording => { s with recording }
  | .clearLog => { s with done := [], undone := [] }
  | .save | .keepStyles _ => s

/-- The sheet after an operation. -/
def apply (s : Sheet) (op : Op) : Sheet := if s.answer op then s.perform op else s

/-- The sheet after some operations, in order. -/
def run (s : Sheet) (ops : List Op) : Sheet := ops.foldl apply s

end Sheet

/-! ## The sheet of a buffer -/

/-- An edit as a change of cells. -/
def Edit.cellEdit : Edit → CellEdit
  | .insert p data => .insert p data.toList
  | .delete p data styles =>
    .delete p (data.toList.zip (Buffer.stylesFor data.length styles).toList)
  | .mark _ => .mark

namespace Buffer

variable {b b' : Buffer} {e : Edit} {p n : Nat} {styles values : Array UInt8}

/-- **The sheet that a buffer stands for.** -/
def sheet (b : Buffer) : Sheet where
  cells := b.cells
  done := b.log.done.map Edit.cellEdit
  undone := b.log.undone.map Edit.cellEdit
  readOnly := b.readOnly
  recording := b.log.recording

/-- Whether an operation is done, or changes anything, as the buffer itself
    answers. -/
def answer (b : Buffer) : Op → Bool
  | .insert p data => (b.insert? p data).isSome
  | .delete p n => (b.delete? p n).isSome
  | .undo => b.undo?.isSome
  | .redo => b.redo?.isSome
  | .setStyleAt p style => (b.setStyleAt? p style).isSome
  | .setStyles p values => (b.setStyles? p values).isSome
  | .load _ => !b.readOnly
  | _ => true

end Buffer

/-! ## Cells, put in and taken out -/

namespace Content

variable {x : Content} {p n : Nat}

/-- Styles are kept, one for each character. -/
def Kept (x : Content) : Prop := ∃ styles, x.styles = some styles ∧ styles.size = x.text.length

/-- The characters, each with its style. -/
def cells (x : Content) : List Cell := x.text.toList.zip (x.styles.getD #[]).toList

theorem Kept.aligned (hx : x.Kept) : x.Aligned := by
  obtain ⟨styles, hs, hsize⟩ := hx
  intro styles' hs'
  obtain rfl := Option.some.inj (hs.symm.trans hs')
  exact hsize

theorem Aligned.kept {y : Content} (hy : y.Aligned) (hs : y.styles.isSome = true) : y.Kept := by
  obtain ⟨styles, hs⟩ := Option.isSome_iff_exists.1 hs
  exact ⟨styles, hs, hy styles hs⟩

theorem Kept.put (hx : x.Kept) (hp : p ≤ x.text.length) (data : Text)
    (known : Option (Array UInt8)) : (x.put p data known).Kept := by
  refine ((aligned_put hp).2 hx.aligned).kept ?_
  obtain ⟨styles, hs, -⟩ := hx
  simp [Content.put, hs]

theorem Kept.cut (hx : x.Kept) (hn : p + n ≤ x.text.length) : (x.cut p n).Kept := by
  refine (hx.aligned.cut hn).kept ?_
  obtain ⟨styles, hs, -⟩ := hx
  simp [Content.cut, hs]

theorem length_cells (hx : x.Kept) : x.cells.length = x.text.length := by
  obtain ⟨styles, hs, hsize⟩ := hx
  simp [cells, hs, hsize]

theorem map_fst_cells (hx : x.Kept) : x.cells.map Prod.fst = x.text.toList := by
  obtain ⟨styles, hs, hsize⟩ := hx
  exact List.map_fst_zip (by simp [hs, hsize])

theorem cells_put (hx : x.Kept) (hp : p ≤ x.text.length) (data : Text)
    (known : Option (Array UInt8)) :
    (x.put p data known).cells =
      splice x.cells p (data.toList.zip (Buffer.stylesFor data.length known).toList) := by
  obtain ⟨styles, hs, hsize⟩ := hx
  simp only [cells, put, splice, hs, Option.map_some, Option.getD_some, Text.toList_insert hp,
    Array.toList_append, toList_extract_zero, toList_extract_size]
  rw [List.zip_append, List.zip_append]
  · simp only [List.zip, List.take_zipWith, List.drop_zipWith]
  · simp [hsize]
  · simp [hsize, size_stylesFor]

theorem cells_cut (hx : x.Kept) (hn : p + n ≤ x.text.length) :
    (x.cut p n).cells = excise x.cells p n := by
  obtain ⟨styles, hs, hsize⟩ := hx
  simp only [cells, cut, excise, hs, Option.map_some, Option.getD_some,
    Text.toList_remove (Nat.le_add_right p n) hn, Array.toList_append, toList_extract_zero,
    toList_extract_size]
  rw [List.zip_append]
  · simp only [List.zip, List.take_zipWith, List.drop_zipWith]
  · simp [hsize]

/-- A stretch of cells is made of the stretch of the text. -/
theorem map_fst_take_drop_cells (hx : x.Kept) (p n : Nat) :
    ((x.cells.drop p).take n).map Prod.fst = (x.text.extract p (p + n)).toList := by
  rw [List.map_take, List.map_drop, map_fst_cells hx, Text.toList_extract, Nat.add_sub_cancel_left]

end Content

theorem plain_eq_zip (data : Text) :
    plain data.toList = data.toList.zip (Buffer.stylesFor data.length none).toList := by
  simp only [plain, Buffer.stylesFor, Option.filter_none, Array.toList_replicate]
  refine List.ext_getElem? fun q => ?_
  by_cases hq : q < data.length
  · simp [hq]
  · rw [List.getElem?_eq_none (by simpa using hq), List.getElem?_eq_none (by simpa using hq)]

namespace Edit

variable {e : Edit} {x : Content} {p n : Nat}

theorem length_zip_stylesFor (data : Text) (known : Option (Array UInt8)) :
    (data.toList.zip (Buffer.stylesFor data.length known).toList).length = data.length := by
  simp [Content.size_stylesFor]

/-- **Taking an edit back takes the change of the cells back.** -/
theorem cells_back (hx : x.Kept) (he : e.CanRevert x.text) :
    (e.back x).Kept ∧ (e.back x).cells = e.cellEdit.back x.cells := by
  cases e with
  | insert p data =>
    refine ⟨hx.cut he.1, ?_⟩
    rw [back, Content.cells_cut hx he.1, cellEdit, CellEdit.back, Text.length_toList]
  | delete p data known => exact ⟨hx.put he data known, Content.cells_put hx he data known⟩
  | mark token => exact ⟨hx, rfl⟩

/-- **Making an edit again makes the change of the cells again.** -/
theorem cells_forth (hx : x.Kept) (he : e.CanReapply x.text) :
    (e.forth x).Kept ∧ (e.forth x).cells = e.cellEdit.forth x.cells := by
  cases e with
  | insert p data =>
    refine ⟨hx.put he data none, ?_⟩
    rw [forth, Content.cells_put hx he, cellEdit, CellEdit.forth, plain_eq_zip]
  | delete p data known =>
    refine ⟨hx.cut he.1, ?_⟩
    rw [forth, Content.cells_cut hx he.1, cellEdit, CellEdit.forth, length_zip_stylesFor]
  | mark token => exact ⟨hx, rfl⟩

theorem canRevert_cellEdit (hx : x.Kept) (he : e.CanRevert x.text) :
    e.cellEdit.CanRevert x.cells := by
  cases e with
  | insert p data =>
    rw [cellEdit, CellEdit.CanRevert, Text.length_toList, Content.map_fst_take_drop_cells hx, he.2]
  | delete p data known =>
    rw [cellEdit, CellEdit.CanRevert, Content.length_cells hx]
    exact he
  | mark token => trivial

theorem canReapply_cellEdit (hx : x.Kept) (he : e.CanReapply x.text) :
    e.cellEdit.CanReapply x.cells := by
  cases e with
  | insert p data =>
    rw [cellEdit, CellEdit.CanReapply, Content.length_cells hx]
    exact he
  | delete p data known =>
    rw [cellEdit, CellEdit.CanReapply, length_zip_stylesFor, Content.map_fst_take_drop_cells hx,
      he.2, List.map_fst_zip]
    simp [Content.size_stylesFor]
  | mark token => trivial

theorem cellEdit_eq_mark : e.cellEdit = .mark ↔ e.isMark = true := by
  cases e <;> simp [cellEdit, isMark]

end Edit

/-! ## Styles written -/

namespace Buffer

variable {b b' : Buffer} {e : Edit} {p n : Nat} {styles values : Array UInt8}

/-- The styles after `values` were written from `p` on. -/
def overwrite (styles : Array UInt8) (p : Nat) (values : Array UInt8) : Array UInt8 :=
  styles.mapIdx (styleOver p values)

theorem getElem?_overwrite (styles : Array UInt8) (p : Nat) (values : Array UInt8) (q : Nat) :
    (overwrite styles p values)[q]? = styles[q]?.map (styleOver p values q) := by
  simp [overwrite]

theorem overwrite_of_size_le (h : styles.size ≤ p) : overwrite styles p values = styles := by
  refine Array.ext_getElem? fun q => ?_
  rw [getElem?_overwrite]
  by_cases hq : q < styles.size
  · rw [Array.getElem?_eq_getElem hq, Option.map_some, styleOver, if_neg (by omega)]
  · rw [Array.getElem?_eq_none (Nat.le_of_not_lt hq), Option.map_none]

/-- What is written from `p` on are the values that find a place. -/
theorem overwrite_eq_append (h : p < styles.size) (values : Array UInt8) :
    overwrite styles p values =
      styles.extract 0 p ++ values.extract 0 (min (p + values.size) styles.size - p) ++
        styles.extract (min (p + values.size) styles.size) styles.size := by
  generalize hstop : min (p + values.size) styles.size = stop
  have hfirst : (styles.extract 0 p).size = p := by
    rw [Array.size_extract]
    omega
  have hfresh : (values.extract 0 (stop - p)).size = stop - p := by
    rw [Array.size_extract]
    omega
  have hsecond : (styles.extract 0 p ++ values.extract 0 (stop - p)).size = stop := by
    rw [Array.size_append, hfirst, hfresh]
    omega
  refine Array.ext_getElem? fun q => ?_
  rw [getElem?_overwrite]
  by_cases hsize : q < styles.size
  · rw [Array.getElem?_eq_getElem hsize, Option.map_some, styleOver]
    by_cases hp : p ≤ q
    · rw [if_pos hp]
      by_cases hq : q < stop
      · rw [Array.getElem?_append_left (by omega), Array.getElem?_append_right (by omega), hfirst,
          Array.getElem?_extract, if_pos (by omega), Nat.zero_add,
          Array.getElem?_eq_getElem (by omega), Option.getD_some]
      · rw [Array.getElem?_append_right (by omega), hsecond, Array.getElem?_extract,
          if_pos (by omega), Nat.add_sub_cancel' (by omega), Array.getElem?_eq_getElem hsize,
          Array.getElem?_eq_none (by omega), Option.getD_none]
    · rw [if_neg hp, Array.append_assoc, Array.getElem?_append_left (by omega),
        Array.getElem?_extract, if_pos (by omega), Nat.zero_add, Array.getElem?_eq_getElem hsize]
  · rw [Array.getElem?_eq_none (Nat.le_of_not_lt hsize), Option.map_none, Array.getElem?_eq_none]
    simp only [Array.size_append, hfirst, hfresh, Array.size_extract]
    omega

/-- Nothing changes if what is written stood there before. -/
theorem overwrite_eq_self_iff (h : p < styles.size) :
    overwrite styles p values = styles ↔
      styles.extract p (min (p + values.size) styles.size) =
        values.extract 0 (min (p + values.size) styles.size - p) := by
  have happend := overwrite_eq_append h values
  generalize hstop : min (p + values.size) styles.size = stop at happend
  constructor
  · intro hsame
    refine Array.ext_getElem? fun i => ?_
    rw [Array.getElem?_extract, Array.getElem?_extract, Nat.zero_add]
    by_cases hi : i < stop - p
    · have hat : (overwrite styles p values)[p + i]? = styles[p + i]? := by rw [hsame]
      rw [getElem?_overwrite, Array.getElem?_eq_getElem (by omega), Option.map_some, styleOver,
        if_pos (by omega), Nat.add_sub_cancel_left, Array.getElem?_eq_getElem (by omega),
        Option.getD_some] at hat
      rw [if_pos (by omega), if_pos (by omega), Array.getElem?_eq_getElem (by omega),
        Array.getElem?_eq_getElem (by omega), hat]
    · rw [if_neg (by omega), if_neg (by omega)]
  · intro hsame
    have hle : stop ≤ styles.size := by omega
    rw [happend, ← hsame, Array.extract_append_extract, Nat.max_eq_right (by omega : p ≤ stop),
      Nat.zero_min, Array.extract_append_extract, Nat.max_eq_right hle, Nat.zero_min,
      Array.extract_size]

/-- **Writing styles is refused exactly when it would change nothing.** -/
theorem setStyles?_eq (hs : b.styles = some styles) (p : Nat) (values : Array UInt8) :
    b.setStyles? p values = if overwrite styles p values = styles then none
      else some { b with styles := some (overwrite styles p values) } := by
  simp only [setStyles?, hs, Option.bind_eq_bind, Option.bind_some]
  by_cases hp : p < styles.size
  · simp only [← overwrite_eq_append hp, overwrite_eq_self_iff hp, Nat.not_le.2 hp, false_or]
  · rw [if_pos (.inl (Nat.le_of_not_lt hp)),
      if_pos (overwrite_of_size_le (Nat.le_of_not_lt hp))]

/-- **Putting styles in writes them over those in their place**, as far as there are any. -/
theorem setStyles_eq_overwrite (hs : b.styles = some styles) (p : Nat) (values : Array UInt8) :
    b.setStyles p values = { b with styles := some (overwrite styles p values) } := by
  rw [setStyles, setStyles?_eq hs]
  split
  · rename_i hsame
    rw [hsame, Option.getD_none, ← hs]
  · rfl

theorem overwrite_singleton (styles : Array UInt8) (p : Nat) (style : UInt8) :
    overwrite styles p #[style] = styles.setIfInBounds p style := by
  refine Array.ext_getElem? fun q => ?_
  rw [getElem?_overwrite, Array.getElem?_setIfInBounds]
  rcases Nat.lt_trichotomy q p with hq | rfl | hq
  · rw [if_neg (by omega)]
    cases styles[q]? with
    | none => rfl
    | some old => rw [Option.map_some, styleOver, if_neg (by omega)]
  · rw [if_pos rfl]
    by_cases hsize : q < styles.size
    · simp [styleOver, hsize]
    · simp [hsize]
  · rw [if_neg (by omega)]
    have hpast : (#[style])[q - p]? = none := Array.getElem?_eq_none (by simp; omega)
    cases styles[q]? with
    | none => rfl
    | some old => rw [Option.map_some, styleOver, hpast, if_pos (by omega), Option.getD_none]

/-- The same for one style. -/
theorem setStyleAt?_eq (hs : b.styles = some styles) (p : Nat) (style : UInt8) :
    b.setStyleAt? p style = if overwrite styles p #[style] = styles then none
      else some { b with styles := some (overwrite styles p #[style]) } := by
  simp only [setStyleAt?, hs, Option.bind_eq_bind, Option.bind_some, overwrite_singleton]
  cases hold : styles[p]? with
  | none =>
    rw [Option.bind_none, if_pos]
    exact Array.setIfInBounds_eq_of_size_le (Array.getElem?_eq_none_iff.1 hold)
  | some old =>
    obtain ⟨hp, rfl⟩ := Array.getElem?_eq_some_iff.1 hold
    have hsame : styles.setIfInBounds p style = styles ↔ styles[p] = style := by
      constructor
      · intro h
        have hat : (styles.setIfInBounds p style)[p]? = styles[p]? := by rw [h]
        simpa [hp] using hat.symm
      · rintro rfl
        rw [Array.setIfInBounds, dif_pos hp, Array.set_getElem_self]
    simp only [Option.bind_some, hsame]

/-! ## The operations of a buffer on its sheet -/

theorem cells_eq (hb : b.content.Kept) : b.cells = b.content.cells := by
  obtain ⟨styles, hs, hsize⟩ := hb
  have hs : b.styles = some styles := hs
  have hall : styles.extract 0 b.length = styles := by
    rw [show b.length = styles.size from hsize.symm, Array.extract_size]
  simp only [cells, styleRange, hs, Nat.zero_add, hall, Content.cells, content, Option.getD_some]

theorem length_cells (hb : b.content.Kept) : b.sheet.cells.length = b.length := by
  rw [sheet, cells_eq hb]
  exact Content.length_cells hb

theorem zip_overwrite (chars : List Char) (styles : Array UInt8) (p : Nat) (values : Array UInt8) :
    chars.zip (overwrite styles p values).toList = restyle (chars.zip styles.toList) p values := by
  refine List.ext_getElem? fun q => ?_
  simp only [restyle, List.getElem?_mapIdx, List.zip, List.getElem?_zipWith, overwrite,
    Array.toList_mapIdx]
  cases chars[q]? with
  | none => rfl
  | some c => cases styles.toList[q]? <;> rfl

/-- The cells show each change of a style. -/
theorem zip_toList_eq_iff {chars : List Char} {styles styles' : Array UInt8}
    (hsize' : styles'.size = chars.length) (hsize : styles.size = chars.length) :
    chars.zip styles'.toList = chars.zip styles.toList ↔ styles' = styles := by
  constructor
  · intro h
    have hsnd := congrArg (List.map Prod.snd) h
    rw [List.map_snd_zip (Nat.le_of_eq hsize'), List.map_snd_zip (Nat.le_of_eq hsize)] at hsnd
    exact Array.toList_inj.1 hsnd
  · intro h
    rw [h]

/-- The sheet of a buffer in which the styles were changed. -/
theorem sheet_withStyles {styles' : Array UInt8} (hsize : styles'.size = b.text.length) :
    { b with styles := some styles' }.sheet =
      { b.sheet with cells := b.text.toList.zip styles'.toList } := by
  have hkept : Content.Kept { b with styles := some styles' }.content := ⟨styles', rfl, hsize⟩
  rw [sheet, cells_eq hkept]
  rfl

/-- Where a buffer puts an edit on its log, the sheet records the change. -/
theorem sheet_record (b : Buffer) (e : Edit) :
    { b with log := b.log.record e }.sheet = b.sheet.record e.cellEdit := by
  have hsame : b.sheet.recording = b.log.recording := rfl
  unfold EditLog.record Sheet.record
  rw [hsame]
  by_cases hr : b.log.recording = true
  · rw [if_pos hr, if_pos hr]
    rfl
  · rw [if_neg hr, if_neg hr]
    by_cases hm : e.isMark = true
    · rw [if_pos hm, if_pos (Edit.cellEdit_eq_mark.2 hm)]
    · rw [if_neg hm, if_neg (mt Edit.cellEdit_eq_mark.1 hm)]
      rfl

/-- **The operation does to the cells of the buffer what it does to the sheet, and
    answers the same**; and if it is refused, nothing has changed at all. -/
structure Refines (b : Buffer) (op : Op) : Prop where
  kept : (b.apply op).content.Kept
  answer_eq : b.answer op = b.sheet.answer op
  sheet_eq : (b.apply op).sheet = b.sheet.apply op
  refused : b.answer op = false → b.apply op = b

variable {op : Op} {b? : Option Buffer}

/-- An operation refines if it answers as the sheet does, and does the same when
    it is not refused. -/
theorem Refines.of_getD (hb : b.content.Kept) (happly : b.apply op = b?.getD b)
    (hisSome : b.answer op = b?.isSome) (hanswer : b.answer op = b.sheet.answer op)
    (h : ∀ b' ∈ b?, b'.content.Kept ∧ b'.sheet = b.sheet.perform op) : b.Refines op := by
  cases b? with
  | none =>
    have hrefused : b.sheet.answer op = false := hanswer.symm.trans hisSome
    constructor
    case kept => rwa [happly]
    case answer_eq => exact hanswer
    case sheet_eq => rw [happly, Sheet.apply, hrefused, if_neg Bool.false_ne_true, Option.getD_none]
    case refused => exact fun _ => happly
  | some b' =>
    have hdone : b.sheet.answer op = true := hanswer.symm.trans hisSome
    obtain ⟨hkept, hsheet⟩ := h b' rfl
    constructor
    case kept => rwa [happly]
    case answer_eq => exact hanswer
    case sheet_eq => rw [happly, Sheet.apply, hdone, if_pos rfl, Option.getD_some, hsheet]
    case refused => exact fun hrefused => nomatch hisSome.symm.trans hrefused

/-- An operation that is never refused refines if it does the same. -/
theorem Refines.of_done (hanswer : b.answer op = true) (hanswer' : b.sheet.answer op = true)
    (hkept : (b.apply op).content.Kept) (h : (b.apply op).sheet = b.sheet.perform op) :
    b.Refines op where
  kept := hkept
  answer_eq := hanswer.trans hanswer'.symm
  sheet_eq := by rw [h, Sheet.apply, if_pos hanswer']
  refused := fun hrefused => nomatch hanswer.symm.trans hrefused

theorem answer_insert (b : Buffer) (p : Nat) (data : Text) :
    b.answer (.insert p data) = (!b.readOnly && !data.toList.isEmpty && p ≤ b.length) := by
  have hempty : data.toList.isEmpty = data.isEmpty := by
    rw [Text.isEmpty, ← Text.length_toList]
    cases data.toList <;> rfl
  rw [Bool.eq_iff_iff, answer, Option.isSome_iff_exists]
  simp [insert?_eq_some, hempty, and_assoc]

theorem answer_delete (b : Buffer) (p n : Nat) :
    b.answer (.delete p n) = (!b.readOnly && 0 < n && p + n ≤ b.length) := by
  rw [Bool.eq_iff_iff, answer, Option.isSome_iff_exists]
  simp [delete?_eq_some, and_assoc, Nat.pos_iff_ne_zero]

theorem answer_undo (b : Buffer) : b.answer .undo = (!b.readOnly && !b.log.done.isEmpty) := by
  simp only [answer, undo?, EditLog.undo?, EditLog.popDone?]
  cases b.readOnly <;> cases b.log.done <;> rfl

theorem answer_redo (b : Buffer) : b.answer .redo = (!b.readOnly && !b.log.undone.isEmpty) := by
  simp only [answer, redo?, EditLog.redo?, EditLog.popUndone?]
  cases b.readOnly <;> cases b.log.undone <;> rfl

/-! ### Edits -/

/-- A buffer whose content was changed stands for another list of cells. -/
theorem sheet_changed (b₀ : Buffer) (hkept : b'.content.Kept) (hlog : b'.log = b₀.log)
    (hreadOnly : b'.readOnly = b₀.readOnly) :
    b'.sheet = { b₀.sheet with cells := b'.content.cells } := by
  rw [sheet, cells_eq hkept, hlog, hreadOnly]
  rfl

theorem refines_insert (hb : b.content.Kept) (p : Nat) (data : Text) :
    b.Refines (.insert p data) := by
  refine .of_getD hb rfl rfl ?_ fun b' hi => ?_
  · rw [answer_insert, Sheet.answer, length_cells hb]
    rfl
  · obtain ⟨⟨-, -, hp⟩, heq⟩ := insert?_eq_some.1 hi
    have hcontent : b'.content = b.content.put p data none := by
      rw [heq]
      rfl
    have hkept : b'.content.Kept := hcontent ▸ hb.put hp data none
    refine ⟨hkept, ?_⟩
    rw [sheet_changed { b with log := b.log.record (.insert p data) } hkept
      (by rw [heq]; rfl) (by rw [heq]; rfl), sheet_record, hcontent, Content.cells_put hb hp,
      ← plain_eq_zip, ← cells_eq hb]
    rfl

/-- A deletion records the cells that it takes out. -/
theorem cellEdit_deletion (hb : b.content.Kept) (p n : Nat) :
    (b.deletion p n).cellEdit = .delete p ((b.cells.drop p).take n) := by
  rw [cells_eq hb]
  obtain ⟨styles, hs, hsize⟩ := hb
  have hs : b.styles = some styles := hs
  have hfor : stylesFor (b.text.extract p (p + n)).length (some (styles.extract p (p + n))) =
      styles.extract p (p + n) := by
    refine Content.stylesFor_of_size ?_
    rw [Text.length_extract, Array.size_extract, hsize]
    rfl
  simp only [deletion, Edit.cellEdit, hs, Option.map_some, Content.cells, content,
    Option.getD_some, List.zip, List.drop_zipWith, List.take_zipWith, range, hfor,
    Text.toList_extract, Array.toList_extract, List.extract_eq_take_drop, Nat.add_sub_cancel_left]

theorem refines_delete (hb : b.content.Kept) (p n : Nat) : b.Refines (.delete p n) := by
  refine .of_getD hb rfl rfl ?_ fun b' hd => ?_
  · rw [answer_delete, Sheet.answer, length_cells hb]
    rfl
  · obtain ⟨⟨-, -, hn⟩, heq⟩ := delete?_eq_some.1 hd
    have hcontent : b'.content = b.content.cut p n := by
      rw [heq]
      rfl
    have hkept : b'.content.Kept := hcontent ▸ hb.cut hn
    refine ⟨hkept, ?_⟩
    rw [sheet_changed { b with log := b.log.record (b.deletion p n) } hkept
      (by rw [heq]; rfl) (by rw [heq]; rfl), sheet_record, hcontent, Content.cells_cut hb hn,
      cellEdit_deletion hb, ← cells_eq hb]
    rfl

theorem refines_undo (hb : b.Sound) (hkept : b.content.Kept) : b.Refines .undo := by
  refine .of_getD hkept rfl ?_ ?_ fun b' hb' => ?_
  · rw [answer, Option.isSome_map]
  · rw [answer_undo, Sheet.answer, sheet, List.isEmpty_map]
  · obtain ⟨⟨e, b'⟩, hu, rfl⟩ := Option.map_eq_some_iff.1 hb'
    obtain ⟨hkept', hcells⟩ := Edit.cells_back hkept (hb.undo? hu).2.canRevert
    obtain ⟨-, log, hlog, heq⟩ := undo?_eq_some.1 hu
    obtain ⟨rest, hdone, rfl⟩ := EditLog.undo?_eq_some.1 hlog
    have hcontent : b'.content = e.back b.content := by
      rw [heq]
      exact content_revert b e
    have hdone' : b.sheet.done = e.cellEdit :: rest.map Edit.cellEdit := by
      rw [sheet, hdone, List.map_cons]
    rw [← hcontent] at hkept' hcells
    refine ⟨hkept', ?_⟩
    rw [sheet, cells_eq hkept', hcells, ← cells_eq hkept, heq, Sheet.perform, hdone']
    cases e <;> rfl

theorem refines_redo (hb : b.Sound) (hkept : b.content.Kept) : b.Refines .redo := by
  refine .of_getD hkept rfl ?_ ?_ fun b' hb' => ?_
  · rw [answer, Option.isSome_map]
  · rw [answer_redo, Sheet.answer, sheet, List.isEmpty_map]
  · obtain ⟨⟨e, b'⟩, hr, rfl⟩ := Option.map_eq_some_iff.1 hb'
    obtain ⟨hkept', hcells⟩ := Edit.cells_forth hkept (hb.redo? hr).2.canReapply
    obtain ⟨-, log, hlog, heq⟩ := redo?_eq_some.1 hr
    obtain ⟨rest, hundone, rfl⟩ := EditLog.redo?_eq_some.1 hlog
    have hcontent : b'.content = e.forth b.content := by
      rw [heq]
      exact content_reapply b e
    have hundone' : b.sheet.undone = e.cellEdit :: rest.map Edit.cellEdit := by
      rw [sheet, hundone, List.map_cons]
    rw [← hcontent] at hkept' hcells
    refine ⟨hkept', ?_⟩
    rw [sheet, cells_eq hkept', hcells, ← cells_eq hkept, heq, Sheet.perform, hundone']
    cases e <;> rfl

/-! ### Styles and the rest -/

/-- Writing styles changes the styles of the cells, and is refused if it would
    change none. -/
theorem refines_overwrite (hb : b.content.Kept) {p : Nat} {values : Array UInt8}
    (happly : b.apply op = b?.getD b) (hisSome : b.answer op = b?.isSome)
    (hb? : ∀ styles, b.styles = some styles → b? = if overwrite styles p values = styles then none
      else some { b with styles := some (overwrite styles p values) })
    (hanswer : b.sheet.answer op = (restyle b.sheet.cells p values ≠ b.sheet.cells : Bool))
    (hperform : b.sheet.perform op = { b.sheet with cells := restyle b.sheet.cells p values }) :
    b.Refines op := by
  have hcellsb := cells_eq hb
  obtain ⟨styles, hs, hsize⟩ := id hb
  have hs : b.styles = some styles := hs
  have hb? := hb? styles hs
  have hcells : b.sheet.cells = b.text.toList.zip styles.toList := by
    rw [sheet, hcellsb, Content.cells, content, hs, Option.getD_some]
  have hover : (overwrite styles p values).size = b.text.length := by
    rw [← show styles.size = b.text.length from hsize]
    simp [overwrite]
  have hsame : restyle b.sheet.cells p values = b.sheet.cells ↔
      overwrite styles p values = styles := by
    rw [hcells, ← zip_overwrite]
    exact zip_toList_eq_iff (hover.trans b.text.length_toList.symm)
      (hsize.trans b.text.length_toList.symm)
  refine .of_getD hb happly hisSome ?_ fun b' hb' => ?_
  · rw [hisSome, hanswer, hb?]
    by_cases h : overwrite styles p values = styles <;> simp [h, hsame]
  · rw [hb?] at hb'
    split_ifs at hb' with h
    · exact nomatch hb'
    · obtain rfl := Option.some.inj hb'
      refine ⟨⟨_, rfl, hover⟩, ?_⟩
      rw [sheet_withStyles hover, hperform, hcells, zip_overwrite]

theorem refines_load (hb : b.content.Kept) (text : Text) : b.Refines (.load text) := by
  obtain ⟨styles, hs, -⟩ := id hb
  have hs : b.styles = some styles := hs
  cases hr : b.readOnly with
  | true =>
    have hsame : b.apply (.load text) = b := by simp [apply, load, hr]
    exact
      { kept := by rwa [hsame]
        answer_eq := rfl
        sheet_eq := by rw [hsame, Sheet.apply, if_neg (by simp [Sheet.answer, sheet, hr])]
        refused := fun _ => hsame }
  | false =>
    have happly : b.apply (.load text) = { b with
        text
        styles := some (Array.replicate text.length 0)
        lines := .ofText text
        log := b.log.clear.save } := by
      simp [apply, load, hr, hs]
    have hkept : (b.apply (.load text)).content.Kept :=
      ⟨Array.replicate text.length 0, by rw [happly]; rfl, by rw [happly]; simp [content]⟩
    refine .of_done (by simp [answer, hr]) (by simp [Sheet.answer, sheet, hr]) hkept ?_
    rw [sheet, cells_eq hkept, happly, Sheet.perform, plain_eq_zip]
    rfl

/-- Dropping the styles. -/
def Op.dropsStyles : Op → Bool
  | .keepStyles keep => !keep
  | _ => false

/-- **Each operation of a buffer that keeps its styles is the one of its sheet.** -/
theorem refines_apply (hb : b.Sound) (hkept : b.content.Kept) (hop : op.dropsStyles = false) :
    b.Refines op := by
  cases op with
  | load text => exact refines_load hkept text
  | insert p data => exact refines_insert hkept p data
  | delete p n => exact refines_delete hkept p n
  | undo => exact refines_undo hb hkept
  | redo => exact refines_redo hb hkept
  | addMark token => exact .of_done rfl rfl hkept (sheet_record b (.mark token))
  | setStyleAt p style =>
    exact refines_overwrite hkept rfl rfl (fun _ hs => setStyleAt?_eq hs p style) rfl rfl
  | setStyles p values =>
    exact refines_overwrite hkept rfl rfl (fun _ hs => setStyles?_eq hs p values) rfl rfl
  | keepStyles keep =>
    obtain rfl : keep = true := by simpa [Op.dropsStyles] using hop
    have hsame : b.apply (.keepStyles true) = b := by
      obtain ⟨styles, hs, -⟩ := hkept
      have hs : b.styles = some styles := hs
      simp [apply, keepStyles, hs]
    exact .of_done rfl rfl (by rwa [hsame]) (by rw [hsame]; rfl)
  | setReadOnly readOnly => exact .of_done rfl rfl hkept rfl
  | setRecording recording => exact .of_done rfl rfl hkept rfl
  | clearLog => exact .of_done rfl rfl hkept rfl
  | save => exact .of_done rfl rfl hkept rfl

/-- **So is each run.** -/
theorem sheet_run (hb : b.Sound) (hkept : b.content.Kept) {ops : List Op}
    (hops : ∀ op ∈ ops, op.dropsStyles = false) :
    (b.run ops).content.Kept ∧ (b.run ops).sheet = b.sheet.run ops := by
  induction ops generalizing b with
  | nil => exact ⟨hkept, rfl⟩
  | cons op ops ih =>
    have h := refines_apply hb hkept (hops op (List.mem_cons_self ..))
    obtain ⟨hkept', hsheet⟩ :=
      ih (hb.apply op) h.kept fun op' hop' => hops op' (List.mem_cons_of_mem _ hop')
    refine ⟨hkept', ?_⟩
    change ((b.apply op).run ops).sheet = (b.sheet.apply op).run ops
    rw [hsheet, h.sheet_eq]

/-- **A buffer that keeps its styles is a list of cells.**  After any run that never
    drops the styles there is one style for each character, and the buffer stands
    for the sheet to which the same was done.  Whatever is done next, the buffer
    answers as the sheet does, and if the answer is no, nothing has changed.  And the
    edit to be taken back next, or to be made again next, finds in the cells what it
    needs. -/
theorem sheet_of_run (ops : List Op) (hops : ∀ op ∈ ops, op.dropsStyles = false) :
    let b := empty.run ops
    (∃ styles, b.styles = some styles ∧ styles.size = b.length) ∧
    b.sheet = Sheet.blank.run ops ∧
    (∀ op, op.dropsStyles = false → b.answer op = b.sheet.answer op ∧
      (b.apply op).sheet = b.sheet.apply op ∧ (b.answer op = false → b.apply op = b)) ∧
    (∀ e ∈ b.sheet.done.head?, e.CanRevert b.sheet.cells) ∧
    (∀ e ∈ b.sheet.undone.head?, e.CanReapply b.sheet.cells) := by
  intro b
  have hb : b.Sound := sound_empty.run ops
  obtain ⟨hkept, hsheet⟩ := sheet_run sound_empty ⟨#[], rfl, rfl⟩ hops
  refine ⟨hkept, hsheet, fun op hop => ?_, fun e he => ?_, fun e he => ?_⟩
  · have h := refines_apply hb hkept hop
    exact ⟨h.answer_eq, h.sheet_eq, h.refused⟩
  · obtain ⟨edit, hdone, rfl⟩ := Option.map_eq_some_iff.1 (List.head?_map ▸ he)
    obtain ⟨rest, hdone⟩ := List.head?_eq_some_iff.1 hdone
    obtain ⟨w, hleads, -⟩ := hb.fits.undo (EditLog.undo?_eq_some.2 ⟨rest, hdone, rfl⟩)
    rw [sheet, cells_eq hkept]
    exact Edit.canRevert_cellEdit hkept hleads.canRevert
  · obtain ⟨edit, hundone, rfl⟩ := Option.map_eq_some_iff.1 (List.head?_map ▸ he)
    obtain ⟨rest, hundone⟩ := List.head?_eq_some_iff.1 hundone
    obtain ⟨w, hleads, -⟩ := hb.fits.redo (EditLog.redo?_eq_some.2 ⟨rest, hundone, rfl⟩)
    rw [sheet, cells_eq hkept]
    exact Edit.canReapply_cellEdit hkept hleads.canReapply

/-- Cells that were styled are taken out and put in again with their styles. -/
theorem sheet_of_run_styledCells :
    let ops : List Op := [.insert 0 (.ofList ['a', 'b', 'c']), .setStyles 1 #[5, 7, 9],
      .delete 1 2, .insert 5 (.ofList ['x']), .undo, .setStyleAt 0 0]
    let b := empty.run ops
    (∀ op ∈ ops, op.dropsStyles = false) ∧ b.sheet = Sheet.blank.run ops ∧
      b.sheet.cells = [('a', 0), ('b', 5), ('c', 7)] := by
  intro ops b
  have hops : ∀ op ∈ ops, op.dropsStyles = false := by decide
  obtain ⟨-, hsheet, -⟩ := sheet_of_run ops hops
  exact ⟨hops, hsheet, hsheet ▸ by decide⟩

end Buffer

end StyledText
