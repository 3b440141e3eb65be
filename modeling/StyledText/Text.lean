/-
  Text as a run of characters.

  A position counts characters from `0`, and position `length` is the end of
  the text.  Every read is total: it answers `nul` past the end.  An edit that
  does not fit the text leaves it as it is, so no edit can fail.

  * `Text.toList` is the view through which texts are reasoned about;
  * `charAt_eq` reads a character off the view;
  * `toList_insert` and `toList_remove` say what the two edits do to the view.
-/

namespace StyledText

/-- The character that a read past the end of a text gives. -/
def nul : Char := '\x00'

/-- A run of characters, numbered from `0`. -/
structure Text where
  /-- The characters in order. -/
  chars : Array Char
deriving DecidableEq, Inhabited

namespace Text

/-! ## Building and viewing -/

/-- The text without characters. -/
def empty : Text := ⟨#[]⟩

/-- The text with the given characters. -/
def ofList (cs : List Char) : Text := ⟨cs.toArray⟩

/-- The characters of a text, first to last. -/
def toList (t : Text) : List Char := t.chars.toList

/-- The text spelled by a string. -/
def ofString (s : String) : Text := ofList s.toList

/-- The string that spells a text. -/
def toString (t : Text) : String := String.ofList t.toList

instance : EmptyCollection Text := ⟨empty⟩

/-- The number of characters. -/
def length (t : Text) : Nat := t.chars.size

/-- A text without characters is empty. -/
def isEmpty (t : Text) : Bool := t.length == 0

/-! ## Reading -/

/-- The character at `p`, or `nul` past the end. -/
def charAt (t : Text) (p : Nat) : Char := t.chars[p]?.getD nul

/-- The characters of `[start, stop)`, as many of them as there are. -/
def extract (t : Text) (start stop : Nat) : Text := ⟨t.chars.extract start stop⟩

/-- The text of `[start, stop)`, and the empty text unless the range lies
    within the text. -/
def slice (t : Text) (start stop : Nat) : Text :=
  if start ≤ stop ∧ stop ≤ t.length then t.extract start stop else empty

/-- The characters from `p` to the end. -/
def suffixFrom (t : Text) (p : Nat) : Text := t.extract p t.length

/-! ## Editing -/

/-- `s` put before the character at `p`.  Past the end there is no such place,
    and the text stays as it is. -/
def insert (t : Text) (p : Nat) (s : Text) : Text :=
  if p ≤ t.length then ⟨t.chars.extract 0 p ++ s.chars ++ t.chars.extract p t.length⟩ else t

/-- The text without the characters of `[start, stop)`.  A range that does not
    lie within the text removes nothing. -/
def remove (t : Text) (start stop : Nat) : Text :=
  if start ≤ stop ∧ stop ≤ t.length then
    ⟨t.chars.extract 0 start ++ t.chars.extract stop t.length⟩
  else t

/-! ## The view -/

@[simp] theorem toList_empty : (empty : Text).toList = [] := rfl

@[simp] theorem toList_ofList (cs : List Char) : (ofList cs).toList = cs := by
  simp [ofList, toList]

@[simp] theorem ofList_toList (t : Text) : ofList t.toList = t := by
  simp [ofList, toList]

/-- Texts with the same characters are equal. -/
theorem toList_inj {s t : Text} : s.toList = t.toList ↔ s = t := by
  constructor
  · intro h
    rw [← ofList_toList s, h, ofList_toList]
  · rintro rfl
    rfl

@[simp] theorem length_toList (t : Text) : t.toList.length = t.length := by
  simp [toList, length]

@[simp] theorem length_ofList (cs : List Char) : (ofList cs).length = cs.length := by
  rw [← length_toList, toList_ofList]

theorem charAt_eq (t : Text) (p : Nat) : t.charAt p = t.toList[p]?.getD nul := by
  simp [charAt, toList]

theorem charAt_of_length_le {t : Text} {p : Nat} (h : t.length ≤ p) : t.charAt p = nul := by
  rw [charAt_eq, List.getElem?_eq_none (by simpa using h)]
  rfl

@[simp] theorem toList_extract (t : Text) (start stop : Nat) :
    (t.extract start stop).toList = (t.toList.drop start).take (stop - start) := by
  simp [extract, toList, List.extract_eq_take_drop]

@[simp] theorem length_extract (t : Text) (start stop : Nat) :
    (t.extract start stop).length = min stop t.length - start := by
  simp [extract, length]

theorem toList_suffixFrom (t : Text) (p : Nat) : (t.suffixFrom p).toList = t.toList.drop p := by
  simp [suffixFrom, List.take_of_length_le]

/-- **Inserting splices the new characters in at their position.** -/
theorem toList_insert {t : Text} {p : Nat} (h : p ≤ t.length) (s : Text) :
    (t.insert p s).toList = t.toList.take p ++ s.toList ++ t.toList.drop p := by
  rw [insert, if_pos h]
  simp [toList, length, List.extract_eq_take_drop, List.take_of_length_le]

/-- **Removing takes exactly the characters of the range away.** -/
theorem toList_remove {t : Text} {start stop : Nat} (h : start ≤ stop) (h' : stop ≤ t.length) :
    (t.remove start stop).toList = t.toList.take start ++ t.toList.drop stop := by
  rw [remove, if_pos ⟨h, h'⟩]
  simp [toList, length, List.extract_eq_take_drop, List.take_of_length_le]

theorem length_insert {t : Text} {p : Nat} (h : p ≤ t.length) (s : Text) :
    (t.insert p s).length = t.length + s.length := by
  rw [← length_toList, toList_insert h]
  simp
  omega

theorem length_remove {t : Text} {start stop : Nat} (h : start ≤ stop) (h' : stop ≤ t.length) :
    (t.remove start stop).length = t.length - (stop - start) := by
  rw [← length_toList, toList_remove h h']
  simp
  omega

end Text

end StyledText
