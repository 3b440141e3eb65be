/-
  Sets of characters chosen by kind.

  A set tells the ASCII characters apart and gives all the others one answer.

  * `contains_add` says what adding a character changes.
-/
import StyledText.CharKind

namespace StyledText

/-- A set of characters. -/
structure CharSet where
  /-- Which ASCII characters are in the set, by code point. -/
  ascii : BitVec 128
  /-- Whether the characters beyond ASCII are in the set. -/
  beyond : Bool
deriving DecidableEq

namespace CharSet

/-- Whether `c` is in the set. -/
def contains (s : CharSet) (c : Char) : Bool :=
  if isAscii c then s.ascii.getLsbD c.toNat else s.beyond

/-- The set with `c` in it.  A character beyond ASCII cannot be added alone. -/
def add (s : CharSet) (c : Char) : CharSet :=
  if isAscii c then { s with ascii := s.ascii ||| BitVec.twoPow 128 c.toNat } else s

/-- The set with every character of `cs` in it. -/
def addAll (s : CharSet) (cs : List Char) : CharSet := cs.foldl add s

/-- Every ASCII character. -/
def asciiChars : List Char := (List.range 0x80).map Char.ofNat

/-- The ASCII characters of at least one of `kinds`, those of `extra`, and,
    if `beyond` holds, all characters beyond ASCII. -/
def ofKinds (kinds : List CharKind) (extra : List Char) (beyond : Bool) : CharSet :=
  let chosen := asciiChars.filter fun c => kinds.any (·.holds c)
  (CharSet.mk 0 beyond).addAll (chosen ++ extra)

/-- **Adding an ASCII character puts that character into the set and changes
    no other answer.** -/
theorem contains_add {s : CharSet} {c d : Char} (h : isAscii c = true) :
    (s.add c).contains d = (s.contains d || d == c) := by
  have hc : c.toNat < 0x80 := by simpa [isAscii] using h
  by_cases hd : isAscii d = true
  · have hd' : d.toNat < 0x80 := by simpa [isAscii] using hd
    have key : decide (d.toNat = c.toNat) = (d == c) := by
      rw [Bool.eq_iff_iff]
      simp [Char.toNat_inj]
    simp [add, contains, h, hd, hd', key]
  · have e : (d == c) = false := by
      simp only [beq_eq_false_iff_ne]
      rintro rfl
      exact hd h
    simp [add, contains, h, hd, e]

end CharSet

end StyledText
