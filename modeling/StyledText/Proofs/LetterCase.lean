/-
  Letters in either case.

  The lexer for C-like languages looks at the case of an ASCII letter in few places.  A word
  list without regard to case keeps its words in lower case, and everything but the words and
  the keywords of comments is told by marks and by kinds of characters, which hold of a capital
  if and only if they hold of its small letter.

  * `UpToCase`: two characters that differ in the case of an ASCII letter at most;
  * `lowercase_map_toLower` and `Vocabulary.classify?_eq`: words that differ so are in the
    same lists, if these have no regard to case;
  * `leave_upToCase` and `enter?_upToCase`: the transitions at such characters are the same,
    but for the end of a keyword in a comment.
-/
import Mathlib.Data.List.Basic
import StyledText.CFamily
import StyledText.Proofs.LineSight

namespace StyledText

/-! ## Characters -/

/-- The capital letters of ASCII. -/
def capitals : List Char := (List.range 26).map fun n => Char.ofNat (0x41 + n)

theorem toLower_of_not_mem_capitals {c : Char} (h : c ∉ capitals) : c.toLower = c := by
  unfold Char.toLower
  split
  · rename_i hcap
    refine absurd (List.mem_map.2 ⟨c.toNat - 0x41, ?_, ?_⟩) h
    · have hle : c.toNat ≤ 0x5A := hcap.2
      rw [List.mem_range]
      omega
    · have hge : 0x41 ≤ c.toNat := hcap.1
      rw [Nat.add_sub_cancel' hge, Char.ofNat_toNat]
  · rfl

theorem not_isWhiteSpace_of_isSmallLetter {c : Char} (h : isSmallLetter c = true) :
    Unicode.isWhiteSpace c = false := by
  simp only [isSmallLetter, Bool.and_eq_true, decide_eq_true_eq] at h
  have hge : 0x61 ≤ c.toNat := h.1
  have hle : c.toNat ≤ 0x7A := h.2
  have hnone : Unicode.whiteSpace.all (fun range => range.2 < 0x61 || 0x7A < range.1) = true := rfl
  rw [← Bool.not_eq_true, Unicode.isWhiteSpace, Unicode.inRanges_iff]
  rintro ⟨range, hmem, hfirst, hlast⟩
  have hout := List.all_eq_true.1 hnone range hmem
  rw [Bool.or_eq_true, decide_eq_true_eq, decide_eq_true_eq] at hout
  omega

theorem not_isSpace_of_isLetter {c : Char} (h : isLetter c = true) : isSpace c = false := by
  rw [← Bool.not_eq_true]
  intro hspace
  simp only [isSpace, Bool.or_eq_true, Bool.and_eq_true, beq_iff_eq, decide_eq_true_eq] at hspace
  simp only [isLetter, isSmallLetter, Bool.or_eq_true, Bool.and_eq_true, decide_eq_true_eq] at h
  rcases hspace with rfl | ⟨-, hle⟩
  · exact absurd h (by decide)
  · have hle : c.toNat ≤ 0xD := hle
    rcases h with ⟨hge, -⟩ | ⟨hge, -⟩
    · have hge : 0x61 ≤ c.toNat := hge
      omega
    · have hge : 0x41 ≤ c.toNat := hge
      omega

theorem beq_eq_false_of_isLetter {c x : Char} (hc : isLetter c = true) (hx : isLetter x = false) :
    (c == x) = false := by
  rw [beq_eq_false_iff_ne]
  rintro rfl
  rw [hx] at hc
  cases hc

/-- Whether `p` does not tell the capitals of ASCII from the small letters. -/
def ignoresCase {α : Type} [BEq α] (p : Char → α) : Bool :=
  capitals.all fun c => p c.toLower == p c

theorem apply_toLower {α : Type} [BEq α] [LawfulBEq α] {p : Char → α} (hp : ignoresCase p = true)
    (c : Char) : p c.toLower = p c := by
  by_cases hc : c ∈ capitals
  · exact beq_iff_eq.1 (List.all_eq_true.1 hp c hc)
  · rw [toLower_of_not_mem_capitals hc]

/-- The characters are the same but for the case of an ASCII letter. -/
def UpToCase (c c' : Char) : Prop := c'.toLower = c.toLower

namespace UpToCase

variable {c c' : Char}

instance : Decidable (UpToCase c c') := inferInstanceAs (Decidable (c'.toLower = c.toLower))

theorem refl (c : Char) : UpToCase c c := rfl

/-- **What does not tell a capital from its small letter takes both characters alike.** -/
theorem apply {α : Type} [BEq α] [LawfulBEq α] (h : UpToCase c c') (p : Char → α)
    (hp : ignoresCase p = true) : p c' = p c := by
  rw [← apply_toLower hp c', h, apply_toLower hp c]

/-- Both are the character `x`, which is no letter, or neither is. -/
theorem beq_eq (h : UpToCase c c') {x : Char} (hx : isLetter x = false) :
    (c' == x) = (c == x) := by
  have hletters : capitals.all (fun ch => isLetter ch.toLower && isLetter ch) = true := rfl
  refine h.apply (· == x) (List.all_eq_true.2 fun ch hch => ?_)
  obtain ⟨hsmall, hcapital⟩ := Bool.and_eq_true_iff.1 (List.all_eq_true.1 hletters ch hch)
  dsimp only
  rw [beq_eq_false_of_isLetter hsmall hx, beq_eq_false_of_isLetter hcapital hx]
  rfl

theorem isSpace_eq (h : UpToCase c c') : isSpace c' = isSpace c := h.apply _ (by decide)

theorem isLineBreak_eq (h : UpToCase c c') : isLineBreak c' = isLineBreak c :=
  h.apply _ (by decide)

theorem isDigit_eq (h : UpToCase c c') : isDigit c' = isDigit c := h.apply _ (by decide)

theorem isWordChar_eq (h : UpToCase c c') : isWordChar c' = isWordChar c := h.apply _ (by decide)

theorem isWordStart_eq (h : UpToCase c c') : isWordStart c' = isWordStart c :=
  h.apply _ (by decide)

end UpToCase

/-! ## Words -/

namespace Unicode

@[simp] theorem isCaseIgnorable_toLower (c : Char) :
    isCaseIgnorable c.toLower = isCaseIgnorable c := apply_toLower (by decide +kernel) c

@[simp] theorem isCased_toLower (c : Char) : isCased c.toLower = isCased c :=
  apply_toLower (by decide +kernel) c

@[simp] theorem startsCased_map_toLower (cs : List Char) :
    startsCased (cs.map Char.toLower) = startsCased cs := by
  induction cs with
  | nil => rfl
  | cons c cs ih =>
    unfold startsCased at ih ⊢
    rw [List.map_cons, List.dropWhile_cons, List.dropWhile_cons, isCaseIgnorable_toLower]
    split
    · exact ih
    · exact isCased_toLower c

theorem lowercaseChar_toLower (c : Char) : lowercaseChar c.toLower = lowercaseChar c :=
  apply_toLower (by decide) c

theorem toLower_eq_sigma_iff {c : Char} : c.toLower = 'Σ' ↔ c = 'Σ' := by
  have hsame : (c.toLower == 'Σ') = (c == 'Σ') := apply_toLower (p := (· == 'Σ')) (by decide) c
  rw [← beq_iff_eq, hsame, beq_iff_eq]

theorem lowercaseAfter_map_toLower (before cs : List Char) :
    lowercaseAfter (before.map Char.toLower) (cs.map Char.toLower) = lowercaseAfter before cs := by
  induction cs generalizing before with
  | nil => rfl
  | cons c cs ih =>
    have htail := ih (c :: before)
    rw [List.map_cons] at htail ⊢
    simp only [lowercaseAfter, htail, startsCased_map_toLower, lowercaseChar_toLower,
      toLower_eq_sigma_iff]

/-- **The lower case of a word does not hang on the case of its ASCII letters.** -/
theorem lowercase_map_toLower (cs : List Char) :
    lowercase (cs.map Char.toLower) = lowercase cs := lowercaseAfter_map_toLower [] cs

end Unicode

/-- Words that differ in the case of their ASCII letters are both in a set without regard to
    case, or neither is. -/
theorem WordSet.contains_eq {s : WordSet} (hs : s.caseSensitive = false) {word word' : List Char}
    (h : word'.map Char.toLower = word.map Char.toLower) : s.contains word' = s.contains word := by
  have hfold (cs : List Char) : s.fold cs = Unicode.lowercase (cs.map Char.toLower) := by
    rw [fold, hs, Unicode.lowercase_map_toLower]
    rfl
  rw [contains, contains, hfold, hfold, h]

namespace CFamily

/-! ## Word lists -/

/-- **No word list has regard to letter case.** -/
def Vocabulary.IsCaseless (v : Vocabulary) : Prop := ∀ role, (v.get role).caseSensitive = false

namespace Vocabulary

variable {v : Vocabulary} {word word' : List Char}

theorem isCaseless_empty : (empty false).IsCaseless := by
  intro role
  cases role <;> rfl

theorem IsCaseless.set (h : v.IsCaseless) {words : WordSet} (hw : words.caseSensitive = false)
    (role : WordRole) : (v.set words role).IsCaseless := by
  intro other
  have hother := h other
  cases role <;> cases other <;> first | exact hw | exact hother

/-- Other words in a list change nothing about it. -/
theorem IsCaseless.replace (h : v.IsCaseless) (index : Nat) (text : List Char) :
    (v.replace index text).IsCaseless := by
  unfold Vocabulary.replace replace?
  cases WordRole.ofIndex? index with
  | none => exact h
  | some role =>
    dsimp only
    cases hfresh : (v.get role).replace? text with
    | none => exact h
    | some words =>
      refine h.set ?_ role
      unfold WordSet.replace? at hfresh
      split at hfresh
      · cases hfresh
      · cases hfresh
        exact h role

/-- **A word is of the same list in capitals and in small letters.** -/
theorem IsCaseless.classify?_eq (h : v.IsCaseless)
    (hword : word'.map Char.toLower = word.map Char.toLower) :
    v.classify? word' = v.classify? word := by
  have hprimary : v.primary.contains word' = v.primary.contains word :=
    WordSet.contains_eq (h .primary) hword
  have hsecondary : v.secondary.contains word' = v.secondary.contains word :=
    WordSet.contains_eq (h .secondary) hword
  have hglobal : v.globalClasses.contains word' = v.globalClasses.contains word :=
    WordSet.contains_eq (h .globalClasses) hword
  rw [classify?, classify?, hprimary, hsecondary, hglobal]

end Vocabulary

/-- Settings without regard to case give word lists without regard to it. -/
theorem Dialect.isCaseless_ofSettings {settings : Settings} (h : settings.caseSensitive = false) :
    (ofSettings settings).vocabulary.IsCaseless := by
  show (Vocabulary.empty settings.caseSensitive).IsCaseless
  rw [h]
  exact Vocabulary.isCaseless_empty

theorem Dialect.isCaseless_withWords {d : Dialect} (h : d.vocabulary.IsCaseless) (index : Nat)
    (text : List Char) : (d.withWords index text).vocabulary.IsCaseless := h.replace index text

end CFamily

/-! ## Transitions -/

/-- **Two places look alike but for letter case.** -/
structure Surroundings.UpToCase (here there : Surroundings) : Prop where
  prev : StyledText.UpToCase here.prev there.prev
  ch : StyledText.UpToCase here.ch there.ch
  next : StyledText.UpToCase here.next there.next
  next2 : StyledText.UpToCase here.next2 there.next2
  next3 : StyledText.UpToCase here.next3 there.next3
  atLineStart_eq : there.atLineStart = here.atLineStart
  atLineEnd_eq : there.atLineEnd = here.atLineEnd

namespace CFamily

variable {here there : Surroundings} {style : Style} {memory : Memory} {settings : Settings}

theorem isIdentifierChar_upToCase {c c' : Char} (h : UpToCase c c') :
    isIdentifierChar settings c' = isIdentifierChar settings c := by
  rw [isIdentifierChar, isIdentifierChar, h.isWordChar_eq, h.beq_eq (by decide)]

theorem closesComment_upToCase (h : here.UpToCase there) :
    closesComment there = closesComment here := by
  rw [closesComment, closesComment, h.ch.beq_eq (by decide), h.next.beq_eq (by decide)]

theorem beginsDocKeyword_upToCase (h : here.UpToCase there) {after : List Char}
    (hafter : ignoresCase after.contains = true) :
    beginsDocKeyword there after = beginsDocKeyword here after := by
  rw [beginsDocKeyword, beginsDocKeyword, h.ch.beq_eq (by decide), h.ch.beq_eq (by decide),
    h.prev.isSpace_eq, h.next.isSpace_eq, h.prev.apply _ hafter]

theorem leaveDirective_upToCase (h : here.UpToCase there) :
    leaveDirective there memory settings = leaveDirective here memory settings := by
  have hslash : (there.ch == '/') = (here.ch == '/') := h.ch.beq_eq (by decide)
  have hquote : (there.ch == '"') = (here.ch == '"') := h.ch.beq_eq (by decide)
  have hangle : (there.ch == '<') = (here.ch == '<') := h.ch.beq_eq (by decide)
  have hsingle : (there.ch == '\'') = (here.ch == '\'') := h.ch.beq_eq (by decide)
  unfold leaveDirective
  rw [h.atLineStart_eq, h.ch.isSpace_eq, hslash, hquote, hangle, hsingle,
    h.next.beq_eq (by decide), h.next.beq_eq (by decide)]

theorem leaveLiteral_upToCase (h : here.UpToCase there) {close : Char}
    (hclose : isLetter close = false) :
    leaveLiteral there close = leaveLiteral here close := by
  rw [leaveLiteral, leaveLiteral, h.atLineEnd_eq, h.ch.beq_eq (by decide), h.ch.beq_eq hclose]

/-- **A style ends alike before letters of either case**, but for a keyword in a comment, which
    has small letters only. -/
theorem leave_upToCase (h : here.UpToCase there) (hm : memory.Sane)
    (hdoc : style = .docKeyword → there.ch = here.ch) :
    leave style there memory settings = leave style here memory settings := by
  cases style with
  | plain | operator | keyword | keyword2 | globalClass | docKeywordError => rfl
  | number =>
    have hsign :
        ((there.ch == '+' || there.ch == '-') && (there.prev == 'e' || there.prev == 'E')) =
          ((here.ch == '+' || here.ch == '-') && (here.prev == 'e' || here.prev == 'E')) := by
      rw [h.ch.beq_eq (by decide), h.ch.beq_eq (by decide),
        h.prev.apply (fun c => c == 'e' || c == 'E') (by decide)]
    rw [leave, leave, hsign, h.ch.isWordChar_eq, h.ch.beq_eq (by decide), h.ch.beq_eq (by decide)]
  | identifier => rw [leave, leave, isIdentifierChar_upToCase h.ch]
  | uuid =>
    rw [leave, leave, h.ch.beq_eq (by decide), h.ch.beq_eq (by decide), h.ch.beq_eq (by decide)]
  | lineComment | unclosed => rw [leave, leave, h.atLineStart_eq]
  | directive => exact leaveDirective_upToCase h
  | blockComment => rw [leave, leave, closesComment_upToCase h]
  | docComment =>
    rw [leave, leave, closesComment_upToCase h, beginsDocKeyword_upToCase h (by decide)]
  | docLineComment =>
    rw [leave, leave, h.atLineStart_eq, beginsDocKeyword_upToCase h (by decide)]
  | docKeyword => rw [leave, leave, closesComment_upToCase h, hdoc rfl]
  | string =>
    refine leaveLiteral_upToCase h ?_
    rcases hm.stringClose with hc | hc <;> rw [hc] <;> decide
  | character => exact leaveLiteral_upToCase h (by decide)
  | verbatim => rw [leave, leave, h.ch.beq_eq (by decide), h.next.beq_eq (by decide)]
  | regex =>
    have hslash : (there.ch == '/') = (here.ch == '/') := h.ch.beq_eq (by decide)
    rw [leave, leave, h.atLineStart_eq, hslash, h.ch.beq_eq (by decide),
      h.next.beq_eq (by decide), h.next.beq_eq (by decide)]

/-- **The same begins at letters of either case.** -/
theorem enter?_upToCase (h : here.UpToCase there) {c : Char} (hc : UpToCase memory.lastVisible c) :
    enter? there { memory with lastVisible := c } settings = enter? here memory settings := by
  have hch {x : Char} (hx : isLetter x = false) : (there.ch == x) = (here.ch == x) := h.ch.beq_eq hx
  have hnext {x : Char} (hx : isLetter x = false) : (there.next == x) = (here.next == x) :=
    h.next.beq_eq hx
  have hnext2 {x : Char} (hx : isLetter x = false) : (there.next2 == x) = (here.next2 == x) :=
    h.next2.beq_eq hx
  have hnext3 : (there.next3 != '/') = (here.next3 != '/') :=
    congrArg (!·) (h.next3.beq_eq (by decide))
  have hpermits : permitsRegex c = permitsRegex memory.lastVisible := hc.apply _ (by decide)
  have hoperator : isOperator there.ch = isOperator here.ch := h.ch.apply _ (by decide)
  unfold enter?
  dsimp only
  rw [hch (by decide : isLetter '@' = false), hch (by decide : isLetter '.' = false),
    hch (by decide : isLetter '$' = false), hch (by decide : isLetter '/' = false),
    hch (by decide : isLetter '"' = false), hch (by decide : isLetter '<' = false),
    hch (by decide : isLetter '\'' = false), hch (by decide : isLetter '#' = false),
    hnext (by decide : isLetter '"' = false), hnext (by decide : isLetter '*' = false),
    hnext (by decide : isLetter '/' = false), hnext2 (by decide : isLetter '*' = false),
    hnext2 (by decide : isLetter '!' = false), hnext2 (by decide : isLetter '/' = false), hnext3,
    hpermits, hoperator, h.ch.isDigit_eq, h.next.isDigit_eq, h.ch.isWordStart_eq]

end CFamily

end StyledText
