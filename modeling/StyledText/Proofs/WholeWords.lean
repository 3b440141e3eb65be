/-
  Words of the code and their styles.

  The run of a word is open from its first character up to the first one that cannot be
  part of a word, wherever that is and whatever it is.  There the word is looked up, as
  the text of its run, and the whole run gets its style.

  * `Text.wordEnd`: where a word ends, read off the text alone;
  * `Enters.visits_wordEnd`: a scan that begins a word comes to its end, and has all of
    it open there;
  * `Through.committed?_wordEnd`: there it is looked up, within the text and at its end;
  * `Dialect.lexText_word`: each word has one style, that of the first list with it.
-/
import StyledText.Proofs.Lasting

namespace StyledText

namespace Text

/-- The first position from `p` on that is past the end of the text or has a character
    that cannot be part of a word. -/
def wordEnd (t : Text) (settings : CFamily.Settings) (p : Nat) : Nat :=
  if p < t.length then
    if CFamily.isIdentifierChar settings (t.charAt p) then wordEnd t settings (p + 1) else p
  else p
termination_by t.length - p

variable {t : Text} {settings : CFamily.Settings} {p q : Nat}

theorem le_wordEnd : p ≤ t.wordEnd settings p := by
  fun_induction wordEnd t settings p with
  | case1 p _ _ ih => exact Nat.le_of_succ_le ih
  | case2 => exact Nat.le_refl _
  | case3 => exact Nat.le_refl _

theorem wordEnd_le (hp : p ≤ t.length) : t.wordEnd settings p ≤ t.length := by
  fun_induction wordEnd t settings p with
  | case1 p inside _ ih => exact ih inside
  | case2 => exact hp
  | case3 => exact hp

theorem isIdentifierChar_of_lt_wordEnd (hp : p ≤ q) (hq : q < t.wordEnd settings p) :
    CFamily.isIdentifierChar settings (t.charAt q) = true := by
  fun_induction wordEnd t settings p with
  | case1 p _ hch ih =>
    rcases Nat.lt_or_eq_of_le hp with hlt | rfl
    · exact ih hlt hq
    · exact hch
  | case2 => exact absurd hp (Nat.not_le.2 hq)
  | case3 => exact absurd hp (Nat.not_le.2 hq)

theorem isIdentifierChar_wordEnd (h : t.wordEnd settings p < t.length) :
    CFamily.isIdentifierChar settings (t.charAt (t.wordEnd settings p)) = false := by
  fun_induction wordEnd t settings p with
  | case1 p _ _ ih => exact ih h
  | case2 p _ hch => exact Bool.not_eq_true _ ▸ hch
  | case3 p hge => exact absurd h hge

end Text

namespace CFamily

namespace Scan

variable {d : Dialect} {t : Text} {s u : Scan} {a e p q : Nat}

/-! ## The text of a run -/

/-- A window reads the characters of its buffer, whatever has been committed in it. -/
theorem Reaches.textRange_eq_extract {c c' : Cursor} (h : Reaches c c') (hw : c.window.Fresh)
    (he : e ≤ c.window.length) :
    c'.window.textRange a e = (c.window.source.text.extract a e).toList := by
  obtain ⟨pending, hwindow⟩ := h.exists_pending
  have hlength : c'.window.length = c.window.length := by
    rw [hwindow]
    rfl
  have hchar (q : Nat) : c'.window.charAt q = c.window.source.text.charAt q := by
    rw [hwindow]
    exact hw.charAt_eq q
  rw [Window.textRange, Text.toList_extract_eq_map he, hlength, Nat.min_eq_left he]
  exact List.map_congr_left fun q _ => hchar q

/-- A window on a whole text reads the characters of the text. -/
theorem Visits.textRange_eq (hv : Visits d (whole t) u) (he : e ≤ t.length) :
    u.cursor.window.textRange a e = (t.extract a e).toList :=
  hv.reaches.textRange_eq_extract (Window.fresh_ofBuffer (.ofText t) 0 t.length) he

/-! ## How a word ends -/

/-- What stands for the text past its end cannot be part of a word. -/
theorem Through.isIdentifierChar_charOrSpace (h : Through t s) (settings : Settings) (q : Nat) :
    isIdentifierChar settings (s.cursor.window.charOrSpace q) =
      isIdentifierChar settings (t.charAt q) :=
  h.apply_charOrSpace (isIdentifierChar settings) rfl

/-- The run of a word ends in the style of its text. -/
theorem Within.committed?_endWord (h : s.Within .identifier a) (hc : Covers s.cursor)
    (ha : a ≤ q) (hq : q < s.cursor.pos) : (s.endWord d).cursor.window.committed? q =
      some (((d.vocabulary.classify? (s.cursor.window.textRange a s.cursor.pos)).getD
        .identifier).code) := by
  have hstate : s.cursor.state = Style.identifier.code := by
    rw [← hc.code_ofCode, ← h.style_eq]
    rfl
  have hopen : s.cursor.window.boundary ≤ q := h.boundary_eq ▸ ha
  have hclosed (code : UInt8) :
      ((s.cursor.recolour code).switchTo Style.plain.code).window.committed? q = some code :=
    Cursor.committed?_switchTo hopen hq hc.pos_le
  rw [cursor_endWord, Cursor.openRun, h.boundary_eq, hstate, hclosed]
  cases d.vocabulary.classify? (s.cursor.window.textRange a s.cursor.pos) <;> rfl

/-- **A word that cannot go on is closed**, by the next step or at the end of the text. -/
theorem Through.committed?_of_endWord (h : Through t s) (hs : s.style = .identifier)
    (hch : isIdentifierChar d.settings s.cursor.ch = false) (hjoin : ¬ t.JoinsAt s.cursor.pos)
    {code : UInt8} (hq : (s.endWord d).cursor.window.committed? q = some code) :
    (s.complete d).cursor.window.committed? q = some code := by
  have hleaving {u : Scan} (hu : u.style = .identifier) (hcursor : u.cursor = s.cursor) :
      u.leaving d = .endWord := by
    rw [leaving, hu, hcursor, leave, if_neg]
    rw [show s.cursor.surroundings.ch = s.cursor.ch from rfl, hch]
    exact Bool.false_ne_true
  by_cases inside : s.cursor.pos < s.cursor.window.stop
  · have hcursor : s.beginLine.cursor = s.cursor :=
      cursor_beginLine_of_isLookedUp (by rw [hs]; rfl)
    have hclosed : (s.beginLine.leaveStyle d).cursor = (s.endWord d).cursor := by
      rw [leaveStyle, hleaving (style_beginLine.trans hs) hcursor, applyLeave, cursor_endWord,
        cursor_endWord, hcursor]
    rw [complete_step inside, h.step_of_not_joinsAt inside hjoin]
    exact Scan.committed?_complete (reaches_enterAndPass d _) (hclosed ▸ hq)
  · rw [complete, run_of_outside inside, closeWord, hleaving hs rfl]
    exact (Reaches.refl.switchTo .plain).committed?_eq hq

/-- **A scan that begins a word comes to its end**, with all of the word open. -/
theorem Enters.visits_wordEnd (h : s.Enters d t .identifier a) :
    ∃ u, Visits d (whole t) u ∧ u.Within .identifier a ∧
      u.cursor.pos = t.wordEnd d.settings (a + 1) ∧
      isIdentifierChar d.settings u.cursor.ch = false := by
  obtain ⟨e, he⟩ : ∃ e, e = t.wordEnd d.settings (a + 1) := ⟨_, rfl⟩
  have hend : e ≤ t.length := he ▸ Text.wordEnd_le h.lt_length
  have hstep : Through t (s.step d) := h.through.step h.inside
  obtain ⟨hwithin, hpos, hch⟩ :=
    (Begins.word h.pos_eq h.hover h.entering?_eq).step h.through.sees h.through.covers h.inside
  have hgo (q : Nat) (hq : a + 1 ≤ q) (hlt : q < e) :
      goesOn d.settings .identifier ((s.step d).cursor.window.charOrSpace q) = true := by
    rw [goesOn, hstep.isIdentifierChar_charOrSpace]
    exact Text.isIdentifierChar_of_lt_wordEnd hq (he ▸ hlt)
  rw [← hpos] at hch hgo
  have hle : (s.step d).cursor.pos ≤ e := by
    rw [hpos, he]
    exact Text.le_wordEnd
  obtain ⟨hword, hlast, hlastch⟩ :=
    run_of_goesOn hwithin hstep.sees hch hgo hle (hstep.stop_eq ▸ hend)
  have hv : Visits d (whole t) ((s.step d).runTo d e) :=
    (h.visits.step h.inside).trans (.of_runTo d e _)
  refine ⟨_, hv, hword, hlast.trans he, ?_⟩
  rw [hlastch, hv.through.isIdentifierChar_charOrSpace]
  rcases Nat.lt_or_eq_of_le hend with hin | hout
  · rw [he] at hin ⊢
    exact Text.isIdentifierChar_wordEnd hin
  · rw [Text.charAt_of_length_le (Nat.le_of_eq hout.symm)]
    rfl

end Scan

namespace Dialect

/-- **A word of the code has one style, from its first character to its last.**  Let a scan
    of the whole text begin a word at `a`, and let no backslash join the next line to
    the line right behind the word.  Then the word has the style of the first list that
    holds its text, and that of an identifier if none does. -/
theorem lexText_word (d : Dialect) (t : Text) {s : Scan} {a : Nat}
    (h : s.Enters d t .identifier a) (hjoin : ¬ t.JoinsAt (t.wordEnd d.settings (a + 1))) :
    let e := t.wordEnd d.settings (a + 1)
    let word := (t.extract a e).toList
    let style : Style :=
      if d.vocabulary.primary.contains word then .keyword
      else if d.vocabulary.secondary.contains word then .keyword2
      else if d.vocabulary.globalClasses.contains word then .globalClass
      else .identifier
    ∀ q, a ≤ q → q < e → (d.lexer.lexText t 0 t.length 0)[q]? = some style.code := by
  intro e word style q hq hlt
  obtain ⟨u, hv, hwithin, hpos, hch⟩ := h.visits_wordEnd
  have hstyle : (d.vocabulary.classify? word).getD .identifier = style := by
    unfold Vocabulary.classify?
    dsimp only [style]
    split_ifs <;> rfl
  have hclosed := hwithin.committed?_endWord (d := d) hv.through.covers hq (hpos ▸ hlt)
  rw [hpos, hv.textRange_eq (Text.wordEnd_le h.lt_length), hstyle] at hclosed
  rw [hv.getElem?_lexText]
  exact hv.through.committed?_of_endWord hwithin.style_eq hch (hpos ▸ hjoin) hclosed

section Examples

/-- A dialect without regard to letter case, with a word in two of its lists. -/
def twoLists : Dialect :=
  (caseless.withWords 1 ['i', 'n', 't']).withWords 3 ['i', 'n', 't']

/-- A text that ends with the word. -/
def wordLast : Text := .ofString "x=INT"

theorem lexText_word_wordLast :
    ((Scan.whole wordLast).runTo twoLists 2).Enters twoLists wordLast .identifier 2 ∧
      wordLast.wordEnd twoLists.settings 3 = 5 ∧ ¬ wordLast.JoinsAt 5 ∧
      ∀ q, 2 ≤ q → q < 5 →
        (twoLists.lexer.lexText wordLast 0 wordLast.length 0)[q]? = some Style.keyword2.code := by
  have hbegins : ((Scan.whole wordLast).runTo twoLists 2).Enters twoLists wordLast .identifier 2 :=
    ⟨.of_runTo twoLists 2 _, by decide +kernel, by decide +kernel, by decide +kernel,
      by decide +kernel⟩
  have hend : wordLast.wordEnd twoLists.settings 3 = 5 := by decide +kernel
  have hjoin : ¬ wordLast.JoinsAt (wordLast.wordEnd twoLists.settings 3) := by
    rw [hend]
    decide
  have hstyle : (if twoLists.vocabulary.primary.contains ['I', 'N', 'T'] then Style.keyword
      else if twoLists.vocabulary.secondary.contains ['I', 'N', 'T'] then .keyword2
      else if twoLists.vocabulary.globalClasses.contains ['I', 'N', 'T'] then .globalClass
      else .identifier) = .keyword2 := by decide +kernel
  have hword := lexText_word twoLists wordLast hbegins hjoin
  simp only [hend] at hword hjoin
  rw [show (wordLast.extract 2 5).toList = ['I', 'N', 'T'] by decide, hstyle] at hword
  exact ⟨hbegins, hend, hjoin, hword⟩

end Examples

end Dialect

end CFamily

end StyledText
