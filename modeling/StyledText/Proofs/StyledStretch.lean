/-
  What lexing a stretch of a document changes, and what it gives.

  A lexer for a C-like language may find that the stretch begins within a word, and then
  goes back to the beginning of the word.  The styles are put in from there on, but only
  those of the stretch are given.

  * `Buffer.styleRange_setStyles` and `Buffer.getElem?_setStyles_of_outside`: what is put in,
    and what stays;
  * `BacksOver`: what a window can be moved back over, and `backsOver_reopen`: it is moved
    back over nothing else;
  * `Document.isSome_styles_obey`: whatever is done to a document, it keeps styles;
  * `Document.lex_stretch`: lexing changes the styles of the stretch and of the word that it
    begins within, gives those of the stretch, and changes nothing else in the buffer.
-/
import StyledText.Proofs.Cells
import StyledText.Proofs.IncludePaths
import StyledText.Proofs.Progress

namespace StyledText

/-! ## Styles put in -/

namespace Buffer

variable {b : Buffer} {styles : Array UInt8}

theorem isSome_styles_setStyles (b : Buffer) (p : Nat) (values : Array UInt8) :
    (b.setStyles p values).styles.isSome = b.styles.isSome := by
  rcases hs : b.styles with _ | styles
  · rw [setStyles, setStyles?, hs]
    exact congrArg Option.isSome hs
  · rw [setStyles_eq_overwrite hs]
    rfl

/-- **Outside of the styles that are put in, all stay as they were.** -/
theorem getElem?_setStyles_of_outside (b : Buffer) {p q : Nat} {values : Array UInt8}
    (hq : q < p ∨ p + values.size ≤ q) :
    (b.setStyles p values).styles.bind (·[q]?) = b.styles.bind (·[q]?) := by
  rcases hs : b.styles with _ | styles
  · rw [setStyles, setStyles?, hs]
    exact congrArg (Option.bind · (·[q]?)) hs
  · rw [setStyles_eq_overwrite hs, Option.bind_some, Option.bind_some, getElem?_overwrite]
    have hold : styleOver p values q = id := by
      funext old
      rw [styleOver, id]
      split_ifs
      · rw [Array.getElem?_eq_none (by omega), Option.getD_none]
      · rfl
    rw [hold, Option.map_id, id]

/-- **Of the styles that are put in, those from `start` on stand there.** -/
theorem styleRange_setStyles (hs : b.styles = some styles) {p start stop : Nat}
    {values : Array UInt8} (hstart : p ≤ start) (hstop : p + values.size = stop)
    (hfits : stop ≤ styles.size) :
    (b.setStyles p values).styleRange start (stop - start) =
      values.extract (start - p) values.size := by
  rw [setStyles_eq_overwrite hs]
  refine Array.ext_getElem? fun i => ?_
  dsimp only [styleRange]
  rw [Array.getElem?_extract, Array.getElem?_extract, getElem?_overwrite]
  have hsize : (overwrite styles p values).size = styles.size := Array.size_mapIdx
  by_cases hi : start + i < stop
  · rw [if_pos (by omega), if_pos (by omega), Array.getElem?_eq_getElem (by omega),
      Option.map_some, styleOver, if_pos (by omega),
      show start + i - p = start - p + i by omega, Array.getElem?_eq_getElem (by omega),
      Option.getD_some]
  · rw [if_neg (by omega), if_neg (by omega)]

end Buffer

/-! ## Going back to the beginning of a word -/

namespace CFamily

variable {settings : Settings} {w : Window} {f : Char → Bool} {pos q : Nat} {style : Style}

/-- The characters of a run that goes through a position, that position included. -/
theorem accepts_of_runStart_lt (hrun : runStart f w pos < pos) (hq : runStart f w pos ≤ q)
    (hle : q ≤ pos) : f (w.charAt q) = true := by
  rcases Nat.lt_or_eq_of_le hle with hlt | rfl
  · exact accepts_of_runStart hq hlt
  · cases q with
    | zero => exact absurd hrun (Nat.not_lt_zero _)
    | succ pos =>
      unfold runStart at hrun
      split at hrun
      · rename_i hboth
        exact (Bool.and_eq_true_iff.1 hboth).1
      · exact absurd hrun (Nat.lt_irrefl _)

/-- **What the lexer goes back over from `k` to `a`**, when it is to go on in `style`: a word
    with the mark that it may have, or a documentation keyword with its mark.  The character
    at `k` belongs to it too. -/
inductive BacksOver (settings : Settings) (b : Buffer) (a k : Nat) (style : Style) : Prop where
  /-- A word, which may be marked with `@`. -/
  | word (of_word : style ∈ [.identifier, .keyword, .keyword2, .globalClass])
      (chars : ∀ q, a ≤ q → q ≤ k →
        isIdentifierChar settings (b.charAt q) = true ∨ q = a ∧ b.charAt q = '@')
  /-- A keyword of a documenting comment. -/
  | docKeyword (of_docKeyword : style = .docKeyword)
      (mark : b.charAt a = '@' ∨ b.charAt a = '\\')
      (letters : ∀ q, a < q → q ≤ k → isSmallLetter (b.charAt q) = true)

theorem chars_of_wordStart? {first : Nat} (h : wordStart? settings w pos = some first)
    (hq : first ≤ q) (hle : q ≤ pos) :
    isIdentifierChar settings (w.charAt q) = true ∨ q = first ∧ w.charAt q = '@' := by
  have hfirst : runStart (isIdentifierChar settings) w pos ≤ pos := runStart_le _ w pos
  unfold wordStart? at h
  dsimp only at h
  split_ifs at h with hback hmark
  · obtain rfl := Option.some.inj h
    rcases Nat.eq_or_lt_of_le hq with rfl | hbehind
    · exact .inr ⟨rfl, hmark.2⟩
    · exact .inl (accepts_of_runStart_lt (by omega) (by omega) hle)
  · obtain rfl := Option.some.inj h
    exact .inl (accepts_of_runStart_lt (by omega) hq hle)

theorem letters_of_docKeywordStart? {mark : Nat} (h : docKeywordStart? w pos = some mark) :
    (w.charAt mark = '@' ∨ w.charAt mark = '\\') ∧
      ∀ q, mark < q → q ≤ pos → isSmallLetter (w.charAt q) = true := by
  have hfirst : runStart isSmallLetter w pos ≤ pos := runStart_le _ w pos
  unfold docKeywordStart? at h
  dsimp only at h
  split_ifs at h with hback hmark
  obtain rfl := Option.some.inj h
  exact ⟨hmark, fun q hq hle => accepts_of_runStart_lt (by omega) (by omega) hle⟩

/-- **The lexer moves its window back over a word or a documentation keyword only.** -/
theorem backsOver_reopen (hw : w.Fresh) (hback : (reopen settings w style).1.start < w.start) :
    BacksOver settings w.source (reopen settings w style).1.start w.start style := by
  cases style with
  | identifier | keyword | keyword2 | globalClass =>
    unfold reopen at hback ⊢
    dsimp only at hback ⊢
    split at hback
    · rename_i first hfirst
      rw [hw.start_extendBack] at hback ⊢
      refine .word (by decide) fun q hq hle => ?_
      rw [← hw.charAt_eq, show min first w.start = first by omega]
      exact chars_of_wordStart? hfirst (by omega) hle
    · exact absurd hback (Nat.lt_irrefl _)
  | docKeyword =>
    unfold reopen at hback ⊢
    dsimp only at hback ⊢
    split at hback
    · rename_i mark hmark
      rw [hw.start_extendBack] at hback ⊢
      rw [show min mark w.start = mark by omega]
      obtain ⟨hchar, hletters⟩ := letters_of_docKeywordStart? hmark
      refine .docKeyword rfl ?_ fun q hq hle => ?_
      · rwa [← hw.charAt_eq]
      · rw [← hw.charAt_eq]
        exact hletters q hq hle
    · exact absurd hback (Nat.lt_irrefl _)
  | _ => exact absurd hback (Nat.lt_irrefl _)

end CFamily

namespace Document

open CFamily

variable {d : Document}

/-! ## Documents keep styles -/

/-- An operation keeps styles if they were kept, and only then. -/
theorem isSome_styles_apply (hd : d.buffer.Sound) (op : Op) :
    (d.apply op).buffer.styles.isSome = d.buffer.styles.isSome := by
  have heffect := effect_apply hd op
  generalize d.apply op = d' at heffect ⊢
  cases heffect with
  | load text =>
    unfold load
    split_ifs with hr
    · rfl
    · rw [(adopt_eq _ _ _ _ _ _).2.1, Buffer.load, if_neg hr]
      exact Option.isSome_map
  | ensureStyledTo p =>
    unfold ensureStyledTo
    dsimp only
    split
    · rfl
    · exact Buffer.isSome_styles_setStyles _ _ _
  | change _ hsame =>
    rw [(adopt_eq _ _ _ _ _ _).2.1]
    exact hsame.kept_eq
  | mark _ hsame =>
    rw [(tellSaved_eq _ _).2.1]
    exact congrArg (fun content => content.styles.isSome) hsame
  | refused => rfl

theorem isSome_styles_perform (hd : d.buffer.Sound) (command : Command) :
    (d.perform command).buffer.styles.isSome = d.buffer.styles.isSome := by
  cases command with
  | edit op => exact isSome_styles_apply hd op
  | lex start n initial => exact Buffer.isSome_styles_setStyles _ _ _
  | save =>
    change (d.save).buffer.styles.isSome = _
    rw [save, (tellSaved_eq _ _).2.1]
    rfl
  | setLexer _ | clearLog | setReadOnly _ | setRecording _ | setTabWidth _ | addWatcher => rfl

/-- **Whatever is done to a document, it keeps styles.** -/
theorem isSome_styles_obey (hd : d.buffer.Sound) (commands : List Command) :
    (d.obey commands).buffer.styles.isSome = d.buffer.styles.isSome := by
  induction commands generalizing d with
  | nil => rfl
  | cons command commands ih =>
    exact (ih (sound_perform hd command)).trans (isSome_styles_perform hd command)

/-! ## Lexing a stretch -/

/-- **Lexing a stretch of a document.**  Take any document that uses a lexer for a C-like
    language, whatever has been done to it before, and any stretch of it with any first
    style.  As many styles are given as the stretch has characters in the text, and they
    stand there afterwards.  The styles behind the stretch stay, and so do those before the
    place that the lexer has gone back to, as do the text, its lines, the log with its saved
    state, and the switch that refuses edits.  If the lexer has gone back at all, it has
    gone over the beginning of one word only. -/
theorem lex_stretch (dl : Dialect) (text : Text) (commands : List Command) (start n : Nat)
    (initial : UInt8) (hlexer : ((ofText text).obey commands).lexer = some dl.lexer) :
    let d := (ofText text).obey commands
    let s := min start d.buffer.length
    let e := min (start + n) d.buffer.length
    let w := (dl.lex (.ofBuffer d.buffer start n) initial).window.start
    let d' := (d.lex start n initial).1
    let given := (d.lex start n initial).2
    w ≤ s ∧ given.size = e - s ∧ given = d'.buffer.styleRange s (e - s) ∧
    (∀ q, q < w ∨ e ≤ q → d'.buffer.styles.bind (·[q]?) = d.buffer.styles.bind (·[q]?)) ∧
    d'.buffer = { d.buffer with styles := d'.buffer.styles } ∧
    (w < s → BacksOver dl.settings d.buffer w s (.ofCode initial)) := by
  intro d s e w d' given
  have hsound : d.buffer.Sound := (tells_obey (Buffer.sound_empty.load text) commands).1
  have hkept : d.buffer.styles.isSome = true :=
    isSome_styles_obey (Buffer.sound_empty.load text) commands
  obtain ⟨styles, hs⟩ := Option.isSome_iff_exists.1 hkept
  have hfresh : (Window.ofBuffer d.buffer start n).Fresh :=
    Window.fresh_ofBuffer d.buffer start n
  have hstop : (Window.ofBuffer d.buffer start n).stop = e := by
    simp only [Window.ofBuffer, e]
    omega
  -- The window is styled from where it has been moved back to, up to its end.
  obtain ⟨r, hr⟩ : ∃ r, dl.lex (.ofBuffer d.buffer start n) initial = r := ⟨_, rfl⟩
  have hcomplete := dl.completes_lex initial hfresh.pending_eq hfresh.start_le
  rw [hr] at hcomplete
  have hw : w = r.window.start := congrArg (fun r => r.window.start) hr
  have hend : w + r.window.pending.size = e := by
    rw [hw, ← hstop, ← hcomplete.stop_eq]
    exact hcomplete.boundary_eq
  have hle : w ≤ s := hw ▸ hcomplete.start_le
  have hlex : d.lex start n initial = _ := lex_eq hlexer start n initial hr
  have hbuffer : d'.buffer = d.buffer.setStyles w r.window.pending := by
    rw [hw]
    exact congrArg (fun lexed => lexed.1.buffer) hlex
  have hgiven : given = Lexer.stylesFrom r.window s := congrArg Prod.snd hlex
  refine ⟨hle, ?_, ?_, ?_, ?_, ?_⟩
  · rw [hgiven, ← hstop]
    exact hcomplete.size_stylesFrom
  · have hfits : e ≤ styles.size := by
      rw [hsound.aligned styles hs]
      exact Nat.min_le_right _ _
    rw [hbuffer, Buffer.styleRange_setStyles hs hle hend hfits, hgiven, hw]
    rfl
  · intro q hq
    rw [hbuffer]
    exact d.buffer.getElem?_setStyles_of_outside (by omega)
  · obtain ⟨styles', heq⟩ := d.buffer.exists_setStyles_eq w r.window.pending
    rw [hbuffer, heq]
  · intro hback
    have hstart : w = (reopen dl.settings (.ofBuffer d.buffer start n) (.ofCode initial)).1.start :=
      dl.start_lex initial _
    rw [hstart] at hback ⊢
    exact backsOver_reopen hfresh hback

/-- A document in which a stretch that begins within a marked word is lexed. -/
def markedAssignment : List Command := [.setLexer oneWord.lexer, .lex 0 3 0]

/-- The lexer goes back to the mark of the word, and gives the styles of the stretch. -/
theorem lex_stretch_markedAssignment :
    let d := (ofText (.ofString "a=@int;")).obey markedAssignment
    let w := (oneWord.lex (.ofBuffer d.buffer 5 2) 11).window.start
    let given := (d.lex 5 2 11).2
    w = 2 ∧ given.size = 2 ∧ given = (d.lex 5 2 11).1.buffer.styleRange 5 2 ∧
      BacksOver oneWord.settings d.buffer w 5 .identifier := by
  intro d w given
  have hlength : ((ofText (.ofString "a=@int;")).obey markedAssignment).buffer.length = 7 := by
    decide +kernel
  have hw : w = 2 := by decide +kernel
  obtain ⟨-, hsize, hgiven, -, -, hback⟩ :=
    lex_stretch oneWord (.ofString "a=@int;") markedAssignment 5 2 11 rfl
  rw [hlength] at hsize hgiven hback
  exact ⟨hw, hsize, hgiven, hback (show w < 5 by omega)⟩

end Document

end StyledText
