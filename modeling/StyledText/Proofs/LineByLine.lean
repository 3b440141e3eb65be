/-
  Lexing line by line.

  The lines of a text can be styled one after the other.  Two things have to be
  excluded where one line stops and the next one starts: a backslash that joins
  them, and a slash that begins a regular expression in one scan only.

  * `Dialect.committed?_lex_eq_of_agree`: texts that are the same up to the start
    of a line have the same styles there;
  * `Dialect.lex_prefix`: the lines before the start of a line are styled the same
    without what follows;
  * `Dialect.reaching` and `Dialect.resuming`: the scan of the whole text when it
    comes to a place, and the scan that starts there;
  * `Dialect.lex_resumed`: the lines from the start of a line on are styled the
    same by a scan that starts there.
-/
import StyledText.Proofs.Resumption

namespace StyledText.CFamily

/-! ## Lexing a text from its start -/

namespace Dialect

variable (d : Dialect) {b b' : Buffer} {p n n' : Nat}

theorem lex_window (w : Window) (initial : UInt8) :
    (d.lex w initial).window = ((d.opening w initial).complete d).cursor.window := rfl

theorem opening_zero (w : Window) : d.opening w 0 = Scan.ofWindow w .plain :=
  opening_of_settled (show Style.plain.isSettled = true from rfl)

theorem start_lex_zero (text : Text) :
    (d.lex (.ofBuffer (.ofText text) 0 n) 0).window.start = 0 := by
  rw [start_lex, opening_zero]
  exact Window.start_ofBuffer (n := n) (Nat.zero_le _)

theorem lexText_eq_pending (text : Text) :
    d.lexer.lexText text 0 n 0 = (d.lex (.ofBuffer (.ofText text) 0 n) 0).window.pending := by
  simp only [Lexer.lexText, Lexer.stylesFrom, lexer, Window.start_ofBuffer (Nat.zero_le _),
    Nat.zero_sub, Array.extract_size]

/-- The styles of a text are those that the lexer commits. -/
theorem getElem?_lexText (text : Text) (q : Nat) :
    (d.lexer.lexText text 0 n 0)[q]? =
      (d.lex (.ofBuffer (.ofText text) 0 n) 0).window.committed? q := by
  rw [lexText_eq_pending, Window.committed?, start_lex_zero, if_pos (Nat.zero_le q), Nat.sub_zero]

/-- What the scan shows at the start of a line is what the lexer commits, if the line is not
    joined to the one before. -/
theorem committed?_lex (h : b.Consistent) (hp : b.text.isLineStart p = true)
    (hcont : ¬ b.text.JoinsInto p) (hstop : p ≤ (Window.ofBuffer b 0 n).stop) {q : Nat}
    (hlt : q < p) :
    (d.lex (.ofBuffer b 0 n) 0).window.committed? q =
      some (((d.opening (.ofBuffer b 0 n) 0).runTo d p).cursor.shown q) := by
  have harrived := arrived_runTo (d := d) h h hp hp (fun _ _ => rfl) hcont hstop hstop
  have hreach := Scan.reaches_runTo d p (.ofWindow (.ofBuffer b 0 n) .plain)
  have hstart : ((Scan.ofWindow (.ofBuffer b 0 n) .plain).runTo d p).cursor.window.start ≤ q := by
    rw [hreach.start_eq]
    exact Nat.le_trans (Nat.le_of_eq (Window.start_ofBuffer (Nat.zero_le _))) (Nat.zero_le q)
  rw [lex_window, opening_zero, ← Scan.complete_runTo d p]
  exact harrived.landed.committed?_complete (Scan.Tidy.ofWindow _ _).runTo harrived.painted.covers
    (hreach.matches hreach (Window.matches_of_text_eq rfl rfl)) hstart hlt

/-- **Texts that are the same up to the start of a line have the same styles
    there**, if the line is not joined to the one before. -/
theorem committed?_lex_eq_of_agree (h : b.Consistent) (h' : b'.Consistent)
    (hp : b.text.isLineStart p = true) (hp' : b'.text.isLineStart p = true)
    (hagree : ∀ q < p, b'.charAt q = b.charAt q) (hcont : ¬ b.text.JoinsInto p)
    (hstop : p ≤ (Window.ofBuffer b 0 n).stop) (hstop' : p ≤ (Window.ofBuffer b' 0 n').stop)
    {q : Nat} (hlt : q < p) :
    (d.lex (.ofBuffer b' 0 n') 0).window.committed? q =
      (d.lex (.ofBuffer b 0 n) 0).window.committed? q := by
  have harrived := arrived_runTo (d := d) h h' hp hp' hagree hcont hstop hstop'
  have hcont' : ¬ b'.text.JoinsInto p := mt (Text.joinsInto_congr hagree).1 hcont
  have hpos := harrived.landed.pos_eq
  rw [d.committed?_lex h hp hcont hstop hlt, d.committed?_lex h' hp' hcont' hstop' hlt,
    opening_zero, opening_zero, harrived.painted.shown_eq q (Nat.zero_le q) (by omega)]

/-- The style with which a window that ends with a line is left is that of its
    last character. -/
theorem committed?_lex_last (h : b.Consistent) (hp : b.text.isLineStart p = true)
    (hcont : ¬ b.text.JoinsInto p) (hstop : (Window.ofBuffer b 0 n).stop = p) :
    (d.lex (.ofBuffer b 0 n) 0).window.committed? (p - 1) =
      some (d.lex (.ofBuffer b 0 n) 0).endStyle := by
  have hpos : 1 ≤ p := (Text.isLineStart_iff.1 hp).1
  have hle : p ≤ (Window.ofBuffer b 0 n).stop := Nat.le_of_eq hstop.symm
  have harrived := arrived_runTo (d := d) h h hp hp (fun _ _ => rfl) hcont hle hle
  have hreach := Scan.reaches_runTo d p (.ofWindow (.ofBuffer b 0 n) .plain)
  have outside : ¬ ((Scan.ofWindow (.ofBuffer b 0 n) .plain).runTo d p).cursor.pos <
      ((Scan.ofWindow (.ofBuffer b 0 n) .plain).runTo d p).cursor.window.stop := by
    rw [hreach.stop_eq, harrived.landed.pos_eq]
    exact Nat.not_lt.2 (Nat.le_of_eq hstop)
  have hend : (d.lex (.ofBuffer b 0 n) 0).endStyle =
      ((Scan.ofWindow (.ofBuffer b 0 n) .plain).runTo d p).cursor.state := by
    show ((d.opening (.ofBuffer b 0 n) 0).complete d).cursor.state = _
    rw [opening_zero, ← Scan.complete_runTo d p, Scan.complete, Scan.run_of_outside outside,
      Scan.closeWord_of_settled (Scan.Tidy.ofWindow _ _).runTo harrived.landed.settled]
    rfl
  rw [d.committed?_lex h hp hcont hle (by omega), hend, opening_zero, harrived.landed.shown_eq]

theorem consistent_ofText (text : Text) : (Buffer.ofText text).Consistent :=
  (Buffer.sound_empty.load text).toConsistent

theorem size_lexText (text : Text) (start n : Nat) (initial : UInt8) :
    (d.lexer.lexText text start n initial).size =
      min (start + n) text.length - min start text.length :=
  (d.lex_covers (.ofText text) start n initial).2.2.2.2.2.2.2 text

theorem stop_whole (text : Text) :
    (Window.ofBuffer (.ofText text) 0 text.length).stop = text.length := by
  have hle : 0 + text.length ≤ (Buffer.ofText text).length := Nat.le_of_eq (Nat.zero_add _)
  rw [Window.stop_ofBuffer hle, Nat.zero_add]

/-- **The styles of a line do not hang on the lines behind it.**  No line of
    `text` goes on behind a backslash, and a line starts at `p > 0`.  Then lexing
    the characters before `p` only gives the first `p` styles of the whole text,
    and it is left with the style of the last of them. -/
theorem lex_prefix (text : Text) (p : Nat) (hcont : text.Uncontinued)
    (hp : p ∈ (LineTable.ofText text).starts) (hpos : 0 < p) :
    d.lexer.lexText text 0 p 0 = (d.lexer.lexText text 0 text.length 0).extract 0 p ∧
      (d.lexer.lexText text 0 text.length 0)[p - 1]? =
        some (d.lex (.ofBuffer (.ofText text) 0 p) 0).endStyle := by
  obtain ⟨hlen, hstart⟩ : p ≤ text.length ∧ text.isLineStart p = true := by
    rcases LineTable.mem_ofText.1 hp with rfl | hp
    · exact absurd hpos (Nat.lt_irrefl 0)
    · exact hp
  have hb := consistent_ofText text
  have hfree := hcont.not_joinsInto p
  have hwhole : p ≤ (Window.ofBuffer (.ofText text) 0 text.length).stop :=
    (stop_whole text).symm ▸ hlen
  have hpart : (Window.ofBuffer (.ofText text) 0 p).stop = p := by
    rw [Window.stop_ofBuffer (by rw [Nat.zero_add]; exact hlen), Nat.zero_add]
  have hstyles : ∀ q < p, (d.lexer.lexText text 0 p 0)[q]? =
      (d.lexer.lexText text 0 text.length 0)[q]? := by
    intro q hq
    rw [getElem?_lexText, getElem?_lexText]
    exact d.committed?_lex_eq_of_agree hb hb hstart hstart (fun _ _ => rfl) hfree hwhole
      (Nat.le_of_eq hpart.symm) hq
  constructor
  · refine Array.ext_getElem? fun q => ?_
    rw [Array.getElem?_extract, size_lexText, Nat.zero_add]
    by_cases hq : q < p
    · rw [if_pos (by omega), Nat.zero_add, hstyles q hq]
    · rw [if_neg (by omega), Array.getElem?_eq_none (by rw [size_lexText]; omega)]
  · rw [← hstyles _ (by omega), getElem?_lexText]
    exact d.committed?_lex_last hb hstart hfree hpart

/-- Two lines, of which the second one goes on with the comment of the first. -/
def commentOverLines : Text := .ofString "a /*\n*/ b"

theorem lex_prefix_commentOverLines :
    commentOverLines.Uncontinued ∧ 5 ∈ (LineTable.ofText commentOverLines).starts ∧ 0 < 5 ∧
      standard.lexer.lexText commentOverLines 0 5 0 = #[11, 0, 1, 1, 1] ∧
      (standard.lex (.ofBuffer (.ofText commentOverLines) 0 5) 0).endStyle = 1 := by
  obtain ⟨hpart, hend⟩ :=
    standard.lex_prefix commentOverLines 5 (by decide) (by decide) (by decide)
  have hwhole : standard.lexer.lexText commentOverLines 0 commentOverLines.length 0 =
      #[11, 0, 1, 1, 1, 1, 1, 0, 11] := by decide +kernel
  rw [hwhole] at hpart hend
  exact ⟨by decide, by decide, by decide, hpart, (Option.some.inj hend).symm⟩

/-! ## Lexing a text from the start of a line -/

/-- The scan of the whole text at the moment when it comes to `p`. -/
def reaching (d : Dialect) (text : Text) (p : Nat) : Scan :=
  (d.opening (.ofBuffer (.ofText text) 0 text.length) 0).runTo d p

/-- The scan of `n` characters that starts at `p` in the style that the buffer has
    before `p`. -/
def resuming (d : Dialect) (b : Buffer) (p n : Nat) : Scan :=
  d.opening (.ofBuffer b p n) (if p = 0 then 0 else b.styleAt (p - 1))

theorem reaching_eq (text : Text) (p : Nat) : d.reaching text p =
    (Scan.ofWindow (.ofBuffer (.ofText text) 0 text.length) .plain).runTo d p := by
  rw [reaching, opening_zero]

/-- **The scan of the whole text comes to the start of every line** that is not joined to the
    one before. -/
theorem landed_reaching {text : Text} (hcont : ¬ text.JoinsInto p)
    (hp : p ∈ (LineTable.ofText text).starts) :
    Scan.Landed p (d.reaching text p) ∧ Scan.Covers (d.reaching text p).cursor := by
  have hb := consistent_ofText text
  rw [reaching_eq]
  rcases LineTable.mem_ofText.1 hp with rfl | ⟨hlen, hstart⟩
  · rw [Scan.runTo_of_le (Nat.zero_le _)]
    refine ⟨landed_ofWindow hb hp hcont rfl, Scan.covers_ofWindow rfl ?_ _⟩
    rw [Window.start_ofBuffer (Nat.zero_le _)]
    exact Nat.zero_le _
  · have hstop : p ≤ (Window.ofBuffer (.ofText text) 0 text.length).stop :=
      (stop_whole text).symm ▸ hlen
    have harrived := arrived_runTo (d := d) hb hb hstart hstart (fun _ _ => rfl) hcont
      hstop hstop
    exact ⟨harrived.landed, harrived.painted.covers⟩

theorem tidy_reaching (text : Text) (p : Nat) : (d.reaching text p).Tidy := by
  rw [reaching_eq]
  exact (Scan.Tidy.ofWindow _ _).runTo

/-- The styles of the whole text before the start of a line are those that the
    scan shows when it comes there. -/
theorem getElem?_lexText_of_lt {text : Text} (hcont : ¬ text.JoinsInto p)
    (hp : p ∈ (LineTable.ofText text).starts) {q : Nat} (hlt : q < p) :
    (d.lexer.lexText text 0 text.length 0)[q]? = some ((d.reaching text p).cursor.shown q) := by
  rcases LineTable.mem_ofText.1 hp with rfl | ⟨hlen, hstart⟩
  · exact absurd hlt (Nat.not_lt_zero q)
  · rw [getElem?_lexText]
    exact d.committed?_lex (consistent_ofText text) hstart hcont
      ((stop_whole text).symm ▸ hlen) hlt

section Resumed

variable {d}

/-- **A scan that starts at the start of a line is poised there beside the scan of
    the whole text**, if it finds the styles of the whole text before it and takes
    a slash alike. -/
theorem poised_resuming (hb : b.Consistent) (hcont : ¬ b.text.JoinsInto p)
    (hp : p ∈ (LineTable.ofText b.text).starts)
    (hstyles : ∀ q < p, (d.lexer.lexText b.text 0 b.length 0)[q]? = some (b.styleAt q))
    (hpermits : permitsRegex (d.resuming b p n).memory.lastVisible =
      permitsRegex (d.reaching b.text p).memory.lastVisible) :
    d.resuming b p n = .ofWindow (.ofBuffer b p n) (d.reaching b.text p).style ∧
      Scan.Poised p p (d.reaching b.text p) (d.resuming b p n) := by
  obtain ⟨hlanded, hcovers⟩ := d.landed_reaching hcont hp
  have hcode : (if p = 0 then 0 else b.styleAt (p - 1)) = (d.reaching b.text p).style.code := by
    split
    · rename_i hzero
      subst hzero
      rw [reaching_eq, Scan.runTo_of_le (Nat.zero_le _)]
      rfl
    · have hlast := hstyles (p - 1) (by omega)
      have hshown := d.getElem?_lexText_of_lt hcont hp (q := p - 1) (by omega)
      rw [hlanded.shown_eq] at hshown
      rw [← Option.some.inj (hlast.symm.trans hshown).symm]
      exact hcovers.code_ofCode.symm
  have hopen : d.resuming b p n = .ofWindow (.ofBuffer b p n) (d.reaching b.text p).style := by
    rw [resuming, hcode, opening_of_settled hlanded.settled]
  rw [hopen] at hpermits ⊢
  exact ⟨rfl, hlanded.poised_ofWindow (d.tidy_reaching _ _) hcovers hb hp hcont hpermits⟩

theorem reaches_reaching (text : Text) (p : Nat) :
    Scan.Reaches (Cursor.ofWindow (.ofBuffer (.ofText text) 0 text.length) Style.plain.code)
      (d.reaching text p).cursor := by
  rw [reaching_eq]
  exact Scan.reaches_runTo d p (.ofWindow _ .plain)

/-- The window of the scan stays where it is, and gets a style for each of its
    characters. -/
theorem window_resuming (hb : b.Consistent) (hcont : ¬ b.text.JoinsInto p)
    (hp : p ∈ (LineTable.ofText b.text).starts) (hn : p + n ≤ b.length)
    (hstyles : ∀ q < p, (d.lexer.lexText b.text 0 b.length 0)[q]? = some (b.styleAt q))
    (hpermits : permitsRegex (d.resuming b p n).memory.lastVisible =
      permitsRegex (d.reaching b.text p).memory.lastVisible) :
    ((d.resuming b p n).complete d).cursor.window.start = p ∧
      ((d.resuming b p n).complete d).cursor.window.pending.size = n := by
  have hstart : ((d.resuming b p n).complete d).cursor.window.start = p := by
    rw [Scan.start_complete, (poised_resuming hb hcont hp hstyles hpermits).1]
    exact Window.start_ofBuffer (le_length_of_mem_starts hp)
  obtain ⟨-, hstop, -, -, hsize, -⟩ :=
    d.lex_covers b p n (if p = 0 then 0 else b.styleAt (p - 1))
  have hsize : ((d.resuming b p n).complete d).cursor.window.pending.size =
      ((d.resuming b p n).complete d).cursor.window.stop -
        ((d.resuming b p n).complete d).cursor.window.start := hsize
  have hstop : ((d.resuming b p n).complete d).cursor.window.stop = p + n :=
    hstop.trans (Window.stop_ofBuffer hn)
  refine ⟨hstart, ?_⟩
  rw [hsize, hstop, hstart, Nat.add_sub_cancel_left]

/-- **A scan that starts at the start of a line and goes on to the end of the text
    has the outcome of the scan of the whole text from there on.** -/
theorem sameOutcome_resuming (hb : b.Consistent) (hcont : ¬ b.text.JoinsInto p)
    (hp : p ∈ (LineTable.ofText b.text).starts) (hn : p + n = b.length)
    (hstyles : ∀ q < p, (d.lexer.lexText b.text 0 b.length 0)[q]? = some (b.styleAt q))
    (hpermits : permitsRegex (d.resuming b p n).memory.lastVisible =
      permitsRegex (d.reaching b.text p).memory.lastVisible) :
    Scan.SameOutcome p ((d.reaching b.text p).complete d) ((d.resuming b p n).complete d) := by
  obtain ⟨hopen, hpoised⟩ := poised_resuming hb hcont hp hstyles hpermits
  rw [hopen] at hpoised ⊢
  have hstop : (Window.ofBuffer b p n).stop =
      (Window.ofBuffer (.ofText b.text) 0 b.text.length).stop := by
    rw [Window.stop_ofBuffer (Nat.le_of_eq hn), stop_whole, hn]
    rfl
  have hsame : (Window.ofBuffer (.ofText b.text) 0 b.text.length).Matches none (.ofBuffer b p n) :=
    Window.matches_of_text_eq rfl hstop
  exact hpoised.sameOutcome ((reaches_reaching b.text p).matches .refl hsame)
    (d.tidy_reaching _ _) (.ofWindow _ _)

/-- A scan that starts at the start of a line and stops early has styled the lines
    on its way as the scan of the whole text does. -/
theorem committed?_resuming (hb : b.Consistent) (hcont : ¬ b.text.JoinsInto p)
    (hp : p ∈ (LineTable.ofText b.text).starts)
    (hstyles : ∀ q < p, (d.lexer.lexText b.text 0 b.length 0)[q]? = some (b.styleAt q))
    (hpermits : permitsRegex (d.resuming b p n).memory.lastVisible =
      permitsRegex (d.reaching b.text p).memory.lastVisible)
    {x q : Nat} (hx : b.text.isLineStart x = true) (hfree : ¬ b.text.JoinsInto x)
    (hstop : x ≤ (Window.ofBuffer b p n).stop) (hpq : p ≤ q) (hlt : q < x) :
    ((d.resuming b p n).complete d).cursor.window.committed? q =
      (d.lexer.lexText b.text 0 b.length 0)[q]? := by
  obtain ⟨hopen, hpoised⟩ := poised_resuming hb hcont hp hstyles hpermits
  have hlen : x ≤ b.text.length := Nat.le_trans hstop Window.stop_ofBuffer_le
  have hwhole : x ≤ (Window.ofBuffer (.ofText b.text) 0 b.text.length).stop :=
    (stop_whole b.text).symm ▸ hlen
  have hreach := reaches_reaching (d := d) b.text p
  -- The two scans come to `x` together, and what they show then stays.
  have hmatch : (Window.ofBuffer (.ofText b.text) 0 b.text.length).Matches (some x)
      (d.resuming b p n).cursor.window := by
    rw [hopen]
    exact Window.matches_of_agree (b := .ofText b.text) hx hx (fun _ _ => rfl) hfree hwhole hstop
  have hbefore : Before (some x) p := by
    rintro _ ⟨⟩
    exact Nat.lt_of_le_of_lt hpq hlt
  have harrived := (hpoised.alike (hreach.matches .refl hmatch) hbefore).runTo (d := d)
    (d.tidy_reaching _ _)
  have hpos := harrived.landed.pos_eq
  have hback : Scan.Reaches (d.resuming b p n).cursor ((d.resuming b p n).runTo d x).cursor :=
    Scan.reaches_runTo d x _
  have hself : (d.resuming b p n).cursor.window.Matches none (d.resuming b p n).cursor.window := by
    rw [hopen]
    exact Window.matches_of_text_eq rfl rfl
  have hfirst : ((d.resuming b p n).runTo d x).cursor.window.start ≤ q := by
    rw [hback.start_eq, hopen]
    exact Nat.le_trans (Nat.min_le_left _ _) hpq
  have hm : (d.resuming b p n).Tidy := by
    rw [hopen]
    exact .ofWindow _ _
  have hreached : (d.reaching b.text p).runTo d x = d.reaching b.text x :=
    Scan.runTo_runTo (Nat.le_of_lt (Nat.lt_of_le_of_lt hpq hlt)) _
  rw [← Scan.complete_runTo d x, harrived.landed'.committed?_complete hm.runTo
    harrived.painted.covers' (hback.matches hback hself) hfirst hlt, harrived.painted.shown_eq q hpq
    (by omega), hreached]
  exact (d.getElem?_lexText_of_lt hfree (LineTable.mem_ofText.2 (Or.inr ⟨hlen, hx⟩)) hlt).symm

/-- **The lines from the start of a line on are styled the same by a scan that
    starts there.**  No line of the text goes on behind a backslash, a line starts
    at `p > 0`, and the buffer has the styles of the whole text before `p`.  The
    scan of the whole text comes to `p` exactly.  If a slash begins a regular
    expression for it there whenever it does for the scan that starts at `p` in
    the style of the character before, then that scan gives the styles of the
    whole text from `p` on, ends in the same style, and meets the include paths of
    the whole text that begin at `p` or later. -/
theorem lex_resumed (hb : b.Consistent) (hcont : b.text.Uncontinued)
    (hp : p ∈ (LineTable.ofText b.text).starts) (hpos : 0 < p)
    (hstyles : ∀ q < p, (d.lexer.lexText b.text 0 b.length 0)[q]? = some (b.styleAt q))
    (hpermits : permitsRegex (d.resuming b p (b.length - p)).memory.lastVisible =
      permitsRegex (d.reaching b.text p).memory.lastVisible) :
    let whole := d.lex (.ofBuffer (.ofText b.text) 0 b.length) 0
    let rest := d.lex (.ofBuffer b p (b.length - p)) (b.styleAt (p - 1))
    (d.reaching b.text p).cursor.pos = p ∧
      rest.window.start = p ∧
      rest.window.pending = (d.lexer.lexText b.text 0 b.length 0).extract p b.length ∧
      rest.endStyle = whole.endStyle ∧
      rest.includes = whole.includes.filter (p ≤ ·.start) := by
  intro whole rest
  have hlen : p ≤ b.length := le_length_of_mem_starts hp
  have hfree := hcont.not_joinsInto p
  -- The scan of the whole text goes through `p`.
  have hwhole : (d.reaching b.text p).complete d =
      (d.opening (.ofBuffer (.ofText b.text) 0 b.length) 0).complete d :=
    Scan.complete_runTo d p _
  have hrest : (d.resuming b p (b.length - p)).complete d =
      (d.opening (.ofBuffer b p (b.length - p)) (b.styleAt (p - 1))).complete d := by
    rw [resuming, if_neg (by omega)]
  obtain ⟨hopen, hpoised⟩ := poised_resuming hb hfree hp hstyles hpermits
  obtain ⟨hstart, hsize⟩ := window_resuming hb hfree hp (Nat.le_of_eq (Nat.add_sub_of_le hlen))
    hstyles hpermits
  have hsame := sameOutcome_resuming hb hfree hp (Nat.add_sub_of_le hlen) hstyles hpermits
  rw [hwhole, hrest] at hsame
  rw [hrest] at hstart hsize
  refine ⟨hpoised.landed.pos_eq, hstart, ?_, hsame.state_eq, ?_⟩
  · refine Array.ext_getElem? fun q => ?_
    have hlength : b.text.length = b.length := rfl
    rw [Array.getElem?_extract, size_lexText]
    by_cases hq : p + q < b.length
    · have hcommitted : rest.window.committed? (p + q) = whole.window.committed? (p + q) := by
        refine hsame.committed?_eq _ (Nat.le_add_right p q) ?_
        rw [← hwhole, Scan.stop_complete, (reaches_reaching b.text p).stop_eq]
        exact (stop_whole b.text).symm ▸ hq
      have hfirst : rest.window.start = p := hstart
      rw [Window.committed?, hfirst, if_pos (Nat.le_add_right p q), Nat.add_sub_cancel_left]
        at hcommitted
      rw [if_pos (by omega), hcommitted, getElem?_lexText]
    · rw [if_neg (by omega), Array.getElem?_eq_none]
      exact Nat.le_trans (Nat.le_of_eq hsize) (by omega)
  · -- Every path that the resumed scan meets begins in its window.
    have hincludes : rest.includes.filter (p ≤ ·.start) = whole.includes.filter (p ≤ ·.start) :=
      hsame.includes_eq
    rw [← hincludes, eq_comm, List.filter_eq_self]
    intro span hspan
    have hm : ((d.resuming b p (b.length - p)).complete d).Tidy := by
      rw [hopen]
      exact (Scan.Tidy.ofWindow _ _).complete
    rw [hrest] at hm
    exact decide_eq_true (hstart ▸ (hm.includes span hspan).1)

/-- A pattern and a directive stand behind a line that ends within a comment.  Only
    the first line is styled. -/
def firstLineStyled : Buffer :=
  .run .empty [.load (.ofString "a = /*\n*/ /x/\n#include <b>"),
    .setStyles 0 #[11, 0, 10, 0, 1, 1, 1]]

theorem lex_resumed_firstLineStyled :
    let rest := standard.lex (.ofBuffer firstLineStyled 7 19) 1
    firstLineStyled.text.Uncontinued ∧ 7 ∈ (LineTable.ofText firstLineStyled.text).starts ∧
      rest.window.pending = #[1, 1, 0, 14, 14, 14, 0, 9, 9, 9, 9, 9, 9, 9, 9, 9, 6, 6, 6] ∧
      rest.endStyle = 9 ∧ rest.includes = [⟨23, 26⟩] := by
  have hwhole : (standard.lex (.ofBuffer (.ofText firstLineStyled.text) 0 26) 0).endStyle = 9 ∧
      (standard.lex (.ofBuffer (.ofText firstLineStyled.text) 0 26) 0).includes = [⟨23, 26⟩] := by
    decide +kernel
  have hstyles : standard.lexer.lexText firstLineStyled.text 0 firstLineStyled.length 0 =
      #[11, 0, 10, 0, 1, 1, 1, 1, 1, 0, 14, 14, 14, 0, 9, 9, 9, 9, 9, 9, 9, 9, 9, 6, 6, 6] := by
    decide +kernel
  have hcont : firstLineStyled.text.Uncontinued := by decide
  have hline : 7 ∈ (LineTable.ofText firstLineStyled.text).starts := by decide
  obtain ⟨-, -, hrest, hend, hincludes⟩ := lex_resumed (d := standard) (b := firstLineStyled)
    (p := 7) (Buffer.sound_empty.run _).toConsistent hcont hline (by decide)
    (by rw [hstyles]; decide) (by decide +kernel)
  rw [hstyles] at hrest
  refine ⟨hcont, hline, hrest, hend.trans hwhole.1, hincludes.trans ?_⟩
  exact congrArg (List.filter (7 ≤ ·.start)) hwhole.2

end Resumed

end Dialect

end StyledText.CFamily
