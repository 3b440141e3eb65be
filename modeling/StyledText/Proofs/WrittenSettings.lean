/-
  What a text of settings says.

  Each line is taken by itself: it says nothing, gives a property a value, or is
  faulty.  So the last line that names a property decides about it, and the first
  faulty line about the whole.

  * `Trims`, `Counts` and `Sets`: the parts of a line, by where they stand in it;
  * `Gives` and `Faulty`: what a line comes to, and `line_cases`: there is nothing
    else;
  * `run_assign_of_spells` and `run_assign_of_refused`: one property, in place;
  * `exists_parseLines` and `parseLines_of_firstFault`: some lines;
  * `Settings.parse_outcome`: a text.
-/
import StyledText.CFamily.Settings
import StyledText.Proofs.ListEnds

namespace StyledText

/-! ## White space at the ends -/

namespace Unicode

/-- `core` is `cs` without the white space at its ends. -/
structure Trims (cs core : List Char) : Prop where
  within : ∃ front back, cs = front ++ (core ++ back) ∧
    (∀ c ∈ front, isWhiteSpace c = true) ∧ ∀ c ∈ back, isWhiteSpace c = true
  head : ∀ c ∈ core.head?, isWhiteSpace c = false
  last : ∀ c ∈ core.getLast?, isWhiteSpace c = false

/-- **Trimming takes off the white space at the ends**, and nothing else. -/
theorem trims_iff {cs core : List Char} : Trims cs core ↔ trim cs = core := by
  constructor
  · rintro ⟨⟨front, back, rfl, hfront, hback⟩, hhead, hlast⟩
    cases core with
    | nil =>
      have hall : ∀ c ∈ front ++ ([] ++ back), isWhiteSpace c = true := by
        intro c hc
        rcases List.mem_append.1 hc with hc | hc
        · exact hfront c hc
        · exact hback c hc
      rw [trim, List.dropWhile_eq_nil_iff.2 hall]
      rfl
    | cons c core =>
      have hleft := takeWhile_dropWhile_iff.2
        ⟨(rfl : front ++ (c :: core ++ back) = _), hfront, hhead⟩
      have hright := takeWhile_dropWhile_iff.2
        ⟨List.reverse_append, fun c hc => hback c (List.mem_reverse.1 hc),
          fun d hd => hlast d (by rwa [← List.head?_reverse])⟩
      rw [trim, hleft.2, hright.2, List.reverse_reverse]
  · rintro rfl
    obtain ⟨hleft, hfront, hhead⟩ :=
      takeWhile_dropWhile_iff (p := isWhiteSpace) (l := cs).1 ⟨rfl, rfl⟩
    obtain ⟨hright, hback, hlast⟩ := takeWhile_dropWhile_iff (p := isWhiteSpace)
      (l := (cs.dropWhile isWhiteSpace).reverse).1 ⟨rfl, rfl⟩
    have hrest : cs.dropWhile isWhiteSpace = trim cs ++
        ((cs.dropWhile isWhiteSpace).reverse.takeWhile isWhiteSpace).reverse := by
      rw [trim, ← List.reverse_append, ← hright, List.reverse_reverse]
    refine ⟨⟨_, _, hrest ▸ hleft, hfront, fun c hc => hback c (List.mem_reverse.1 hc)⟩, ?_, ?_⟩
    · -- What is left begins as it did before white space was taken off its end.
      intro c hc
      refine hhead c ?_
      rw [hrest, List.head?_append, Option.mem_def.1 hc]
      rfl
    · intro c hc
      rw [trim, List.getLast?_reverse] at hc
      exact hlast c hc

end Unicode

namespace CFamily

open Unicode

/-! ## The parts of a line -/

/-- The line counts: without the white space around it, it is not empty and does not
    begin with `#`. -/
def Counts (line : List Char) : Prop :=
  ∃ core, Trims line core ∧ core ≠ [] ∧ core.head? ≠ some '#'

/-- **The line sets a key to a value**: they stand before and behind the first `=`, with
    white space around them that does not count. -/
def Sets (line : List Char) (key value : String) : Prop :=
  Counts line ∧ ∃ before after, Trims line (before ++ '=' :: after) ∧ '=' ∉ before ∧
    Trims before key.toList ∧ Trims after value.toList

/-- The words for a switch that is on, and for one that is off. -/
inductive Spells : String → Bool → Prop where
  | one : Spells "1" true
  | yes : Spells "true" true
  | zero : Spells "0" false
  | no : Spells "false" false

/-- The line names a property. -/
def Names (property : Property) (line : List Char) : Prop := ∃ value, Sets line property.key value

/-- The line gives a property a value. -/
def Gives (line : List Char) (property : Property) (on : Bool) : Prop :=
  ∃ value, Sets line property.key value ∧ Spells value on

/-- **Why a key cannot have a value**: no property has the key, or else the value is
    not one of the four words. -/
inductive Refused (key value : String) : ConfigError → Prop where
  | unknown (h : ∀ property : Property, property.key ≠ key) :
      Refused key value (.unknownProperty key)
  | invalid {property : Property} (h : property.key = key) (hvalue : ∀ on, ¬ Spells value on) :
      Refused key value (.invalidValue key value)

/-- **What is wrong with a line**: it counts and has no `=`, or it sets a key to
    a value that the key cannot have. -/
inductive Faulty (line : List Char) : ConfigError → Prop where
  | malformed {core : List Char} (counts : Counts line) (trims : Trims line core) (h : '=' ∉ core) :
      Faulty line (.malformedLine (String.ofList core))
  | refused {key value : String} {fault : ConfigError} (h : Sets line key value)
      (hfault : Refused key value fault) : Faulty line fault

variable {line : List Char} {key value word : String} {property : Property} {on : Bool}
  {fault : ConfigError} {s : Settings}

namespace Property

theorem ofKey?_eq_some_iff : ofKey? key = some property ↔ property.key = key := by
  constructor
  · intro h
    simpa using List.find?_some h
  · rintro rfl
    cases property <;> rfl

theorem ofKey?_eq_none_iff : ofKey? key = none ↔ ∀ property : Property, property.key ≠ key := by
  rw [Option.eq_none_iff_forall_ne_some]
  exact forall_congr' fun property => not_congr ofKey?_eq_some_iff

theorem key_inj {p q : Property} : p.key = q.key ↔ p = q := by
  constructor
  · intro h
    have hp := ofKey?_eq_some_iff.2 h
    rw [ofKey?_eq_some_iff.2 rfl] at hp
    exact (Option.some.inj hp).symm
  · rintro rfl
    rfl

end Property

namespace Settings

theorem flag?_eq_some_iff : flag? word = some on ↔ Spells word on := by
  constructor
  · unfold flag?
    split_ifs with h1 h2
    · rintro ⟨⟩
      rcases h1 with rfl | rfl
      · exact .one
      · exact .yes
    · rintro ⟨⟩
      rcases h2 with rfl | rfl
      · exact .zero
      · exact .no
    · exact fun h => nomatch h
  · intro h
    cases h <;> rfl

theorem flag?_eq_none_iff : flag? word = none ↔ ∀ on, ¬ Spells word on := by
  rw [Option.eq_none_iff_forall_ne_some]
  exact forall_congr' fun on => not_congr flag?_eq_some_iff

/-! ## One property -/

/-- A word for a switch gives the property its value. -/
theorem run_assign_of_spells (hkey : property.key = key) (hvalue : Spells value on) :
    (assign key value).run.run s = (.ok (), s.set on property) := by
  rw [assign, Property.ofKey?_eq_some_iff.2 hkey, flag?_eq_some_iff.2 hvalue]
  rfl

/-- **What is refused changes nothing.** -/
theorem run_assign_of_refused (h : Refused key value fault) :
    (assign key value).run.run s = (.error fault, s) := by
  cases h with
  | unknown h =>
    rw [assign, Property.ofKey?_eq_none_iff.2 h]
    rfl
  | invalid h hvalue =>
    rw [assign, Property.ofKey?_eq_some_iff.2 h, flag?_eq_none_iff.2 hvalue]
    rfl

theorem refused_or (key value : String) :
    (∃ property on, Property.key property = key ∧ Spells value on) ∨
      ∃ fault, Refused key value fault := by
  cases hkey : Property.ofKey? key with
  | none => exact Or.inr ⟨_, .unknown (Property.ofKey?_eq_none_iff.1 hkey)⟩
  | some property =>
    have hkey := Property.ofKey?_eq_some_iff.1 hkey
    cases hvalue : flag? value with
    | none => exact Or.inr ⟨_, .invalid hkey (flag?_eq_none_iff.1 hvalue)⟩
    | some on => exact Or.inl ⟨property, on, hkey, flag?_eq_some_iff.1 hvalue⟩

theorem run_assign_eq_error_iff {s' : Settings} :
    (assign key value).run.run s = (.error fault, s') ↔ Refused key value fault ∧ s' = s := by
  constructor
  · intro h
    rcases refused_or key value with ⟨property, on, hkey, hvalue⟩ | ⟨fault', hfault⟩
    · rw [run_assign_of_spells hkey hvalue] at h
      exact nomatch h
    · rw [run_assign_of_refused hfault] at h
      cases h
      exact ⟨hfault, rfl⟩
  · rintro ⟨h, rfl⟩
    exact run_assign_of_refused h

theorem run_assign_eq_ok_iff {s' : Settings} :
    (assign key value).run.run s = (.ok (), s') ↔
      ∃ property on, property.key = key ∧ Spells value on ∧ s' = s.set on property := by
  constructor
  · intro h
    rcases refused_or key value with ⟨property, on, hkey, hvalue⟩ | ⟨fault, hfault⟩
    · rw [run_assign_of_spells hkey hvalue] at h
      cases h
      exact ⟨property, on, hkey, hvalue, rfl⟩
    · rw [run_assign_of_refused hfault] at h
      exact nomatch h
  · rintro ⟨property, on, hkey, hvalue, rfl⟩
    exact run_assign_of_spells hkey hvalue

theorem setProperty_of_spells (hkey : property.key = key) (hvalue : Spells value on) :
    s.setProperty key value = .ok (s.set on property) := by
  rw [setProperty, run_assign_of_spells hkey hvalue]

theorem setProperty_of_refused (h : Refused key value fault) :
    s.setProperty key value = .error fault := by
  rw [setProperty, run_assign_of_refused h]

end Settings

/-! ## One line -/

theorem counts_iff : Counts line ↔ Settings.isRemark (trim line) = false := by
  simp [Counts, trims_iff, Settings.isRemark]

/-- The parts of a line stand before and behind its first `=`. -/
theorem sets_iff :
    Sets line key value ↔ Counts line ∧ ∃ after,
      (trim line).dropWhile (· != '=') = '=' :: after ∧
      trim ((trim line).takeWhile (· != '=')) = key.toList ∧ trim after = value.toList := by
  simp only [Sets, trims_iff]
  refine and_congr_right fun _ => ⟨?_, ?_⟩
  · rintro ⟨before, after, hline, hfirst, hkey, hvalue⟩
    have hbefore : ∀ c ∈ before, (c != '=') = true := by
      intro c hc
      rw [bne_iff_ne]
      rintro rfl
      exact hfirst hc
    obtain ⟨htake, hdrop⟩ := takeWhile_dropWhile_iff.2 ⟨hline, hbefore, by simp⟩
    exact ⟨after, hdrop, htake ▸ hkey, hvalue⟩
  · rintro ⟨after, hdrop, hkey, hvalue⟩
    obtain ⟨hline, hbefore, -⟩ := takeWhile_dropWhile_iff.1 ⟨rfl, hdrop⟩
    exact ⟨_, after, hline, fun hmem => absurd (hbefore _ hmem) (by decide), hkey, hvalue⟩

/-- A line sets one key to one value. -/
theorem Sets.unique {key' value' : String} (h : Sets line key value) (h' : Sets line key' value') :
    key = key' ∧ value = value' := by
  obtain ⟨-, after, hdrop, hkey, hvalue⟩ := sets_iff.1 h
  obtain ⟨-, after', hdrop', hkey', hvalue'⟩ := sets_iff.1 h'
  rw [hdrop] at hdrop'
  cases hdrop'
  exact ⟨String.toList_inj.1 (hkey.symm.trans hkey'),
    String.toList_inj.1 (hvalue.symm.trans hvalue')⟩

/-- A line that counts and has an `=` sets some key. -/
theorem exists_sets (hc : Counts line) (h : '=' ∈ trim line) :
    ∃ key value, Sets line key value := by
  cases hdrop : (trim line).dropWhile (· != '=') with
  | nil =>
    have hne := List.dropWhile_eq_nil_iff.1 hdrop '=' h
    exact absurd hne (by decide)
  | cons c after =>
    obtain rfl : c = '=' := by
      obtain ⟨-, -, hhead⟩ := takeWhile_dropWhile_iff.1 ⟨rfl, hdrop⟩
      simpa using hhead c rfl
    exact ⟨String.ofList _, String.ofList (trim after), sets_iff.2
      ⟨hc, after, hdrop, String.toList_ofList.symm, String.toList_ofList.symm⟩⟩

namespace Settings

theorem readLine_of_not_counts (h : ¬ Counts line) : s.readLine (trim line) = .ok s := by
  rw [readLine, if_pos]
  simpa [counts_iff] using h

theorem readLine_of_sets (h : Sets line key value) :
    s.readLine (trim line) = s.setProperty key value := by
  obtain ⟨hc, after, hdrop, hkey, hvalue⟩ := sets_iff.1 h
  rw [readLine, if_neg (by rw [counts_iff.1 hc]; exact Bool.false_ne_true), hdrop]
  simp only [hkey, hvalue, String.ofList_toList]

/-- A line that gives a property a value changes this one. -/
theorem readLine_of_gives (h : Gives line property on) :
    s.readLine (trim line) = .ok (s.set on property) := by
  obtain ⟨value, hsets, hvalue⟩ := h
  rw [readLine_of_sets hsets, setProperty_of_spells rfl hvalue]

/-- A faulty line is refused, whatever stands before it. -/
theorem readLine_of_faulty (h : Faulty line fault) : s.readLine (trim line) = .error fault := by
  cases h with
  | malformed hc htrims hno =>
    rw [← trims_iff.1 htrims] at hno ⊢
    have hdrop : (trim line).dropWhile (· != '=') = [] := by
      rw [List.dropWhile_eq_nil_iff]
      intro c hc
      rw [bne_iff_ne]
      rintro rfl
      exact hno hc
    rw [readLine, if_neg (by rw [counts_iff.1 hc]; exact Bool.false_ne_true), hdrop]
  | refused h hfault => rw [readLine_of_sets h, setProperty_of_refused hfault]

end Settings

/-- **A line says nothing, gives a property a value, or is faulty.** -/
theorem line_cases (line : List Char) :
    ¬ Counts line ∨ (∃ property on, Gives line property on) ∨ ∃ fault, Faulty line fault := by
  by_cases hc : Counts line
  · refine Or.inr ?_
    by_cases heq : '=' ∈ trim line
    · obtain ⟨key, value, hsets⟩ := exists_sets hc heq
      rcases Settings.refused_or key value with ⟨property, on, rfl, hvalue⟩ | ⟨fault, hfault⟩
      · exact Or.inl ⟨property, on, value, hsets, hvalue⟩
      · exact Or.inr ⟨fault, .refused hsets hfault⟩
    · exact Or.inr ⟨_, .malformed hc (trims_iff.2 rfl) heq⟩
  · exact Or.inl hc

/-! ## Some lines -/

/-- The line says nothing, or it gives a property a value. -/
def Fine (line : List Char) : Prop := Counts line → ∃ property on, Gives line property on

/-- **The first faulty line of `ls` has this fault.** -/
def FirstFault (ls : List (List Char)) (fault : ConfigError) : Prop :=
  ∃ before line after, ls = before ++ line :: after ∧ (∀ l ∈ before, Fine l) ∧ Faulty line fault

/-- **The value of a property after the lines**: the one that the last line naming it
    gives it, and the usual one if no line does. -/
def Holds (ls : List (List Char)) (property : Property) (on : Bool) : Prop :=
  (∃ line, IsLast (Names property) ls line ∧ Gives line property on) ∨
    (∀ line ∈ ls, ¬ Names property line) ∧ on = Settings.get {} property

theorem fine_or_faulty (line : List Char) : Fine line ∨ ∃ fault, Faulty line fault := by
  rcases line_cases line with h | h | h
  · exact Or.inl fun hc => absurd hc h
  · exact Or.inl fun _ => h
  · exact Or.inr h

theorem fine_or_firstFault (ls : List (List Char)) :
    (∀ line ∈ ls, Fine line) ∨ ∃ fault, FirstFault ls fault := by
  induction ls using List.reverseRecOn with
  | nil => exact Or.inl fun line h => absurd h List.not_mem_nil
  | append_singleton ls line ih =>
    rcases ih with hall | ⟨fault, before, first, after, rfl, hbefore, hfirst⟩
    · rcases fine_or_faulty line with hfine | ⟨fault, hfault⟩
      · refine Or.inl fun l hl => ?_
        rcases List.mem_append.1 hl with hl | hl
        · exact hall l hl
        · rw [List.mem_singleton.1 hl]
          exact hfine
      · exact Or.inr ⟨fault, ls, line, [], rfl, hall, hfault⟩
    · exact Or.inr ⟨fault, before, first, after ++ [line], by simp, hbefore, hfirst⟩

/-- A line that does not name a property leaves its value. -/
theorem Holds.concat_of_not {ls : List (List Char)} (h : Holds ls property on)
    (hnot : ¬ Names property line) : Holds (ls ++ [line]) property on := by
  rcases h with ⟨last, hlast, hgives⟩ | ⟨hnone, hon⟩
  · exact Or.inl ⟨last, isLast_concat.2 (Or.inr ⟨hnot, hlast⟩), hgives⟩
  · refine Or.inr ⟨fun l hl => ?_, hon⟩
    rcases List.mem_append.1 hl with hl | hl
    · exact hnone l hl
    · rw [List.mem_singleton.1 hl]
      exact hnot

/-- A line at the end that gives a property a value decides about it. -/
theorem Gives.holds (h : Gives line property on) (ls : List (List Char)) :
    Holds (ls ++ [line]) property on := by
  obtain ⟨value, hsets, hvalue⟩ := h
  exact Or.inl ⟨line, isLast_concat.2 (Or.inl ⟨⟨value, hsets⟩, rfl⟩), value, hsets, hvalue⟩

/-- A line that gives a property a value names no other. -/
theorem Gives.eq_of_names {other : Property} (h : Gives line property on) (hn : Names other line) :
    other = property := by
  obtain ⟨value, hsets, -⟩ := h
  obtain ⟨value', hsets'⟩ := hn
  exact Property.key_inj.1 (hsets'.unique hsets).1

namespace Settings

/-- Reads lines, one after the other. -/
def parseLines (ls : List (List Char)) : Except ConfigError Settings :=
  ls.foldlM (fun s line => s.readLine (trim line)) {}

/-- More lines are read from the settings that the ones before them have given. -/
theorem parseLines_append {ls rest : List (List Char)} (h : parseLines ls = .ok s) :
    parseLines (ls ++ rest) = rest.foldlM (fun s line => s.readLine (trim line)) s := by
  rw [parseLines, List.foldlM_append, ← parseLines, h]
  rfl

theorem parseLines_concat {ls : List (List Char)} (h : parseLines ls = .ok s) :
    parseLines (ls ++ [line]) = s.readLine (trim line) := by
  rw [parseLines_append h, List.foldlM_cons]
  simp only [List.foldlM_nil, bind_pure]

/-- **Lines without a fault are read**, and each property has the value that the last
    line naming it gives it. -/
theorem exists_parseLines {ls : List (List Char)} (hall : ∀ line ∈ ls, Fine line) :
    ∃ s, parseLines ls = .ok s ∧ ∀ property, Holds ls property (s.get property) := by
  induction ls using List.reverseRecOn with
  | nil => exact ⟨{}, rfl, fun property => Or.inr ⟨fun line h => absurd h List.not_mem_nil, rfl⟩⟩
  | append_singleton ls line ih =>
    obtain ⟨s, hs, hholds⟩ := ih fun l hl => hall l (List.mem_append_left _ hl)
    have hfine := hall line (List.mem_append_right _ (List.mem_singleton_self _))
    by_cases hc : Counts line
    · obtain ⟨property, on, hgives⟩ := hfine hc
      refine ⟨_, (parseLines_concat hs).trans (readLine_of_gives hgives), fun other => ?_⟩
      rw [get_set]
      split_ifs with hother
      · rw [hother]
        exact hgives.holds ls
      · exact (hholds other).concat_of_not fun hn => hother (hgives.eq_of_names hn)
    · refine ⟨s, (parseLines_concat hs).trans (readLine_of_not_counts hc), fun property => ?_⟩
      exact (hholds property).concat_of_not fun ⟨value, hsets⟩ => hc hsets.1

/-- **The first fault is the outcome**, whatever follows. -/
theorem parseLines_of_firstFault {ls : List (List Char)} (h : FirstFault ls fault) :
    parseLines ls = .error fault := by
  obtain ⟨before, line, after, rfl, hbefore, hfault⟩ := h
  obtain ⟨s, hs, -⟩ := exists_parseLines hbefore
  rw [parseLines_append hs, List.foldlM_cons, readLine_of_faulty hfault]
  rfl

/-- **Lines are read or have a first fault**, which is the outcome. -/
theorem parseLines_cases (ls : List (List Char)) :
    ((∀ line ∈ ls, Fine line) ∧
      ∃ s, parseLines ls = .ok s ∧ ∀ property, Holds ls property (s.get property)) ∨
    ∃ fault, FirstFault ls fault ∧ parseLines ls = .error fault := by
  rcases fine_or_firstFault ls with hall | ⟨fault, hfault⟩
  · exact Or.inl ⟨hall, exists_parseLines hall⟩
  · exact Or.inr ⟨fault, hfault, parseLines_of_firstFault hfault⟩

theorem parseLines_eq_ok_iff {ls : List (List Char)} :
    (∃ s, parseLines ls = .ok s) ↔ ∀ line ∈ ls, Fine line := by
  constructor
  · rintro ⟨s, hs⟩
    rcases parseLines_cases ls with ⟨hall, -⟩ | ⟨fault, -, hfault⟩
    · exact hall
    · exact nomatch hs.symm.trans hfault
  · intro hall
    obtain ⟨s, hs, -⟩ := exists_parseLines hall
    exact ⟨s, hs⟩

theorem holds_of_parseLines {ls : List (List Char)} (hs : parseLines ls = .ok s)
    (property : Property) : Holds ls property (s.get property) := by
  obtain ⟨s', hs', hholds⟩ := exists_parseLines (parseLines_eq_ok_iff.1 ⟨s, hs⟩)
  cases hs.symm.trans hs'
  exact hholds property

theorem parseLines_eq_error_iff {ls : List (List Char)} :
    parseLines ls = .error fault ↔ FirstFault ls fault := by
  constructor
  · intro h
    rcases parseLines_cases ls with ⟨-, s, hs, -⟩ | ⟨fault', hfirst, hfault⟩
    · exact nomatch h.symm.trans hs
    · cases h.symm.trans hfault
      exact hfirst
  · exact parseLines_of_firstFault

/-! ## A text -/

/-- The lines of a text are what stands between its line feeds. -/
theorem lines_eq_splitOn (text : List Char) : lines text = text.splitOn '\n' := by
  induction text with
  | nil => rfl
  | cons c text ih =>
    have hcons : (c :: text).splitOn '\n' =
        if c == '\n' then [] :: text.splitOn '\n'
        else (text.splitOn '\n').modifyHead (c :: ·) := List.splitOnP_cons_eq_if_modifyHead ..
    rw [lines, ih, hcons]
    by_cases hc : c = '\n'
    · rw [if_pos hc, if_pos (by simpa using hc)]
    · rw [if_neg hc, if_neg (by simpa using hc)]
      cases hsplit : text.splitOn '\n' with
      | nil => exact absurd hsplit (List.splitOnP_ne_nil _ _)
      | cons line rest => rfl

theorem parse_eq_parseLines (text : List Char) : parse text = parseLines (text.splitOn '\n') := by
  rw [parse, List.foldlM_map, lines_eq_splitOn, parseLines]

/-- **What comes of a text of settings.**  Its lines are what stands between line feeds.  It
    is read exactly if each line that counts sets the key of a property to `0`, `1`, `true`
    or `false`, and then each property has the value that the last line naming it gives it,
    or the usual one.  If it is not read, the fault is the one of the first line that has
    one.  To give one property a value in place changes this one and no other, or it is
    refused and changes nothing. -/
theorem parse_outcome (text : List Char) :
    ((∃ s, parse text = .ok s) ↔
      ∀ line ∈ text.splitOn '\n', Counts line → ∃ property on, Gives line property on) ∧
    (∀ s, parse text = .ok s →
      ∀ property, Holds (text.splitOn '\n') property (s.get property)) ∧
    (∀ fault, parse text = .error fault ↔ FirstFault (text.splitOn '\n') fault) ∧
    ∀ (s s' : Settings) (key value : String),
      (∀ fault, (assign key value).run.run s = (.error fault, s') ↔
        Refused key value fault ∧ s' = s) ∧
      ((assign key value).run.run s = (.ok (), s') ↔
        ∃ property on, property.key = key ∧ Spells value on ∧ s' = s.set on property) := by
  rw [parse_eq_parseLines]
  exact ⟨parseLines_eq_ok_iff, fun _ => holds_of_parseLines, fun _ => parseLines_eq_error_iff,
    fun _ _ _ _ => ⟨fun _ => run_assign_eq_error_iff, run_assign_eq_ok_iff⟩⟩

/-- Of two lines with one key the later counts, and a carriage return alone ends no
    line. -/
example :
    parse "styling.within.preprocessor=1\r\n # = \n\tstyling.within.preprocessor = false\r".toList =
      .ok {} ∧
    parse "lexer.cpp.allow.dollars=0\r=\nx".toList =
      .error (.invalidValue "lexer.cpp.allow.dollars" "0\r=") := by
  decide +kernel

end Settings

end CFamily

end StyledText
