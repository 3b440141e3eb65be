/-
  What a catalog finds.

  Keys lead to the numbers of lexers.  Lexers are only added at the end, so a
  number never gets out of range and never leads to another lexer, and a key that
  is put in again leads to the newer one.

  * `Lexer.HasName` and `Lexer.HasExtension`: what a lexer is found by;
  * `Catalog.Numbered`: all numbers are in range, which `Numbered.register` keeps;
  * `byName?_register` and `byExtension?_register`: what one more lexer changes;
  * `Catalog.lookup_ofList`: each lookup finds the lexer registered last of those
    that it is for.
-/
import StyledText.Catalog
import StyledText.Proofs.ListEnds

namespace StyledText

/-! ## Names and extensions -/

/-- The same letters, but for the case of ASCII ones. -/
def SameLetters (s t : List Char) : Prop := s.map Char.toLower = t.map Char.toLower

/-- `bare` is what is left of an extension without the dots before it. -/
def IsBare (extension : String) (bare : List Char) : Prop :=
  ∃ dots, extension.toList = List.replicate dots '.' ++ bare ∧ bare.head? ≠ some '.'

namespace Lexer

/-- The lexer goes by `name`. -/
def HasName (lexer : Lexer) (name : String) : Prop :=
  SameLetters lexer.name.toList name.toList

/-- The lexer is meant for `extension`, which is more than dots. -/
def HasExtension (lexer : Lexer) (extension : String) : Prop :=
  ∃ own ∈ lexer.extensions, ∃ s t,
    IsBare own s ∧ IsBare extension t ∧ t ≠ [] ∧ SameLetters s t

end Lexer

theorem isBare_iff {extension : String} {bare : List Char} :
    IsBare extension bare ↔ bare = extension.toList.dropWhile (· == '.') := by
  constructor
  · rintro ⟨dots, h, hhead⟩
    have hcut := takeWhile_dropWhile_iff (p := (· == '.')).2 ⟨h, by simp, fun c hc => ?_⟩
    · exact hcut.2.symm
    · rw [beq_eq_false_iff_ne]
      rintro rfl
      exact hhead hc
  · rintro rfl
    obtain ⟨hcut, hfront, hrest⟩ :=
      takeWhile_dropWhile_iff (p := (· == '.')) (l := extension.toList).1 ⟨rfl, rfl⟩
    have hdots : extension.toList.takeWhile (· == '.') =
        List.replicate (extension.toList.takeWhile (· == '.')).length '.' := by
      rw [List.eq_replicate_iff]
      exact ⟨rfl, fun c hc => by simpa using hfront c hc⟩
    refine ⟨(extension.toList.takeWhile (· == '.')).length, ?_, fun hhead => ?_⟩
    · rwa [← hdots]
    · exact absurd (hrest '.' hhead) (by decide)

namespace Catalog

theorem nameKey_eq_iff {s t : String} : nameKey s = nameKey t ↔ SameLetters s.toList t.toList :=
  String.ofList_inj

theorem extensionKey_eq_iff {s t : String} :
    extensionKey s = extensionKey t ↔
      SameLetters (s.toList.dropWhile (· == '.')) (t.toList.dropWhile (· == '.')) :=
  String.ofList_inj

theorem extensionKey_isEmpty {extension : String} :
    (extensionKey extension).isEmpty = true ↔ IsBare extension [] := by
  rw [isBare_iff, extensionKey, String.isEmpty_iff, eq_comm (a := [])]
  simp

/-- A lexer is meant for the extensions with the key of one of its own. -/
theorem hasExtension_iff {lexer : Lexer} {extension : String} :
    lexer.HasExtension extension ↔
      ¬ IsBare extension [] ∧
        ∃ own ∈ lexer.extensions, extensionKey own = extensionKey extension := by
  simp only [Lexer.HasExtension, isBare_iff, extensionKey_eq_iff]
  constructor
  · rintro ⟨own, hown, s, t, rfl, rfl, hne, hsame⟩
    exact ⟨fun h => hne h.symm, own, hown, hsame⟩
  · rintro ⟨hne, own, hown, hsame⟩
    exact ⟨own, hown, _, _, rfl, rfl, fun h => hne h.symm, hsame⟩

/-! ## Numbers of lexers -/

variable {c : Catalog} {places : Std.HashMap String Nat} {lexer : Lexer} {n : Nat}

/-- All numbers that keys lead to are below `n`. -/
def Below (places : Std.HashMap String Nat) (n : Nat) : Prop :=
  ∀ (key : String) (number : Nat), places[key]? = some number → number < n

/-- **The numbers in the catalog are numbers of its lexers.** -/
structure Numbered (c : Catalog) : Prop where
  names : Below c.names c.lexers.size
  extensions : Below c.extensions c.lexers.size

theorem below_empty : Below ∅ n := by
  intro key number h
  simp at h

theorem Below.insert (h : Below places n) (key : String) :
    Below (places.insert key n) (n + 1) := by
  intro other number hn
  rw [Std.HashMap.getElem?_insert] at hn
  split at hn
  · cases hn
    exact Nat.lt_succ_self _
  · exact Nat.lt_succ_of_lt (h other number hn)

/-- One more lexer behind the others is not what an older number leads to. -/
theorem Below.bind_push {lexers : Array Lexer} (h : Below places lexers.size) (key : String) :
    places[key]?.bind ((lexers.push lexer)[·]?) = places[key]?.bind (lexers[·]?) := by
  cases hp : places[key]? with
  | none => rfl
  | some number =>
    have hlt := h key number hp
    simp only [Option.bind_some]
    rw [Array.getElem?_push, if_neg (Nat.ne_of_lt hlt)]

/-- Extensions that are put in lead to the new number, all others where they did. -/
theorem getElem?_putExtensions (own : List String) (key : String) :
    (own.foldl (putExtension n) places)[key]? =
      if key.isEmpty = false ∧ key ∈ own.map extensionKey then some n else places[key]? := by
  induction own generalizing places with
  | nil => simp
  | cons extension own ih =>
    rw [List.foldl_cons, ih, putExtension]
    by_cases hown : key.isEmpty = false ∧ key ∈ own.map extensionKey
    · rw [if_pos hown, if_pos ⟨hown.1, List.mem_cons_of_mem _ hown.2⟩]
    · rw [if_neg hown]
      by_cases hkey : extensionKey extension = key
      · subst hkey
        cases (extensionKey extension).isEmpty <;> simp
      · have hne : ¬ (key.isEmpty = false ∧ key ∈ (extension :: own).map extensionKey) := by
          rintro ⟨hfull, hmem⟩
          rcases List.mem_cons.1 hmem with h | h
          · exact hkey h.symm
          · exact hown ⟨hfull, h⟩
        rw [if_neg hne]
        split
        · rfl
        · rw [Std.HashMap.getElem?_insert, if_neg (by simpa using hkey)]

theorem numbered_empty : Numbered empty := ⟨below_empty, below_empty⟩

/-- **A lexer that is added leaves all numbers in range.** -/
theorem Numbered.register (h : c.Numbered) (lexer : Lexer) : (c.register lexer).Numbered where
  names := by
    rw [Catalog.register, Array.size_push]
    exact h.names.insert _
  extensions := by
    rw [Catalog.register, Array.size_push]
    intro key number hn
    rw [getElem?_putExtensions] at hn
    split at hn
    · cases hn
      exact Nat.lt_succ_self _
    · exact Nat.lt_succ_of_lt (h.extensions key number hn)

/-! ## One more lexer -/

/-- A lexer that is added is found by its name. -/
theorem byName?_register {name : String} (hname : lexer.HasName name) :
    (c.register lexer).byName? name = some lexer := by
  rw [byName?, register, Std.HashMap.getElem?_insert, if_pos]
  · simp
  · simpa using nameKey_eq_iff.2 hname

/-- A lexer that is added is not found by other names. -/
theorem byName?_register_of_not {name : String} (h : c.Numbered) (hname : ¬ lexer.HasName name) :
    (c.register lexer).byName? name = c.byName? name := by
  rw [byName?, register, Std.HashMap.getElem?_insert, if_neg]
  · exact h.names.bind_push _
  · simpa using mt nameKey_eq_iff.1 hname

theorem hasExtension_iff_mem {extension : String} :
    lexer.HasExtension extension ↔ (extensionKey extension).isEmpty = false ∧
      extensionKey extension ∈ lexer.extensions.map extensionKey := by
  rw [hasExtension_iff, ← extensionKey_isEmpty, List.mem_map, Bool.not_eq_true]

/-- A lexer that is added is found by its extensions. -/
theorem byExtension?_register {extension : String} (hext : lexer.HasExtension extension) :
    (c.register lexer).byExtension? extension = some lexer := by
  rw [byExtension?, register, getElem?_putExtensions, if_pos (hasExtension_iff_mem.1 hext)]
  simp

/-- A lexer that is added is not found by other extensions. -/
theorem byExtension?_register_of_not {extension : String} (h : c.Numbered)
    (hext : ¬ lexer.HasExtension extension) :
    (c.register lexer).byExtension? extension = c.byExtension? extension := by
  rw [byExtension?, register, getElem?_putExtensions, if_neg (mt hasExtension_iff_mem.2 hext)]
  exact h.extensions.bind_push _

/-! ## All lexers -/

theorem ofList_concat (lexers : List Lexer) (lexer : Lexer) :
    ofList (lexers ++ [lexer]) = (ofList lexers).register lexer := by
  rw [ofList, List.foldl_append, List.foldl_cons, List.foldl_nil, ← ofList]

/-- **The numbers of a catalog are in range**, whatever has been registered. -/
theorem numbered_ofList (lexers : List Lexer) : (ofList lexers).Numbered := by
  induction lexers using List.reverseRecOn with
  | nil => exact numbered_empty
  | append_singleton lexers lexer ih =>
    rw [ofList_concat]
    exact ih.register lexer

theorem toList_lexers_ofList (lexers : List Lexer) : (ofList lexers).lexers.toList = lexers := by
  induction lexers using List.reverseRecOn with
  | nil => rfl
  | append_singleton lexers lexer ih => rw [ofList_concat, register, Array.toList_push, ih]

/-- **A lookup for the lexers with `p`**: a lexer that is added is found if it is one of
    them, and otherwise what has been found before. -/
structure Seeks (p : Lexer → Prop) (find? : Catalog → Option Lexer) : Prop where
  empty : find? Catalog.empty = none
  register : ∀ {c : Catalog} {lexer}, p lexer → find? (c.register lexer) = some lexer
  register_of_not : ∀ {c : Catalog} {lexer}, c.Numbered → ¬ p lexer →
    find? (c.register lexer) = find? c

namespace Seeks

variable {p : Lexer → Prop} {find? : Catalog → Option Lexer}

/-- **The lexer registered last is found.** -/
theorem eq_some_iff (h : Seeks p find?) {lexers : List Lexer} {found : Lexer} :
    find? (ofList lexers) = some found ↔ IsLast p lexers found := by
  induction lexers using List.reverseRecOn with
  | nil =>
    have hnone : find? (ofList []) = none := h.empty
    rw [hnone]
    exact iff_of_false (Option.some_ne_none found).symm not_isLast_nil
  | append_singleton lexers lexer ih =>
    rw [ofList_concat, isLast_concat]
    by_cases hp : p lexer
    · rw [h.register hp]
      simp [hp, eq_comm]
    · rw [h.register_of_not (numbered_ofList lexers) hp, ih]
      simp [hp]

theorem eq_none_iff (h : Seeks p find?) {lexers : List Lexer} :
    find? (ofList lexers) = none ↔ ∀ lexer ∈ lexers, ¬ p lexer := by
  constructor
  · intro hnone lexer hmem hp
    obtain ⟨found, hfound⟩ := exists_isLast_iff.2 ⟨lexer, hmem, hp⟩
    rw [h.eq_some_iff.2 hfound] at hnone
    exact absurd hnone (Option.some_ne_none found)
  · intro hall
    rw [Option.eq_none_iff_forall_ne_some]
    intro found hfound
    have hlast := h.eq_some_iff.1 hfound
    exact hall found hlast.mem hlast.holds

end Seeks

theorem seeks_byName? (name : String) : Seeks (·.HasName name) (·.byName? name) where
  empty := by simp [byName?, Catalog.empty]
  register := byName?_register
  register_of_not := byName?_register_of_not

theorem seeks_byExtension? (extension : String) :
    Seeks (·.HasExtension extension) (·.byExtension? extension) where
  empty := by simp [byExtension?, Catalog.empty]
  register := byExtension?_register
  register_of_not := byExtension?_register_of_not

theorem get_eq_ok_iff {name : String} : c.get name = .ok lexer ↔ c.byName? name = some lexer := by
  rw [get]
  cases c.byName? name <;> simp

theorem get_eq_error_iff {name : String} {fault : ConfigError} :
    c.get name = .error fault ↔ c.byName? name = none ∧ fault = .unknownLexer name := by
  rw [get]
  cases c.byName? name <;> simp [eq_comm]

/-- **Each lookup finds the lexer registered last of those that it is for.**  After any
    registrations, an extension leads to the last lexer with an extension that is the same
    without the dots before it and without regard to ASCII letter case, and a name to
    the last lexer that goes by it.  Nothing is found where there is no such lexer, and by
    an extension of dots.  A lexer that has to be there is the one of that name, and its
    absence is a fault that tells the name.  All lexers stay listed, in the order of their
    registration. -/
theorem lookup_ofList (lexers : List Lexer) :
    let c := ofList lexers
    (∀ extension found, c.byExtension? extension = some found ↔
      IsLast (·.HasExtension extension) lexers found) ∧
    (∀ extension, c.byExtension? extension = none ↔
      ∀ lexer ∈ lexers, ¬ lexer.HasExtension extension) ∧
    (∀ dots, c.byExtension? (String.ofList (List.replicate dots '.')) = none) ∧
    (∀ name found, c.byName? name = some found ↔ IsLast (·.HasName name) lexers found) ∧
    (∀ name, c.byName? name = none ↔ ∀ lexer ∈ lexers, ¬ lexer.HasName name) ∧
    (∀ name found, c.get name = .ok found ↔ c.byName? name = some found) ∧
    (∀ name fault, c.get name = .error fault ↔
      c.byName? name = none ∧ fault = .unknownLexer name) ∧
    c.allNames = lexers.map (·.name) := by
  intro c
  refine ⟨fun _ _ => (seeks_byExtension? _).eq_some_iff,
    fun _ => (seeks_byExtension? _).eq_none_iff, fun dots => ?_,
    fun _ _ => (seeks_byName? _).eq_some_iff, fun _ => (seeks_byName? _).eq_none_iff,
    fun _ _ => get_eq_ok_iff, fun _ _ => get_eq_error_iff, ?_⟩
  · refine (seeks_byExtension? _).eq_none_iff.2 fun lexer _ hext => ?_
    refine (hasExtension_iff.1 hext).1 ⟨dots, ?_, by simp⟩
    rw [String.toList_ofList, List.append_nil]
  · rw [allNames, toList_lexers_ofList]

end Catalog

end StyledText
