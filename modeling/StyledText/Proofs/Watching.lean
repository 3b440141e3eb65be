/-
  What a watcher can tell of its document.

  A watcher is told each change of the text and each change between saved and
  unsaved, and nothing else.  That is enough to know, at any time, how many lines
  and characters the document has, and whether it is saved.

  * `Mirror`: what a watcher knows, kept up to date by what it is told;
  * `Mirror.Account`: some events lead from one mirror to another and say nothing
    twice;
  * `Document.Tells`: every watcher has been told a true account of what has become
    of the document;
  * `tells_perform` and `tells_obey`: whatever is done to a document, its watchers
    are told a true account of it;
  * `Document.heardBy_obey`: what a watcher hears from the moment it is added.
-/
import Mathlib.Algebra.Ring.Int.Defs
import Mathlib.Data.List.Chain
import StyledText.Document.Columns
import StyledText.Proofs.Relexing

namespace StyledText

/-! ## What a watcher makes of an event -/

/-- The length of a text of `length` characters after `n` were put in or taken
    out, or were loaded. -/
def ChangeKind.lengthAfter (n : Nat) (length : Int) : ChangeKind → Int
  | .insert => length + n
  | .delete => length - n
  | .reload => n

namespace Event

/-- The number of lines gained. -/
def linesAdded : Event → Int
  | .modified change => change.linesAdded
  | .savePoint _ => 0

/-- The length of the text after the event, when it was `length` before. -/
def lengthAfter (length : Int) : Event → Int
  | .modified change => change.kind.lengthAfter change.length length
  | .savePoint _ => length

/-- Whether the text is saved, if the event says so. -/
def savePoint? : Event → Option Bool
  | .modified _ => none
  | .savePoint reached => some reached

end Event

/-- What a watcher knows of a document. -/
@[ext] structure Mirror where
  /-- The number of lines. -/
  lines : Int
  /-- The number of characters. -/
  length : Int
  /-- Whether the text is as it was saved. -/
  saved : Bool

namespace Mirror

variable {m m' m'' : Mirror} {events events' : List Event}

/-- What a watcher knows after an event. -/
def heed (m : Mirror) (event : Event) : Mirror where
  lines := m.lines + event.linesAdded
  length := event.lengthAfter m.length
  saved := event.savePoint?.getD m.saved

theorem lines_foldl (m : Mirror) (events : List Event) :
    (events.foldl heed m).lines = m.lines + (events.map Event.linesAdded).sum := by
  induction events generalizing m with
  | nil => simp
  | cons event events ih =>
    rw [List.foldl_cons, ih, List.map_cons, List.sum_cons, ← Int.add_assoc]
    rfl

theorem length_foldl (m : Mirror) (events : List Event) :
    (events.foldl heed m).length = events.foldl Event.lengthAfter m.length := by
  induction events generalizing m with
  | nil => rfl
  | cons event events ih => exact ih _

theorem saved_foldl (m : Mirror) (events : List Event) :
    (events.foldl heed m).saved =
      ((events.filterMap Event.savePoint?).getLast?).getD m.saved := by
  induction events generalizing m with
  | nil => rfl
  | cons event events ih =>
    rw [List.foldl_cons, ih]
    cases event with
    | modified change => simp [heed, Event.savePoint?]
    | savePoint reached => simp [heed, Event.savePoint?, List.getLast?_cons]

/-- **The events lead from `m` to `m'`**, and none of them says anew that the text
    is saved, or is not. -/
structure Account (m : Mirror) (events : List Event) (m' : Mirror) : Prop where
  foldl_eq : events.foldl heed m = m'
  alternate : (m.saved :: events.filterMap Event.savePoint?).IsChain (· ≠ ·)

theorem Account.refl (m : Mirror) : Account m [] m := ⟨rfl, by simp⟩

theorem Account.trans (h : Account m events m') (h' : Account m' events' m'') :
    Account m (events ++ events') m'' where
  foldl_eq := by rw [List.foldl_append, h.foldl_eq, h'.foldl_eq]
  alternate := by
    obtain ⟨hfirst, hchain⟩ := List.isChain_cons.1 h'.alternate
    rw [List.filterMap_append, ← List.cons_append, List.isChain_append]
    refine ⟨h.alternate, hchain, fun last hlast next hnext => ?_⟩
    -- What was told last is how it stood in between.
    rw [List.getLast?_cons, ← saved_foldl, h.foldl_eq] at hlast
    obtain rfl := Option.some.inj hlast
    exact hfirst next hnext

theorem account_modified (m : Mirror) (change : Modification) :
    Account m [.modified change] (m.heed (.modified change)) :=
  ⟨rfl, List.isChain_singleton _⟩

/-- The events by which a change between saved and unsaved is told. -/
def savedChange (before after : Bool) : List Event :=
  if after = before then [] else [.savePoint after]

theorem account_savedChange (m : Mirror) (after : Bool) :
    Account m (savedChange m.saved after) { m with saved := after } := by
  unfold savedChange
  split_ifs with hsame
  · subst hsame
    exact .refl m
  · refine ⟨?_, ?_⟩
    · simp [heed, Event.linesAdded, Event.lengthAfter, Event.savePoint?]
    · simpa [Event.savePoint?] using Ne.symm hsame

end Mirror

namespace Edit

variable {e : Edit} {x y : Content} {kind : ChangeKind}

/-- Making an edit changes the length as its kind says. -/
theorem Leads.length_redoKind (h : e.Leads x y) (hkind : Document.redoKind e = some kind) :
    kind.lengthAfter e.length x.text.length = y.text.length := by
  cases e with
  | insert p data =>
    cases hkind
    obtain ⟨hp, rfl⟩ := h
    simp [ChangeKind.lengthAfter, Content.put, Text.length_insert hp, length, Edit.data]
  | delete p data styles =>
    cases hkind
    obtain ⟨hp, rfl⟩ := h
    simp [ChangeKind.lengthAfter, Content.put, Text.length_insert hp, length, Edit.data]
  | mark token => cases hkind

/-- Taking an edit back changes the length as the kind of its undoing says. -/
theorem Leads.length_undoKind (h : e.Leads x y) (hkind : Document.undoKind e = some kind) :
    kind.lengthAfter e.length y.text.length = x.text.length := by
  cases e with
  | insert p data =>
    cases hkind
    obtain ⟨hp, rfl⟩ := h
    simp [ChangeKind.lengthAfter, Content.put, Text.length_insert hp, length, Edit.data]
  | delete p data styles =>
    cases hkind
    obtain ⟨hp, rfl⟩ := h
    simp [ChangeKind.lengthAfter, Content.put, Text.length_insert hp, length, Edit.data]
  | mark token => cases hkind

end Edit

/-! ## The mirror of a buffer -/

namespace Buffer

variable {b b' : Buffer}

/-- What there is to know of a buffer. -/
def mirror (b : Buffer) : Mirror := ⟨b.lineCount, b.length, b.isSaved⟩

theorem length_deletion {p n : Nat} (hn : p + n ≤ b.length) : (b.deletion p n).length = n := by
  change p + n ≤ b.text.length at hn
  simp only [Edit.length, Edit.data, deletion, range, Text.length_extract]
  omega

theorem isSaved_clearLog (b : Buffer) : b.clearLog.isSaved = b.isSaved := by
  unfold clearLog isSaved EditLog.clear
  split_ifs with h
  · rw [h]
    rfl
  · exact (Bool.eq_false_iff.2 h).symm

theorem mirror_withStyles (b : Buffer) (styles : Option (Array UInt8)) :
    { b with styles }.mirror = b.mirror := rfl

theorem mirror_setStyles (b : Buffer) (p : Nat) (values : Array UInt8) :
    (b.setStyles p values).mirror = b.mirror := by
  obtain ⟨styles, h⟩ := b.exists_setStyles_eq p values
  rw [h, mirror_withStyles]

end Buffer

namespace Document

variable {d d' d'' : Document} {events events' : List Event} {b : Buffer}

/-! ## What the watchers have been told -/

/-- **The watchers of `d` have been told the events by the time of `d'`**, each of
    them all events, and nobody else anything. -/
structure Hears (d : Document) (events : List Event) (d' : Document) : Prop where
  watchers_le : d.watchers ≤ d'.watchers
  heardBy_eq : ∀ w < d.watchers, d'.heardBy w = d.heardBy w ++ events
  heardBy_nobody : ∀ w, d'.watchers ≤ w → d'.heardBy w = d.heardBy w

theorem Hears.trans (h : Hears d events d') (h' : Hears d' events' d'') :
    Hears d (events ++ events') d'' where
  watchers_le := Nat.le_trans h.watchers_le h'.watchers_le
  heardBy_eq := by
    intro w hw
    rw [h'.heardBy_eq w (Nat.lt_of_lt_of_le hw h.watchers_le), h.heardBy_eq w hw,
      List.append_assoc]
  heardBy_nobody := by
    intro w hw
    rw [h'.heardBy_nobody w hw, h.heardBy_nobody w (Nat.le_trans h'.watchers_le hw)]

theorem Hears.of_notices_eq (hwatchers : d.watchers ≤ d'.watchers)
    (hnotices : d'.notices = d.notices) : Hears d [] d' where
  watchers_le := hwatchers
  heardBy_eq := by
    intro w _
    rw [heardBy, hnotices, List.append_nil, ← heardBy]
  heardBy_nobody := by
    intro w _
    rw [heardBy, hnotices, ← heardBy]

theorem heardBy_tell (d : Document) (event : Event) (w : Nat) :
    (d.tell event).heardBy w = d.heardBy w ++ if w < d.watchers then [event] else [] := by
  simp only [heardBy, tell, List.filter_append, List.map_append]
  congr 1
  induction d.watchers with
  | zero => simp
  | succ n ih =>
    rw [List.range_succ, List.map_append, List.filter_append, List.map_append, ih]
    rcases Nat.lt_trichotomy w n with h | rfl | h
    · simp [h, Nat.lt_succ_of_lt h, Nat.ne_of_gt h]
    · simp
    · simp [Nat.not_lt_of_gt h, Nat.ne_of_lt h, show ¬ w < n + 1 by omega]

theorem hears_tell (d : Document) (event : Event) : Hears d [event] (d.tell event) where
  watchers_le := Nat.le_refl _
  heardBy_eq := by
    intro w hw
    rw [heardBy_tell, if_pos hw]
  heardBy_nobody := by
    intro w hw
    have hw : ¬ w < d.watchers := Nat.not_lt.2 hw
    rw [heardBy_tell, if_neg hw, List.append_nil]

theorem hears_tellSaved (d : Document) (before : Bool) :
    Hears d (Mirror.savedChange before d.buffer.isSaved) (d.tellSaved before) := by
  unfold tellSaved Mirror.savedChange
  split_ifs
  · exact .of_notices_eq (Nat.le_refl _) rfl
  · exact hears_tell d _

/-- **Each watcher has been told a true account of what has become of the
    document**, and nobody else anything. -/
structure Tells (d : Document) (events : List Event) (d' : Document) : Prop
    extends Hears d events d' where
  account : d.buffer.mirror.Account events d'.buffer.mirror

theorem Tells.refl (d : Document) : Tells d [] d :=
  ⟨.of_notices_eq (Nat.le_refl _) rfl, .refl _⟩

theorem Tells.trans (h : Tells d events d') (h' : Tells d' events' d'') :
    Tells d (events ++ events') d'' :=
  ⟨h.toHears.trans h'.toHears, h.account.trans h'.account⟩

/-- As long as a watcher can see no difference, nothing needs to be told. -/
theorem Tells.silent (hwatchers : d.watchers ≤ d'.watchers) (hnotices : d'.notices = d.notices)
    (hmirror : d'.buffer.mirror = d.buffer.mirror) : Tells d [] d' :=
  ⟨.of_notices_eq hwatchers hnotices, hmirror ▸ .refl _⟩

/-- What watchers cannot see may be changed before. -/
theorem Tells.of_same {d₀ : Document} (h : ∃ events, Tells d₀ events d')
    (hwatchers : d₀.watchers = d.watchers) (hnotices : d₀.notices = d.notices)
    (hbuffer : d₀.buffer = d.buffer) : ∃ events, Tells d events d' := by
  obtain ⟨events, h⟩ := h
  exact ⟨_, (Tells.silent (Nat.le_of_eq hwatchers.symm) hnotices (by rw [hbuffer])).trans h⟩

theorem tells_tellSaved (hlines : b.lineCount = d.buffer.lineCount)
    (hlength : b.length = d.buffer.length) :
    ∃ events, Tells d events (({ d with buffer := b }).tellSaved d.buffer.isSaved) := by
  let placed : Document := { d with buffer := b }
  have hplaced : Hears d [] placed := .of_notices_eq (Nat.le_refl _) rfl
  refine ⟨_, hplaced.trans (hears_tellSaved placed d.buffer.isSaved), ?_⟩
  have hmirror : b.mirror = { d.buffer.mirror with saved := b.isSaved } := by
    rw [Buffer.mirror, hlines, hlength]
    rfl
  rw [(tellSaved_eq _ _).2.1]
  change d.buffer.mirror.Account _ b.mirror
  rw [hmirror]
  exact Mirror.account_savedChange d.buffer.mirror b.isSaved

theorem tells_adopt {kind : ChangeKind} {n : Nat}
    (hlength : kind.lengthAfter n d.buffer.length = b.length) (fromHistory : Bool) (p : Nat) :
    ∃ events, Tells d events (d.adopt b kind fromHistory p n) := by
  let change : Modification :=
    ⟨kind, fromHistory, p, n, (b.lineCount : Int) - (d.buffer.lineCount : Int)⟩
  let placed : Document := { d with buffer := b }
  have hplaced : Hears d [] placed := .of_notices_eq (Nat.le_refl _) rfl
  refine ⟨_, (hplaced.trans (hears_tell placed (.modified change))).trans
    (hears_tellSaved _ d.buffer.isSaved), ?_⟩
  have hmirror :
      b.mirror = { d.buffer.mirror.heed (.modified change) with saved := b.isSaved } := by
    ext
    · simp only [Buffer.mirror, Mirror.heed, Event.linesAdded, change]
      omega
    · simp [Buffer.mirror, Mirror.heed, Event.lengthAfter, change, hlength]
    · rfl
  rw [(adopt_eq _ _ _ _ _ _).2.1, hmirror]
  exact (Mirror.account_modified d.buffer.mirror change).trans
    (Mirror.account_savedChange _ b.isSaved)

/-! ## Edits -/

/-- The kind of an edit that is taken back or made again tells how the length
    changes, and an edit without one changes nothing. -/
theorem tells_adoptReplay {e : Edit} {kind : Option ChangeKind}
    (hlength : ∀ k ∈ kind, k.lengthAfter e.length d.buffer.length = b.length)
    (hmark : kind = none → b.lineCount = d.buffer.lineCount ∧ b.length = d.buffer.length) :
    ∃ events, Tells d events (d.adoptReplay b e kind) := by
  cases kind with
  | none => exact tells_tellSaved (hmark rfl).1 (hmark rfl).2
  | some kind =>
    have h := tells_adopt (d := d.forgetStylesFrom e.position) (hlength kind rfl) true e.position
    exact Tells.of_same h rfl rfl rfl

theorem tells_load (d : Document) (text : Text) : ∃ events, Tells d events (d.load text) := by
  unfold load
  split_ifs with hr
  · exact ⟨[], .refl d⟩
  · have hlength : (ChangeKind.reload).lengthAfter text.length d.buffer.length =
        (d.buffer.load text).length := by
      rw [Buffer.load, if_neg hr]
      rfl
    have h := tells_adopt (d := { d with endStyled := 0, includes := [] }) hlength false 0
    exact Tells.of_same h rfl rfl rfl

theorem tells_insert? {p : Nat} {data : Text} (h : d.insert? p data = some d') :
    ∃ events, Tells d events d' := by
  obtain ⟨b, hb, rfl⟩ := Option.map_eq_some_iff.1 h
  have hlength := (Buffer.leads_insert? hb).length_redoKind rfl
  exact Tells.of_same (tells_adopt (d := d.forgetStylesFrom p) hlength false p) rfl rfl rfl

theorem tells_delete? {p n : Nat} (hd : d.buffer.Sound) (h : d.delete? p n = some d') :
    ∃ events, Tells d events d' := by
  obtain ⟨b, hb, rfl⟩ := Option.map_eq_some_iff.1 h
  have hlength := (Buffer.leads_delete? hd.toConsistent hb).length_redoKind rfl
  rw [Buffer.length_deletion (Buffer.delete?_eq_some.1 hb).1.2.2] at hlength
  exact Tells.of_same (tells_adopt (d := d.forgetStylesFrom p) hlength false p) rfl rfl rfl

theorem tells_undo? (hd : d.buffer.Sound) (h : d.undo? = some d') :
    ∃ events, Tells d events d' := by
  obtain ⟨⟨e, b⟩, hb, rfl⟩ := Option.map_eq_some_iff.1 h
  have hleads := (hd.undo? hb).2
  refine tells_adoptReplay (fun kind hkind => hleads.length_undoKind hkind) fun hnone => ?_
  obtain ⟨-, log, -, rfl⟩ := Buffer.undo?_eq_some.1 hb
  cases e with
  | mark token => exact ⟨rfl, rfl⟩
  | insert p data => exact nomatch hnone
  | delete p data styles => exact nomatch hnone

theorem tells_redo? (hd : d.buffer.Sound) (h : d.redo? = some d') :
    ∃ events, Tells d events d' := by
  obtain ⟨⟨e, b⟩, hb, rfl⟩ := Option.map_eq_some_iff.1 h
  have hleads := (hd.redo? hb).2
  refine tells_adoptReplay (fun kind hkind => hleads.length_redoKind hkind) fun hnone => ?_
  obtain ⟨-, log, -, rfl⟩ := Buffer.redo?_eq_some.1 hb
  cases e with
  | mark token => exact ⟨rfl, rfl⟩
  | insert p data => exact nomatch hnone
  | delete p data styles => exact nomatch hnone

/-! ## Whatever is done to a document -/

/-- What can be done to a document. -/
inductive Command where
  /-- An edit, or styling on demand. -/
  | edit (op : Op)
  | lex (start n : Nat) (initial : UInt8)
  | setLexer (lexer : Lexer)
  | save
  | clearLog
  | setReadOnly (readOnly : Bool)
  | setRecording (recording : Bool)
  | setTabWidth (width : Nat)
  | addWatcher

/-- The document after a command; one that is refused changes nothing. -/
def perform (d : Document) : Command → Document
  | .edit op => d.apply op
  | .lex start n initial => (d.lex start n initial).1
  | .setLexer lexer => d.setLexer lexer
  | .save => d.save
  | .clearLog => d.clearLog
  | .setReadOnly readOnly => d.setReadOnly readOnly
  | .setRecording recording => d.setRecording recording
  | .setTabWidth width => d.setTabWidth width
  | .addWatcher => d.addWatcher

/-- The document after some commands, in order. -/
def obey (d : Document) (commands : List Command) : Document := commands.foldl perform d

/-- Whether a command is refused. -/
def refuses (d : Document) : Command → Bool
  | .edit (.load _) => d.buffer.readOnly
  | .edit (.insert p data) => (d.insert? p data).isNone
  | .edit (.delete p n) => (d.delete? p n).isNone
  | .edit .undo => d.undo?.isNone
  | .edit .redo => d.redo?.isNone
  | _ => false

theorem perform_of_refuses {command : Command} (h : d.refuses command = true) :
    d.perform command = d := by
  unfold refuses at h
  split at h
  case h_1 text => exact if_pos h
  case h_2 p data => exact congrArg (Option.getD · d) (Option.isNone_iff_eq_none.1 h)
  case h_3 p n => exact congrArg (Option.getD · d) (Option.isNone_iff_eq_none.1 h)
  case h_4 => exact congrArg (Option.getD · d) (Option.isNone_iff_eq_none.1 h)
  case h_5 => exact congrArg (Option.getD · d) (Option.isNone_iff_eq_none.1 h)
  case h_6 => exact absurd h Bool.false_ne_true

theorem tells_getD {d? : Option Document} (h : ∀ d' ∈ d?, ∃ events, Tells d events d') :
    ∃ events, Tells d events (d?.getD d) := by
  cases d? with
  | none => exact ⟨[], .refl d⟩
  | some d' => exact h d' rfl

/-- Styling is told to nobody. -/
theorem tells_lex (d : Document) (start n : Nat) (initial : UInt8) :
    Tells d [] (d.lex start n initial).1 :=
  .silent (Nat.le_refl _) rfl (Buffer.mirror_setStyles _ _ _)

theorem tells_ensureStyledTo (d : Document) (p : Nat) : Tells d [] (d.ensureStyledTo p) := by
  unfold ensureStyledTo
  dsimp only
  split
  · exact .refl d
  · exact tells_lex _ _ _ _

/-- **Each command is told to the watchers, truly and completely.** -/
theorem tells_perform (hd : d.buffer.Sound) (command : Command) :
    ∃ events, Tells d events (d.perform command) := by
  cases command with
  | edit op =>
    cases op with
    | load text => exact tells_load d text
    | insert p data => exact tells_getD fun _ h => tells_insert? h
    | delete p n => exact tells_getD fun _ h => tells_delete? hd h
    | undo => exact tells_getD fun _ h => tells_undo? hd h
    | redo => exact tells_getD fun _ h => tells_redo? hd h
    | ensureStyledTo p => exact ⟨[], tells_ensureStyledTo d p⟩
  | lex start n initial => exact ⟨[], tells_lex d start n initial⟩
  | save => exact tells_tellSaved rfl rfl
  | clearLog =>
    refine ⟨[], .silent (Nat.le_refl _) rfl ?_⟩
    ext
    · rfl
    · rfl
    · exact d.buffer.isSaved_clearLog
  | addWatcher => exact ⟨[], .silent (Nat.le_succ _) rfl rfl⟩
  | setLexer lexer => exact ⟨[], .silent (Nat.le_refl _) rfl rfl⟩
  | setReadOnly readOnly => exact ⟨[], .silent (Nat.le_refl _) rfl rfl⟩
  | setRecording recording => exact ⟨[], .silent (Nat.le_refl _) rfl rfl⟩
  | setTabWidth width => exact ⟨[], .silent (Nat.le_refl _) rfl rfl⟩

theorem buffer_adoptReplay (d : Document) (b : Buffer) (e : Edit) (kind : Option ChangeKind) :
    (d.adoptReplay b e kind).buffer = b := by
  cases kind with
  | none => exact (tellSaved_eq _ _).2.1
  | some kind => exact (adopt_eq _ _ _ _ _ _).2.1

theorem sound_adopt (hb : b.Sound) (kind : ChangeKind) (fromHistory : Bool) (p n : Nat) :
    (d.adopt b kind fromHistory p n).buffer.Sound := by
  rwa [(adopt_eq _ _ _ _ _ _).2.1]

theorem sound_adoptReplay (hb : b.Sound) (e : Edit) (kind : Option ChangeKind) :
    (d.adoptReplay b e kind).buffer.Sound := by
  rwa [buffer_adoptReplay]

theorem sound_getD {d? : Option Document} (hd : d.buffer.Sound)
    (h : ∀ d' ∈ d?, d'.buffer.Sound) : (d?.getD d).buffer.Sound := by
  cases d? with
  | none => exact hd
  | some d' => exact h d' rfl

theorem sound_lex (hd : d.buffer.Sound) (start n : Nat) (initial : UInt8) :
    (d.lex start n initial).1.buffer.Sound :=
  hd.getD fun _ hput => hd.setStyles? hput

/-- Each edit leaves a sound buffer, and so does styling on demand. -/
theorem sound_apply (hd : d.buffer.Sound) (op : Op) : (d.apply op).buffer.Sound := by
  cases op with
  | load text =>
    change (d.load text).buffer.Sound
    unfold load
    split_ifs
    · exact hd
    · exact sound_adopt (hd.load text) _ _ _ _
  | insert p data =>
    refine sound_getD hd fun d' h => ?_
    obtain ⟨b, hb, rfl⟩ := Option.map_eq_some_iff.1 h
    exact sound_adopt (hd.insert? hb) _ _ _ _
  | delete p n =>
    refine sound_getD hd fun d' h => ?_
    obtain ⟨b, hb, rfl⟩ := Option.map_eq_some_iff.1 h
    exact sound_adopt (hd.delete? hb) _ _ _ _
  | undo =>
    refine sound_getD hd fun d' h => ?_
    obtain ⟨⟨e, b⟩, hb, rfl⟩ := Option.map_eq_some_iff.1 h
    exact sound_adoptReplay (hd.undo? hb).1 e _
  | redo =>
    refine sound_getD hd fun d' h => ?_
    obtain ⟨⟨e, b⟩, hb, rfl⟩ := Option.map_eq_some_iff.1 h
    exact sound_adoptReplay (hd.redo? hb).1 e _
  | ensureStyledTo p =>
    change (d.ensureStyledTo p).buffer.Sound
    unfold ensureStyledTo
    dsimp only
    split
    · exact hd
    · exact sound_lex hd _ _ _

/-- **Each command leaves a sound buffer.** -/
theorem sound_perform (hd : d.buffer.Sound) (command : Command) :
    (d.perform command).buffer.Sound := by
  cases command with
  | edit op => exact sound_apply hd op
  | lex start n initial => exact sound_lex hd start n initial
  | save =>
    change (d.save).buffer.Sound
    rw [save, (tellSaved_eq _ _).2.1]
    exact ⟨⟨hd.aligned, hd.lines_eq⟩, hd.fits.save⟩
  | clearLog => exact ⟨⟨hd.aligned, hd.lines_eq⟩, EditLog.fits_clear _ _⟩
  | setRecording recording =>
    exact ⟨⟨hd.aligned, hd.lines_eq⟩, hd.fits.setRecording recording⟩
  | setReadOnly readOnly => exact ⟨⟨hd.aligned, hd.lines_eq⟩, hd.fits⟩
  | addWatcher | setLexer _ | setTabWidth _ => exact hd

/-- **So is a whole run of commands.** -/
theorem tells_obey (hd : d.buffer.Sound) (commands : List Command) :
    (d.obey commands).buffer.Sound ∧ ∃ events, Tells d events (d.obey commands) := by
  induction commands generalizing d with
  | nil => exact ⟨hd, [], .refl d⟩
  | cons command commands ih =>
    obtain ⟨hsound, events', h'⟩ := ih (sound_perform hd command)
    obtain ⟨events, h⟩ := tells_perform hd command
    exact ⟨hsound, _, h.trans h'⟩

/-- A document without text is one that holds the empty text. -/
theorem ofText_empty : ofText .empty = empty := rfl

/-- **What a watcher hears mirrors the document.**  Do anything to a document, add
    a watcher, and do anything to it again.  The lines gained, by what the new
    watcher has heard, lead from the number of lines then to the number of lines
    now; putting in, taking out and loading lead from the length then to the length
    now; the text is saved as was heard last, and each time it was heard it was news.
    A command that is refused changes nothing and is told to nobody.  And the
    watchers added earlier have heard the same since. -/
theorem heardBy_obey (text : Text) (before after : List Command) :
    let d := (ofText text).obey before
    let d' := d.addWatcher.obey after
    let heard := d'.heardBy d.watchers
    (d.buffer.lineCount : Int) + (heard.map Event.linesAdded).sum = d'.buffer.lineCount ∧
    heard.foldl Event.lengthAfter (d.buffer.length : Int) = d'.buffer.length ∧
    ((heard.filterMap Event.savePoint?).getLast?).getD d.buffer.isSaved = d'.buffer.isSaved ∧
    (d.buffer.isSaved :: heard.filterMap Event.savePoint?).IsChain (· ≠ ·) ∧
    (∀ command, d'.refuses command = true → d'.perform command = d') ∧
    ∀ w < d.watchers, d'.heardBy w = d.heardBy w ++ heard := by
  intro d d' heard
  obtain ⟨hsound, events₀, h₀⟩ :=
    tells_obey (d := ofText text) (Buffer.sound_empty.load text) before
  obtain ⟨-, events, h⟩ := tells_obey (d := d.addWatcher) hsound after
  have hnobody : d.heardBy d.watchers = [] := h₀.heardBy_nobody _ (Nat.le_refl _)
  have hheard : heard = events := by
    have := h.heardBy_eq d.watchers (Nat.lt_succ_self _)
    rwa [show d.addWatcher.heardBy d.watchers = d.heardBy d.watchers from rfl, hnobody,
      List.nil_append] at this
  have hfold : events.foldl Mirror.heed d.buffer.mirror = d'.buffer.mirror := h.account.foldl_eq
  rw [hheard]
  refine ⟨?_, ?_, ?_, h.account.alternate, fun _ => perform_of_refuses, fun w hw => ?_⟩
  · exact (Mirror.lines_foldl d.buffer.mirror events).symm.trans (congrArg Mirror.lines hfold)
  · exact (Mirror.length_foldl d.buffer.mirror events).symm.trans (congrArg Mirror.length hfold)
  · exact (Mirror.saved_foldl d.buffer.mirror events).symm.trans (congrArg Mirror.saved hfold)
  · exact h.heardBy_eq w (Nat.lt_succ_of_lt hw)

end Document

end StyledText
