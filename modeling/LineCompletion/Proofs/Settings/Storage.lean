import LineCompletion.Proofs.Json.Reading
import LineCompletion.Settings.Stored

/-!
# What stored settings stand for

A stored object is taken as a list of entries (`Entry`): settings with the values they are given,
and members of other names with any values. What it stands for is said without reading
(`Completes`): each setting that is given has the value given, and all others have their defaults.
There are no two settings that complete the same entries (`Completes.unique`).

**An object is read as exactly the settings it stands for**, and it stands for some exactly when its
names are texts, no setting is given twice and each value is of the type of its setting
(`read?_object_iff`). This is an equivalence, so it says too which objects are refused: those with a
setting given twice, with a value of another type, or with a name that stands for no text. It is for
an object in a document of the grammar, and its names are compared by what they stand for, so a
setting may be named in many ways.

The fields are handled as one family. A `Choice` is a field with its value, `Choice.StoredAs` says
which JSON value stores it, and what a field is and what is chosen for it are joined by one law
(`chosen_choose`), from which everything that is said of several fields follows. Only the lemmas on
the values of a field look at which field it is.

Members are read one after the other, with a list of the fields that are taken already. What is
carried along is that no setting is chosen twice and none that is taken (`OnceBeside`), and the
induction on the members (`ofMembers?_eq_some_iff`) goes by what can be done with the first of them
(`exists_entry_of_ofMembers?`). Choosing one after the other gives what is chosen, since no later
choice is of the same field (`chosen_foldl_of_mem`).

Settings are written as such an object (`document_toJson`), from which they are had back
(`read?_toJson`). `read?_stored` states both directions of storing for all settings and for all
objects, with any members among the settings and in any order. Nothing is claimed of texts that are
no documents of an object.
-/

namespace LineCompletion

namespace Settings

/-! ### Choices -/

/-- One of the settings with a value. -/
inductive Choice where
  /-- Whether calls may be evaluated. -/
  | allowCalls (b : Bool)
  /-- Whether import statements are completed. -/
  | completeImports (b : Bool)
  /-- The quote for keys. -/
  | keyQuote (c : Char)
  deriving DecidableEq, Repr

namespace Choice

/-- The setting that is chosen. -/
def field : Choice → Field
  | allowCalls _ => .allowCalls
  | completeImports _ => .completeImports
  | keyQuote _ => .keyQuote

/-- A choice and a JSON value that stores it. A quote is a string of one character. -/
inductive StoredAs : Choice → Json → Prop
  /-- A truth value. -/
  | allowCalls (b : Bool) : StoredAs (.allowCalls b) (.bool b)
  /-- A truth value. -/
  | completeImports (b : Bool) : StoredAs (.completeImports b) (.bool b)
  /-- A string of one character. -/
  | keyQuote {c : Char} {body : List Char} (h : Json.StandsFor body [c]) :
      StoredAs (.keyQuote c) (.string body)

end Choice

/-- What is chosen for a setting. -/
def chosen (settings : Settings) : Field → Choice
  | .allowCalls => .allowCalls settings.allowCalls
  | .completeImports => .completeImports settings.completeImports
  | .keyQuote => .keyQuote settings.rawQuote

/-- The settings with one of them chosen. -/
def choose (settings : Settings) : Choice → Settings
  | .allowCalls b => { settings with allowCalls := b }
  | .completeImports b => { settings with completeImports := b }
  | .keyQuote c => { settings with rawQuote := c }

/-- What is chosen for a setting is a choice of that setting. -/
theorem field_chosen (settings : Settings) (f : Field) : (settings.chosen f).field = f := by
  cases f <;> rfl

/-- A choice is the setting's, and that of no other. -/
theorem chosen_choose (settings : Settings) (c : Choice) (f : Field) :
    (settings.choose c).chosen f = if c.field = f then c else settings.chosen f := by
  cases c <;> cases f <;> rfl

/-- Settings with the same choices are the same. -/
theorem ext_chosen {s t : Settings} (h : ∀ f, s.chosen f = t.chosen f) : s = t := by
  have hcalls := Choice.allowCalls.inj (h .allowCalls)
  have himports := Choice.completeImports.inj (h .completeImports)
  have hquote := Choice.keyQuote.inj (h .keyQuote)
  cases s
  cases t
  congr

/-! ### Entries -/

/-- What a stored object holds: a setting, or a member of another name. -/
inductive Entry where
  /-- A setting with its value. -/
  | setting (choice : Choice)
  /-- A member of no meaning, with any value. -/
  | other (name : List Char) (value : Json)

namespace Entry

/-- The choice that an entry makes, if it is one. -/
def choice? : Entry → Option Choice
  | setting choice => some choice
  | other _ _ => none

/-- An entry and a member that stores it, the name being written in any way. -/
inductive StoredAs : Entry → List Char × Json → Prop
  /-- A setting under its name. -/
  | setting {choice : Choice} {body : List Char} {value : Json}
      (hname : Json.StandsFor body choice.field.name.toList) (hvalue : choice.StoredAs value) :
      StoredAs (.setting choice) (body, value)
  /-- Anything under the name of no setting. -/
  | other {name body : List Char} {value : Json} (hname : Json.StandsFor body name)
      (hother : ∀ f : Field, f.name.toList ≠ name) : StoredAs (.other name value) (body, value)

end Entry

/-- The choices that entries make, in their order. -/
def choices (entries : List Entry) : List Choice := entries.filterMap Entry.choice?

/-- The choices are those of the entries that are settings. -/
theorem mem_choices_iff {entries : List Entry} {c : Choice} :
    c ∈ choices entries ↔ .setting c ∈ entries := by
  rw [choices, List.mem_filterMap]
  constructor
  · rintro ⟨entry, hentry, heq⟩
    cases entry with
    | setting c' => exact Option.some.inj heq ▸ hentry
    | other => exact absurd heq (by simp [Entry.choice?])
  · exact fun h ↦ ⟨_, h, rfl⟩

/-- No setting is chosen twice. -/
def Once (entries : List Entry) : Prop := ((choices entries).map Choice.field).Nodup

/-- Settings are those that entries choose, and the default ones for the rest. -/
structure Completes (settings : Settings) (entries : List Entry) : Prop where
  /-- Each setting that is chosen is as it is chosen. -/
  given : ∀ c, .setting c ∈ entries → settings.chosen c.field = c
  /-- Each setting that is not chosen is as it is by default. -/
  rest : ∀ f, (∀ c, .setting c ∈ entries → c.field ≠ f) → settings.chosen f = standard.chosen f

/-- **Entries are completed by one list of settings at most.** -/
theorem Completes.unique {s t : Settings} {entries : List Entry} (hs : Completes s entries)
    (ht : Completes t entries) : s = t := by
  refine ext_chosen fun f ↦ ?_
  by_cases h : ∃ c, .setting c ∈ entries ∧ c.field = f
  · obtain ⟨c, hc, rfl⟩ := h
    rw [hs.given c hc, ht.given c hc]
  · have hrest : ∀ c, .setting c ∈ entries → c.field ≠ f := fun c hc heq ↦ h ⟨c, hc, heq⟩
    rw [hs.rest f hrest, ht.rest f hrest]

/-! ### Choices beside those that are taken -/

/-- No setting is chosen twice, and none that is taken already. -/
structure OnceBeside (taken : List Field) (entries : List Entry) : Prop where
  /-- No setting is chosen twice. -/
  once : Once entries
  /-- None of those that are taken is chosen. -/
  fresh : ∀ c ∈ choices entries, c.field ∉ taken

section OnceBeside

variable {taken : List Field} {entries : List Entry} {c : Choice} {name : List Char} {value : Json}

/-- Without entries there is nothing to choose twice. -/
theorem onceBeside_nil : OnceBeside taken [] :=
  ⟨List.nodup_nil, fun _ hc ↦ absurd hc List.not_mem_nil⟩

/-- Beside nothing, it is only that no setting is chosen twice. -/
theorem onceBeside_nil_left_iff : OnceBeside [] entries ↔ Once entries :=
  ⟨OnceBeside.once, fun h ↦ ⟨h, fun _ _ ↦ List.not_mem_nil⟩⟩

/-- A member of another name takes nothing. -/
theorem onceBeside_other_cons_iff :
    OnceBeside taken (.other name value :: entries) ↔ OnceBeside taken entries :=
  ⟨fun ⟨honce, hfresh⟩ ↦ ⟨honce, hfresh⟩, fun ⟨honce, hfresh⟩ ↦ ⟨honce, hfresh⟩⟩

/-- What is chosen is taken from then on. -/
theorem onceBeside_setting_cons_iff :
    OnceBeside taken (.setting c :: entries) ↔
      c.field ∉ taken ∧ OnceBeside (c.field :: taken) entries := by
  constructor
  · rintro ⟨honce, hfresh⟩
    obtain ⟨honly, honce⟩ := List.nodup_cons.1 honce
    obtain ⟨hnew, hfresh⟩ := List.forall_mem_cons.1 hfresh
    refine ⟨hnew, honce, fun d hd hmem ↦ ?_⟩
    rcases List.mem_cons.1 hmem with hsame | hmem
    · exact honly (hsame ▸ List.mem_map_of_mem hd)
    · exact hfresh d hd hmem
  · rintro ⟨hnew, honce, hfresh⟩
    refine ⟨List.nodup_cons.2 ⟨fun hmem ↦ ?_, honce⟩,
      List.forall_mem_cons.2 ⟨hnew, fun d hd hmem ↦ ?_⟩⟩
    · obtain ⟨d, hd, hfield⟩ := List.mem_map.1 hmem
      exact hfresh d hd (hfield ▸ List.mem_cons_self)
    · exact hfresh d hd (List.mem_cons_of_mem _ hmem)

end OnceBeside

/-! ### Choosing one after the other -/

/-- A setting that is never chosen stays as it was. -/
theorem chosen_foldl_of_not_mem {cs : List Choice} {settings : Settings} {f : Field}
    (h : f ∉ cs.map Choice.field) : (cs.foldl choose settings).chosen f = settings.chosen f := by
  induction cs generalizing settings with
  | nil => rfl
  | cons c cs ih =>
    obtain ⟨hc, hcs⟩ := List.ne_and_not_mem_of_not_mem_cons h
    rw [List.foldl_cons, ih hcs, chosen_choose, if_neg (Ne.symm hc)]

/-- A setting that is chosen once is as it is chosen, wherever that choice stands. -/
theorem chosen_foldl_of_mem {cs : List Choice} {settings : Settings} {c : Choice}
    (honce : (cs.map Choice.field).Nodup) (h : c ∈ cs) :
    (cs.foldl choose settings).chosen c.field = c := by
  induction cs generalizing settings with
  | nil => exact absurd h List.not_mem_nil
  | cons d cs ih =>
    obtain ⟨hd, hcs⟩ := List.nodup_cons.1 honce
    rcases List.mem_cons.1 h with rfl | h
    · rw [List.foldl_cons, chosen_foldl_of_not_mem hd, chosen_choose, if_pos rfl]
    · exact ih hcs h

/-- Entries that choose no setting twice are completed by choosing one after the other. -/
theorem completes_foldl {entries : List Entry} (honce : Once entries) :
    Completes ((choices entries).foldl choose standard) entries where
  given _ hc := chosen_foldl_of_mem honce (mem_choices_iff.2 hc)
  rest f hf := chosen_foldl_of_not_mem fun hmem ↦ by
    obtain ⟨c, hc, rfl⟩ := List.mem_map.1 hmem
    exact hf c (mem_choices_iff.1 hc) rfl

/-! ### Reading one member -/

/-- A name is that of the field whose name it is. -/
theorem Field.ofName?_eq_some_iff {name : List Char} {f : Field} :
    Field.ofName? name = some f ↔ f.name.toList = name := by
  constructor
  · intro h
    have hfound := List.find?_some h
    exact eq_of_beq hfound
  · rintro rfl
    cases f <;> rfl

/-- A name is that of no field if no field has it. -/
theorem Field.ofName?_eq_none_iff {name : List Char} :
    Field.ofName? name = none ↔ ∀ f : Field, f.name.toList ≠ name := by
  rw [Option.eq_none_iff_forall_ne_some]
  simp only [ne_eq, Field.ofName?_eq_some_iff]

/-- A value is taken for a field exactly if it stores a choice of that field, which is then chosen.
-/
theorem Field.set?_eq_some_iff {settings settings' : Settings} {f : Field} {value : Json}
    {t : List Char} (h : Json.Written value t) : f.set? settings value = some settings' ↔
      ∃ c : Choice, c.field = f ∧ c.StoredAs value ∧ settings' = settings.choose c := by
  constructor
  · intro hset
    rw [Field.set?.eq_def] at hset
    split at hset
    · exact ⟨_, rfl, .allowCalls _, (Option.some.inj hset).symm⟩
    · exact ⟨_, rfl, .completeImports _, (Option.some.inj hset).symm⟩
    · split at hset
      · rename_i c hdecode
        exact ⟨_, rfl, .keyQuote ((Json.decode?_eq_some_iff h.stringBody).1 hdecode),
          (Option.some.inj hset).symm⟩
      · exact absurd hset (by simp)
    · exact absurd hset (by simp)
  · rintro ⟨c, rfl, hvalue, rfl⟩
    cases hvalue with
    | allowCalls b => rfl
    | completeImports b => rfl
    | keyQuote hbody =>
      rw [Choice.field, Field.set?, Json.decode?_of_standsFor hbody]
      rfl

/-! ### Reading members -/

section Members

variable {settings settings' : Settings} {taken : List Field} {body t : List Char} {value : Json}
  {members : List (List Char × Json)}

/-- A member of another name is passed over, whatever its value is. -/
theorem ofMembers?_other {name : List Char} (hname : Json.StandsFor body name)
    (hother : ∀ f : Field, f.name.toList ≠ name) :
    ofMembers? settings taken ((body, value) :: members) = ofMembers? settings taken members := by
  rw [ofMembers?, Json.decode?_of_standsFor hname]
  dsimp only
  rw [Field.ofName?_eq_none_iff.2 hother]

/-- A setting that is not taken yet is chosen, and is taken for what follows. -/
theorem ofMembers?_setting {c : Choice} (hname : Json.StandsFor body c.field.name.toList)
    (hwritten : Json.Written value t) (hvalue : c.StoredAs value) (hnew : c.field ∉ taken) :
    ofMembers? settings taken ((body, value) :: members) =
      ofMembers? (settings.choose c) (c.field :: taken) members := by
  rw [ofMembers?, Json.decode?_of_standsFor hname]
  dsimp only
  rw [Field.ofName?_eq_some_iff.2 rfl]
  dsimp only
  rw [if_neg (by rwa [List.contains_iff_mem]),
    (Field.set?_eq_some_iff hwritten).2 ⟨c, rfl, hvalue, rfl⟩]

/-- All that can be done with a member: it is passed over, or a setting that is not taken is
chosen. -/
theorem exists_entry_of_ofMembers? (hwritten : Json.WrittenMember (body, value) t)
    (h : ofMembers? settings taken ((body, value) :: members) = some settings') :
    (∃ name, Entry.StoredAs (.other name value) (body, value) ∧
      ofMembers? settings taken members = some settings') ∨
    ∃ c, Entry.StoredAs (.setting c) (body, value) ∧ c.field ∉ taken ∧
      ofMembers? (settings.choose c) (c.field :: taken) members = some settings' := by
  obtain ⟨hbody, -, -, hvalue⟩ := hwritten
  rw [ofMembers?] at h
  split at h
  · exact absurd h (by simp)
  · rename_i name hdecode
    have hname := (Json.decode?_eq_some_iff hbody).1 hdecode
    split at h
    · rename_i hother
      exact .inl ⟨name, .other hname (Field.ofName?_eq_none_iff.1 hother), h⟩
    · rename_i field hfield
      split at h
      · exact absurd h (by simp)
      · rename_i hnew
        split at h
        · exact absurd h (by simp)
        · rename_i chosen hset
          obtain ⟨c, rfl, hstored, rfl⟩ := (Field.set?_eq_some_iff hvalue).1 hset
          rw [← Field.ofName?_eq_some_iff.1 hfield] at hname
          exact .inr ⟨c, .setting hname hstored, by rwa [List.contains_iff_mem] at hnew, h⟩

/-- Members are read one after the other: none of the settings that are taken, and none twice. -/
theorem ofMembers?_eq_some_iff (hmembers : ∀ m ∈ members, ∃ t, Json.WrittenMember m t) :
    ofMembers? settings taken members = some settings' ↔
      ∃ entries, List.Forall₂ Entry.StoredAs entries members ∧ OnceBeside taken entries ∧
        settings' = (choices entries).foldl choose settings := by
  induction members generalizing settings taken with
  | nil =>
    rw [ofMembers?, Option.some.injEq]
    constructor
    · rintro rfl
      exact ⟨[], .nil, onceBeside_nil, rfl⟩
    · rintro ⟨entries, hentries, -, heq⟩
      cases hentries
      exact heq.symm
  | cons m members ih =>
    obtain ⟨⟨t, hwritten⟩, hrest⟩ := List.forall_mem_cons.1 hmembers
    obtain ⟨body, value⟩ := m
    constructor
    · intro h
      rcases exists_entry_of_ofMembers? hwritten h with ⟨name, hentry, h⟩ | ⟨c, hentry, hnew, h⟩
      · obtain ⟨entries, hentries, honce, heq⟩ := (ih hrest).1 h
        exact ⟨_, .cons hentry hentries, onceBeside_other_cons_iff.2 honce, heq⟩
      · obtain ⟨entries, hentries, honce, heq⟩ := (ih hrest).1 h
        exact ⟨_, .cons hentry hentries, onceBeside_setting_cons_iff.2 ⟨hnew, honce⟩, heq⟩
    · rintro ⟨entries, hall, honce, heq⟩
      obtain ⟨entry, entries, hentry, hentries, rfl⟩ := List.forall₂_cons_right_iff.1 hall
      cases hentry with
      | other hname hother =>
        rw [ofMembers?_other hname hother]
        exact (ih hrest).2 ⟨entries, hentries, onceBeside_other_cons_iff.1 honce, heq⟩
      | setting hname hvalue =>
        obtain ⟨hnew, honce⟩ := onceBeside_setting_cons_iff.1 honce
        obtain ⟨-, -, -, hj⟩ := hwritten
        rw [ofMembers?_setting hname hj hvalue hnew]
        exact (ih hrest).2 ⟨entries, hentries, honce, heq⟩

end Members

/-- **An object is read as the settings that it stands for**, and it stands for some when it holds
settings, none of them twice, among members of other names. -/
theorem read?_object_iff {members : List (List Char × Json)} {text : List Char}
    {settings : Settings} (h : Json.Document (.object members) text) :
    read? text = some settings ↔
      ∃ entries, List.Forall₂ Entry.StoredAs entries members ∧ Once entries ∧
        Completes settings entries := by
  rw [read?, Json.read?_eq_some_iff.2 h, Option.bind_some, ofJson?,
    ofMembers?_eq_some_iff h.exists_written]
  simp only [onceBeside_nil_left_iff]
  constructor
  · rintro ⟨entries, hentries, honce, rfl⟩
    exact ⟨entries, hentries, honce, completes_foldl honce⟩
  · rintro ⟨entries, hentries, honce, hcompletes⟩
    exact ⟨entries, hentries, honce, hcompletes.unique (completes_foldl honce)⟩

/-! ### Settings as they are written -/

/-- The JSON value that a setting is stored as. -/
def stored (settings : Settings) : Field → Json
  | .allowCalls => .bool settings.allowCalls
  | .completeImports => .bool settings.completeImports
  | .keyQuote => .string (Json.encode [settings.rawQuote])

/-- Each setting is stored as its own value. -/
theorem storedAs_stored (settings : Settings) (f : Field) :
    (settings.chosen f).StoredAs (settings.stored f) := by
  cases f with
  | allowCalls => exact .allowCalls _
  | completeImports => exact .completeImports _
  | keyQuote => exact .keyQuote (Json.standsFor_encode _)

/-- The text of a setting's value is one that the value may be written as. -/
theorem written_stored (settings : Settings) (f : Field) :
    Json.Written (settings.stored f) (f.text settings) := by
  cases f with
  | allowCalls => exact .bool _
  | completeImports => exact .bool _
  | keyQuote => exact .string (Json.standsFor_encode _).stringBody

/-- The names of settings need no escapes. -/
theorem Field.standsFor_name (f : Field) : Json.StandsFor f.name.toList f.name.toList := by
  have hplain : f.name.toList.all (fun c ↦ decide (Json.Plain c)) = true := by cases f <;> decide
  exact Json.standsFor_self fun c hc ↦ of_decide_eq_true (List.all_eq_true.1 hplain c hc)

/-- **Settings are written as an object** of all settings with their values. -/
theorem document_toJson (settings : Settings) :
    Json.Document (.object (Field.all.map fun f ↦ (f.name.toList, settings.stored f)))
      settings.toJson := by
  have hmember : ∀ f : Field, Json.WrittenMember (f.name.toList, settings.stored f)
      ('"' :: f.name.toList ++ '"' :: ':' :: f.text settings) := fun f ↦
    .mk f.standsFor_name.stringBody Json.space_nil Json.space_nil (settings.written_stored f)
  have hmembers : List.Forall₂ Json.WrittenMember
      (Field.all.map fun f ↦ (f.name.toList, settings.stored f))
      (Field.all.map fun f ↦ '"' :: f.name.toList ++ '"' :: ':' :: f.text settings) := by
    rw [List.forall₂_map_left_iff, List.forall₂_map_right_iff, List.forall₂_same]
    exact fun f _ ↦ hmember f
  refine ⟨[], settings.toJson, [], by simp, Json.space_nil, ?_, Json.space_nil⟩
  exact .object (Json.writtenMembers_intercalate hmembers (by simp [Field.all]))

/-- The entries of settings as they are written. -/
def entries (settings : Settings) : List Entry :=
  Field.all.map fun f ↦ .setting (settings.chosen f)

/-- Settings complete the entries of their own. -/
theorem completes_entries (settings : Settings) : Completes settings settings.entries where
  given c hc := by
    obtain ⟨f, -, heq⟩ := List.mem_map.1 hc
    obtain rfl := Entry.setting.inj heq
    rw [field_chosen]
  rest f hf := by
    refine absurd (field_chosen settings f) (hf _ (List.mem_map.2 ⟨f, ?_, rfl⟩))
    cases f <;> decide

/-- Settings that are written are had back. -/
theorem read?_toJson (settings : Settings) : read? settings.toJson = some settings := by
  refine (read?_object_iff settings.document_toJson).2
    ⟨settings.entries, ?_, ?_, settings.completes_entries⟩
  · rw [entries, List.forall₂_map_left_iff, List.forall₂_map_right_iff, List.forall₂_same]
    intro f _
    refine .setting ?_ (settings.storedAs_stored f)
    rw [field_chosen]
    exact f.standsFor_name
  · show ([.allowCalls, .completeImports, .keyQuote] : List Field).Nodup
    decide

/-! ### Storing and reading -/

/-- A text that is an object of some entries, in their order, each written in any way. -/
def StoredIn (entries : List Entry) (text : List Char) : Prop :=
  ∃ members, List.Forall₂ Entry.StoredAs entries members ∧ Json.Document (.object members) text

/-- **Settings survive being stored**, and an object that names only some of them stands for those
and the default for the rest, whatever else it holds. -/
theorem read?_stored :
    (∀ settings : Settings, read? settings.toJson = some settings) ∧
      ∀ entries text, Once entries → StoredIn entries text →
        ∃ settings, read? text = some settings ∧ Completes settings entries := by
  refine ⟨read?_toJson, ?_⟩
  rintro entries text honce ⟨members, hentries, hdocument⟩
  have hcompletes := completes_foldl honce
  exact ⟨_, (read?_object_iff hdocument).2 ⟨entries, hentries, honce, hcompletes⟩, hcompletes⟩

/-- A quote beyond the first plane, under a name with an escape, behind a member of another
name. -/
theorem read?_stored_behind_other :
    Once [.other ['x'] (.array [.object []]), .setting (.keyQuote '😀')] ∧
      StoredIn [.other ['x'] (.array [.object []]), .setting (.keyQuote '😀')]
        "\x7b\"x\": [\x7b\x7d], \"key_\\u0071uote\":\"\\ud83d\\ude00\"\x7d".toList ∧
      ∃ settings,
        read? "\x7b\"x\": [\x7b\x7d], \"key_\\u0071uote\":\"\\ud83d\\ude00\"\x7d".toList =
          some settings ∧
        Completes settings [.other ['x'] (.array [.object []]), .setting (.keyQuote '😀')] := by
  have honce : Once [.other ['x'] (.array [.object []]), .setting (.keyQuote '😀')] := by
    show ([.keyQuote] : List Field).Nodup
    decide
  have hx : Json.StandsFor ['x'] ['x'] := by decide
  have hname : Json.StandsFor "key_\\u0071uote".toList "key_quote".toList := by
    decide +kernel
  have hquote : Json.StandsFor "\\ud83d\\ude00".toList ['😀'] := by decide +kernel
  have hstored : StoredIn [.other ['x'] (.array [.object []]), .setting (.keyQuote '😀')]
      "\x7b\"x\": [\x7b\x7d], \"key_\\u0071uote\":\"\\ud83d\\ude00\"\x7d".toList := by
    refine ⟨_, .cons (.other hx fun f ↦ by cases f <;> decide)
      (.cons (.setting hname (.keyQuote hquote)) .nil), ?_⟩
    exact Json.read?_eq_some_iff.1 (by with_unfolding_all rfl)
  exact ⟨honce, hstored, read?_stored.2 _ _ honce hstored⟩

end Settings

end LineCompletion
