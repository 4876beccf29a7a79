import LineCompletion.Proofs.Module.Places
import Mathlib.Data.List.Perm.Basic
import Mathlib.Data.List.TakeDrop
import Mathlib.Data.String.Basic

/-!
# The order in which folders are read

A folder may list its entries in any order. Here two readings of the same folder are related: the
names in it are different, and the entries are the same up to their order, in the folder itself and
in every folder inside it (`FileEntry.Reordered`). A path leads to a file in both readings or in
neither (`hasFile_eq`), so that the same folders are packages.

The modules of a folder are sorted by their names and kinds, and those tell its modules apart
(`eq_of_mem_entryModules`): with the extension, the name of a module is the name of its file. So the
modules are the same in both readings, one by one and in order (`entryModule?_eq`,
`rootModules_eq`).

**Two steps at each folder.** A reading differs from another in the order of the entries and in how
each entry is read in turn. `FileEntry.Reordered` keeps the two apart: the entries are permuted
first, and then read one by one (`FileEntry.EachReordered`). Each half has its own lemma. A
permutation permutes the modules (`entryModules_perm`), and sorting undoes that. Reading the entries
again gives equal modules, by recursion on the tree.

**Why sorting undoes it.** Sorting gives one result for a permuted list if only equal modules come
before each other. The order of modules compares names and kinds, so it cannot see what is inside a
package; within one folder it need not, since two modules of one name and kind come from one entry.
That is why `sorted_eq_of_perm` has a condition on the list.

**Paths.** The file that makes a folder a package may be given by a path that leads up and down
again. Therefore the folders around are carried along, and two readings of them are related one by
one. Looking a name up is the same in both readings because the names of a folder are different
(`find?_eq_of_perm`).
-/

namespace LineCompletion

/-! ### Two readings of a file system -/

mutual

/-- Two readings of an entry: the entries of each folder come in some other order, and each of them
is read twice in turn. -/
inductive FileEntry.Reordered : FileEntry → FileEntry → Prop
  | file : Reordered .file .file
  | folder {entries moved entries' : Folder} (distinct : (entries.map Prod.fst).Nodup)
      (order : entries.Perm moved) (each : EachReordered moved entries') :
      Reordered (.folder entries) (.folder entries')

/-- Two readings of some entries, in the same order. -/
inductive FileEntry.EachReordered : Folder → Folder → Prop
  | nil : EachReordered [] []
  | cons {name : String} {entry entry' : FileEntry} {rest rest' : Folder}
      (first : Reordered entry entry') (others : EachReordered rest rest') :
      EachReordered ((name, entry) :: rest) ((name, entry') :: rest')

end

open FileEntry

namespace Folder

/-- Two readings of a folder. -/
abbrev Reordered (folder folder' : Folder) : Prop :=
  FileEntry.Reordered (.folder folder) (.folder folder')

/-- A name is found in a folder exactly if the folder has such an entry. -/
theorem find?_eq_some_iff {folder : Folder} (hdistinct : (folder.map Prod.fst).Nodup)
    {name : String} {entry : FileEntry} :
    folder.find? name = some entry ↔ (name, entry) ∈ folder := by
  induction folder with
  | nil => simp [find?]
  | cons first rest ih =>
    obtain ⟨other, entry'⟩ := first
    rw [List.map_cons, List.nodup_cons] at hdistinct
    rw [find?, List.find?_cons]
    by_cases hname : other = name
    · subst hname
      have hlater : (other, entry) ∉ rest := fun h ↦
        hdistinct.1 (List.mem_map.2 ⟨(other, entry), h, rfl⟩)
      simp [hlater, eq_comm]
    · rw [beq_false_of_ne hname, List.mem_cons, Prod.mk.injEq]
      exact (ih hdistinct.2).trans (by simp [Ne.symm hname])

/-- The order of the entries does not matter to what is found under a name. -/
theorem find?_eq_of_perm {folder moved : Folder} (hdistinct : (folder.map Prod.fst).Nodup)
    (horder : folder.Perm moved) (name : String) : folder.find? name = moved.find? name := by
  have hmoved : (moved.map Prod.fst).Nodup := (horder.map Prod.fst).nodup_iff.1 hdistinct
  refine Option.ext fun entry ↦ ?_
  rw [find?_eq_some_iff hdistinct, find?_eq_some_iff hmoved, horder.mem_iff]

/-- Under a name two readings of the same entries find two readings of one entry, or nothing. -/
theorem find?_rel {folder folder' : Folder} (name : String) :
    EachReordered folder folder' →
      Option.Rel FileEntry.Reordered (folder.find? name) (folder'.find? name)
  | .nil => .none
  | @EachReordered.cons other _ _ _ _ first others => by
    rw [find?, List.find?_cons, find?, List.find?_cons]
    cases other == name with
    | true => exact .some first
    | false => exact find?_rel name others

/-- The same names are found in two readings, and two readings of the same entries. -/
theorem Reordered.find?_rel {folder folder' : Folder} (h : folder.Reordered folder')
    (name : String) :
    Option.Rel FileEntry.Reordered (folder.find? name) (folder'.find? name) := by
  cases h with
  | folder hdistinct horder heach =>
    rw [find?_eq_of_perm hdistinct horder]
    exact Folder.find?_rel name heach

/-- **A path leads to a file in both readings or in neither.** -/
theorem hasFile_eq {around around' : List Folder} {path : List String} {folder folder' : Folder}
    (haround : List.Forall₂ Reordered around around') (hfolder : folder.Reordered folder') :
    hasFile around path folder = hasFile around' path folder' := by
  induction path generalizing around around' folder folder' with
  | nil => rfl
  | cons name rest ih =>
    have hfind := hfolder.find?_rel name
    obtain - | ⟨next, rest⟩ := rest
    · rw [hasFile, hasFile]
      generalize folder.find? name = found, folder'.find? name = found' at hfind
      obtain (⟨⟨⟩⟩ | ⟨⟩) := hfind <;> rfl
    · simp only [hasFile]
      split_ifs with hhere hback
      · exact ih haround hfolder
      · cases haround with
        | nil => rfl
        | cons houter haround => exact ih haround houter
      · generalize folder.find? name = found, folder'.find? name = found' at hfind
        obtain (⟨⟨⟩⟩ | ⟨⟩) := hfind
        · rfl
        · exact ih (.cons hfolder haround) (.folder ‹_› ‹_› ‹_›)
        · rfl

end Folder

/-- Two readings of a folder of the search path, and of the folders around it. -/
structure SearchRoot.Reordered (root root' : SearchRoot) : Prop where
  /-- What is in it. -/
  entries : root.entries.Reordered root'.entries
  /-- The folders around it. -/
  around : List.Forall₂ Folder.Reordered root.around root'.around

namespace ModuleSearch

/-! ### Modules of a folder -/

section Keys

variable {search : ModuleSearch} {around : List Folder} {name stem extension : String}
  {entry : FileEntry} {entries : Folder} {m m' : ModuleTree}

/-- A name divided before its extension is its two parts with a dot between them. -/
theorem eq_append_of_splitExtension (h : splitExtension name = (stem, some extension)) :
    name = stem ++ "." ++ extension := by
  rw [splitExtension] at h
  split at h
  · rename_i reversed extension' c stem' hspan
    obtain ⟨rfl, hextension⟩ := Prod.mk.inj h
    obtain rfl := Option.some.inj hextension
    have hreversed : name.toList.reverse = extension' ++ '.' :: c :: stem' := by
      have hparts := List.takeWhile_append_dropWhile (p := (· != '.')) (l := name.toList.reverse)
      rw [List.span_eq_takeWhile_dropWhile, Prod.mk.injEq] at hspan
      rw [← hparts, hspan.1, hspan.2]
    have hname := congrArg List.reverse hreversed
    rw [List.reverse_reverse] at hname
    rw [← String.toList_inj, hname]
    simp
  · exact absurd (Prod.mk.inj h).2 (by simp)

/-- The name of an entry is that of its module, with the extension if it is a file. -/
theorem name_of_entryModule? (h : search.entryModule? around name entry = some m) :
    name = if m.isPackage then m.name else m.name ++ "." ++ search.extension := by
  cases entry with
  | file =>
    rw [entryModule?] at h
    split at h
    split at h
    · rename_i stem extension hsplit hfile
      obtain rfl := Option.some.inj h
      simp only [Bool.and_eq_true, beq_iff_eq] at hfile
      rw [hfile.1.1] at hsplit
      exact eq_append_of_splitExtension hsplit
    · exact absurd h (by simp)
  | folder entries =>
    rw [entryModule?] at h
    split at h
    · obtain rfl := Option.some.inj h
      rfl
    · exact absurd h (by simp)

/-- The modules of a folder are those that its entries are. -/
theorem mem_entryModules_iff : m ∈ search.entryModules around entries ↔
    ∃ name entry, (name, entry) ∈ entries ∧ search.entryModule? around name entry = some m := by
  induction entries with
  | nil => simp [entryModules]
  | cons first rest ih =>
    obtain ⟨name, entry⟩ := first
    rw [entryModules, List.mem_append, Option.mem_toList, ih]
    simp only [List.mem_cons, Prod.mk.injEq]
    grind

/-- **The name and the kind of a module tell it apart from the others of its folder.** -/
theorem eq_of_mem_entryModules (hdistinct : (entries.map Prod.fst).Nodup)
    (h : m ∈ search.entryModules around entries) (h' : m' ∈ search.entryModules around entries)
    (hname : m.name = m'.name) (hkind : m.isPackage = m'.isPackage) : m = m' := by
  obtain ⟨name, entry, hentry, hm⟩ := mem_entryModules_iff.1 h
  obtain ⟨name', entry', hentry', hm'⟩ := mem_entryModules_iff.1 h'
  obtain rfl : name = name' := by
    rw [name_of_entryModule? hm, name_of_entryModule? hm', hname, hkind]
  rw [← Folder.find?_eq_some_iff hdistinct] at hentry hentry'
  obtain rfl := Option.some.inj (hentry.symm.trans hentry')
  exact Option.some.inj (hm.symm.trans hm')

end Keys

/-! ### Sorted modules -/

section Sorted

variable {a b c : ModuleTree}

/-- The order of modules is that of their names, and for one name a module comes before a package.
-/
theorem precedes_iff : a.precedes b = true ↔
    a.name < b.name ∨ a.name = b.name ∧ (a.isPackage = true → b.isPackage = true) := by
  rw [ModuleTree.precedes]
  cases a.isPackage <;> cases b.isPackage <;> simp

theorem precedes_total (a b : ModuleTree) : (a.precedes b || b.precedes a) = true := by
  rw [Bool.or_eq_true, precedes_iff, precedes_iff]
  rcases lt_trichotomy a.name b.name with h | h | h
  · exact .inl (.inl h)
  · cases hkind : a.isPackage with
    | false => exact .inl (.inr ⟨h, fun hpackage ↦ absurd hpackage (by simp)⟩)
    | true => exact .inr (.inr ⟨h.symm, fun _ ↦ rfl⟩)
  · exact .inr (.inl h)

theorem precedes_trans (h : a.precedes b = true) (h' : b.precedes c = true) :
    a.precedes c = true := by
  rw [precedes_iff] at h h' ⊢
  rcases h with h | ⟨h, hkind⟩ <;> rcases h' with h' | ⟨h', hkind'⟩
  · exact .inl (h.trans h')
  · exact .inl (h' ▸ h)
  · exact .inl (h ▸ h')
  · exact .inr ⟨h.trans h', hkind' ∘ hkind⟩

/-- Modules that come before each other have one name and are of one kind. -/
theorem eq_of_precedes (h : a.precedes b = true) (h' : b.precedes a = true) :
    a.name = b.name ∧ a.isPackage = b.isPackage := by
  rw [precedes_iff] at h h'
  rcases h with h | ⟨hname, hkind⟩
  · rcases h' with h' | ⟨hname, -⟩
    · exact absurd h' (lt_asymm h)
    · exact absurd hname h.ne'
  · refine ⟨hname, Bool.eq_iff_iff.2 ⟨hkind, ?_⟩⟩
    rcases h' with h' | ⟨-, hkind'⟩
    · exact absurd hname h'.ne'
    · exact hkind'

/-- Sorted modules are in this order throughout. -/
theorem pairwise_sorted (modules : List ModuleTree) :
    (sorted modules).Pairwise fun a b ↦ a.precedes b = true := by
  have htrans (a b c : ModuleTree) (h : a.precedes b = true) (h' : b.precedes c = true) :
      a.precedes c = true := precedes_trans h h'
  exact List.pairwise_mergeSort htrans precedes_total modules

/-- Modules that are told apart by their names and kinds are sorted in one way only. -/
theorem sorted_eq_of_perm {modules modules' : List ModuleTree} (hperm : modules.Perm modules')
    (hkeys : ∀ m ∈ modules, ∀ m' ∈ modules, m.name = m'.name → m.isPackage = m'.isPackage →
      m = m') : sorted modules = sorted modules' := by
  have hsorted : (sorted modules).Perm (sorted modules') :=
    (sorted_perm modules).trans (hperm.trans (sorted_perm modules').symm)
  refine hsorted.eq_of_pairwise (fun a b ha hb hab hba ↦ ?_) (pairwise_sorted _)
    (pairwise_sorted _)
  obtain ⟨hname, hkind⟩ := eq_of_precedes hab hba
  exact hkeys a (mem_sorted_iff.1 ha) b (hperm.mem_iff.2 (mem_sorted_iff.1 hb)) hname hkind

end Sorted

/-! ### Modules of two readings -/

/-- The same search with every folder read in some other order. -/
structure Reordered (search search' : ModuleSearch) : Prop where
  /-- The folders of the search path. -/
  roots : List.Forall₂ SearchRoot.Reordered search.roots search'.roots
  /-- The extension is the same. -/
  extension : search'.extension = search.extension
  /-- The marker is the same. -/
  marker : search'.marker = search.marker
  /-- The folder that a path with a slash in front leads from. -/
  top : search.top.Reordered search'.top

variable {search search' : ModuleSearch} {around around' : List Folder}

/-- A folder is a package in both readings or in neither. -/
theorem Reordered.hasMarker_eq (h : search.Reordered search')
    (haround : List.Forall₂ Folder.Reordered around around') {entries entries' : Folder}
    (hentries : entries.Reordered entries') :
    search.hasMarker around entries = search'.hasMarker around' entries' := by
  rw [hasMarker, hasMarker, h.marker, Folder.hasFile_eq .nil h.top,
    Folder.hasFile_eq haround hentries]

/-- In another order the entries of a folder are the same modules, in another order. -/
theorem entryModules_perm {entries moved : Folder} (horder : entries.Perm moved) :
    (search.entryModules around entries).Perm (search.entryModules around moved) := by
  induction horder with
  | nil => exact .nil
  | cons entry _ ih =>
    rw [entryModules, entryModules]
    exact ih.append_left _
  | swap entry other rest =>
    rw [entryModules, entryModules, entryModules, entryModules, ← List.append_assoc,
      ← List.append_assoc]
    exact List.perm_append_comm.append_right _
  | trans _ _ ih ih' => exact ih.trans ih'

/-- Sorted, the modules of both readings of a folder are the same. -/
theorem sorted_entryModules_eq {entries moved entries' : Folder}
    (hdistinct : (entries.map Prod.fst).Nodup) (horder : entries.Perm moved)
    (heach : search.entryModules around moved = search'.entryModules around' entries') :
    sorted (search.entryModules around entries) =
      sorted (search'.entryModules around' entries') := by
  rw [← heach]
  exact sorted_eq_of_perm (entryModules_perm horder) fun _ hm _ hm' ↦
    eq_of_mem_entryModules hdistinct hm hm'

mutual

/-- **An entry is the same module in both readings.** -/
theorem entryModule?_eq (h : search.Reordered search') (name : String) :
    {entry entry' : FileEntry} → entry.Reordered entry' →
      ∀ {around around'}, List.Forall₂ Folder.Reordered around around' →
        search.entryModule? around name entry = search'.entryModule? around' name entry'
  | _, _, .file, _, _, _ => by
    rw [entryModule?, entryModule?, h.extension, markerStem, markerStem, h.marker]
  | .folder entries, .folder entries', .folder hdistinct horder heach, _, _, haround => by
    have hentries : Folder.Reordered entries entries' := .folder hdistinct horder heach
    have hinside := sorted_entryModules_eq hdistinct horder
      (entryModules_eq h heach (.cons hentries haround))
    simp only [entryModule?, h.hasMarker_eq haround hentries, hinside]

theorem entryModules_eq (h : search.Reordered search') :
    {entries entries' : Folder} → EachReordered entries entries' →
      ∀ {around around'}, List.Forall₂ Folder.Reordered around around' →
        search.entryModules around entries = search'.entryModules around' entries'
  | _, _, .nil, _, _, _ => rfl
  | _, _, .cons first others, _, _, haround => by
    rw [entryModules, entryModules, entryModule?_eq h _ first haround,
      entryModules_eq h others haround]

end

/-- A folder of the search path has the same modules in both readings. -/
theorem rootModules_eq (h : search.Reordered search') {root root' : SearchRoot}
    (hroot : root.Reordered root') : search.rootModules root = search'.rootModules root' := by
  obtain ⟨hentries, haround⟩ := hroot
  cases hentries with
  | folder hdistinct horder heach =>
    exact sorted_entryModules_eq hdistinct horder
      (entryModules_eq h heach (.cons (.folder hdistinct horder heach) haround))

/-- **What is found does not depend on the order in which folders are read.** -/
theorem flatMap_rootModules_eq (h : search.Reordered search') :
    search.roots.flatMap search.rootModules = search'.roots.flatMap search'.rootModules := by
  have hroots := h.roots
  generalize search.roots = roots, search'.roots = roots' at hroots
  induction hroots with
  | nil => rfl
  | cons hroot _ ih => rw [List.flatMap_cons, List.flatMap_cons, rootModules_eq h hroot, ih]

end ModuleSearch

end LineCompletion
