import LineCompletion.Module.Search
import Mathlib.Data.List.Basic
import Mathlib.Data.List.Nodup

/-!
# Where modules stand in a listing

A listing names every module in full, with the packages that it is inside of in front. Here a module
is given by its place instead, the names of those packages and its own, in a list (`places`). That
comes to the same (`listings_eq`), and a full name is read back as the place by dividing it at its
dots, since no module has a dot in its name (`splitOn_fullName`).

On places the structure of a listing can be read off the trees that are listed. If they are in order
(`Tidy`), which they are if they come from a search (`tidy_of_mem_entryModules`), no place is listed
twice (`nodup_placesAll`), and the packages that a module is inside of are listed before it
(`mem_of_placesAll_eq_append`).

**Tidy trees.** A module tree is tidy when its names are names, a module that is no package has
nothing inside it, and the names side by side are different, all the way down. A search makes such
trees by construction: it takes an entry of a folder only if its name can be written in a statement,
and of several modules with one name it keeps the first (`nodup_distinct`). All that is shown of
listings rests on this condition and on nothing else about the search.

**Trees and lists of trees.** The listing of a tree and that of the trees inside it are defined
together, and so are their places. Every fact here is a pair of theorems, one on a module and one on
a list of modules, by recursion on both. The packages around are a parameter that grows on the way
down (`outer`).

**Full names.** A place is a list of names and a full name a text. The step from the one to the
other loses nothing because a name has no dot in it (`dot_not_mem_of_isName`), which makes full
names as different as places are (`eq_of_fullName_eq`). It also finds the packages again: what
stands before any dot of a full name is the full name of a package around the place
(`exists_of_fullName_eq_append`).
-/

namespace LineCompletion

open Text

/-! ### Trees of modules -/

namespace ModuleTree

mutual

/-- A module has a name that can be written in a statement, nothing is inside it unless it is a
package, and what is inside it is in order too and has different names. -/
def Tidy : ModuleTree → Prop
  | .node name isPackage inside =>
    isName name.toList = true ∧ (isPackage = false → inside = []) ∧
      (inside.map ModuleTree.name).Nodup ∧ AllTidy inside

/-- Some modules are in order. -/
def AllTidy : List ModuleTree → Prop
  | [] => True
  | m :: rest => Tidy m ∧ AllTidy rest

end

variable {m : ModuleTree} {modules : List ModuleTree} {taken : List String}

/-- Some modules are tidy when each of them is. -/
theorem allTidy_iff : AllTidy modules ↔ ∀ m ∈ modules, m.Tidy := by
  induction modules with
  | nil => exact iff_of_true trivial fun _ h ↦ absurd h List.not_mem_nil
  | cons m modules ih => rw [AllTidy, ih, List.forall_mem_cons]

/-- What is kept of some modules is among them. -/
theorem mem_of_mem_distinct (h : m ∈ distinct taken modules) : m ∈ modules := by
  fun_induction distinct taken modules with
  | case1 => exact absurd h List.not_mem_nil
  | case2 taken first rest _ ih => exact List.mem_cons_of_mem _ (ih h)
  | case3 taken first rest _ ih =>
    rcases List.mem_cons.1 h with rfl | h
    · exact List.mem_cons_self
    · exact List.mem_cons_of_mem _ (ih h)

/-- No module is kept whose name is taken. -/
theorem name_not_mem_of_mem_distinct (h : m ∈ distinct taken modules) : m.name ∉ taken := by
  fun_induction distinct taken modules with
  | case1 => exact absurd h List.not_mem_nil
  | case2 taken first rest _ ih => exact ih h
  | case3 taken first rest hnew ih =>
    rcases List.mem_cons.1 h with rfl | h
    · simpa using hnew
    · exact fun hmem ↦ ih h (List.mem_cons_of_mem _ hmem)

/-- **The modules that are kept have different names.** -/
theorem nodup_distinct (taken : List String) (modules : List ModuleTree) :
    ((distinct taken modules).map name).Nodup := by
  fun_induction distinct taken modules with
  | case1 => exact List.nodup_nil
  | case2 taken first rest _ ih => exact ih
  | case3 taken first rest _ ih =>
    rw [List.map_cons, List.nodup_cons]
    refine ⟨fun hmem ↦ ?_, ih⟩
    obtain ⟨other, hother, hsame⟩ := List.mem_map.1 hmem
    exact name_not_mem_of_mem_distinct hother (hsame ▸ List.mem_cons_self)

/-- What comes behind some modules does not change which of them are the first of their names. -/
theorem exists_distinct_append (taken : List String) (modules further : List ModuleTree) :
    ∃ taken', distinct taken (modules ++ further) =
      distinct taken modules ++ distinct taken' further := by
  fun_induction distinct taken modules with
  | case1 taken => exact ⟨taken, rfl⟩
  | case2 taken first rest hold ih =>
    rw [List.cons_append, distinct, if_pos hold]
    exact ih
  | case3 taken first rest hnew ih =>
    rw [List.cons_append, distinct, if_neg hnew]
    obtain ⟨taken', heq⟩ := ih
    exact ⟨taken', congrArg _ heq⟩

/-! ### Places -/

mutual

/-- The places of a module and of everything inside it, and whether a package stands there. The
packages around are given, the outermost first. -/
def places (outer : List String) : ModuleTree → List (List String × Bool)
  | .node name isPackage inside =>
    (outer ++ [name], isPackage) :: placesAll (outer ++ [name]) inside

/-- The places of some modules and of everything inside them. -/
def placesAll (outer : List String) : List ModuleTree → List (List String × Bool)
  | [] => []
  | m :: rest => places outer m ++ placesAll outer rest

end

/-- The text in front of the names of what is inside some packages. -/
def outerName : List String → String
  | [] => ""
  | package :: rest => package ++ "." ++ outerName rest

/-- The full name of what stands at a place. -/
def fullName (place : List String) : String := ".".intercalate place

/-- The text in front of names grows by one name and a dot with each package. -/
theorem outerName_append (outer : List String) (name : String) :
    outerName (outer ++ [name]) = outerName outer ++ name ++ "." := by
  induction outer with
  | nil => simp [outerName]
  | cons package outer ih =>
    rw [List.cons_append, outerName, ih, outerName]
    simp only [String.append_assoc]

/-- The full name of a place ends in its last name. -/
theorem fullName_append (outer : List String) (name : String) :
    fullName (outer ++ [name]) = outerName outer ++ name := by
  induction outer with
  | nil => simp [outerName, fullName]
  | cons package outer ih =>
    obtain ⟨next, rest, hrest⟩ : ∃ next rest, outer ++ [name] = next :: rest := by
      cases outer <;> exact ⟨_, _, rfl⟩
    rw [fullName, hrest] at ih
    rw [List.cons_append, fullName, hrest, String.intercalate_cons_cons, ih, outerName]
    simp only [String.append_assoc]

/-- A full name is its first name, a dot, and the full name of the rest. -/
theorem toList_fullName_cons (package next : String) (rest : List String) :
    (fullName (package :: next :: rest)).toList =
      package.toList ++ '.' :: (fullName (next :: rest)).toList := by
  rw [fullName, String.intercalate_cons_cons, String.toList_append, String.toList_append,
    List.append_assoc]
  rfl

mutual

/-- **A listing holds the places of its modules**, by their full names. -/
theorem listing_eq (outer : List String) : (m : ModuleTree) →
    listing (outerName outer) m = (places outer m).map fun p ↦ ⟨fullName p.1, p.2⟩
  | .node name isPackage inside => by
    rw [listing, places, List.map_cons, fullName_append, ← outerName_append,
      listings_eq (outer ++ [name]) inside]

theorem listings_eq (outer : List String) : (modules : List ModuleTree) →
    listings (outerName outer) modules = (placesAll outer modules).map fun p ↦ ⟨fullName p.1, p.2⟩
  | [] => rfl
  | m :: rest => by
    rw [listings, placesAll, List.map_append, listing_eq outer m, listings_eq outer rest]

end

/-! ### Full names -/

section FullName

variable {place : List String} (hnames : ∀ name ∈ place, isName name.toList = true)

/-- No name has a dot in it. -/
theorem dot_not_mem_of_isName {s : List Char} (h : isName s = true) : '.' ∉ s := by
  intro hdot
  cases s with
  | nil => exact absurd hdot List.not_mem_nil
  | cons c s =>
    rw [isName, Bool.and_eq_true, List.all_eq_true] at h
    exact absurd (h.2 '.' hdot) (by decide +kernel)

include hnames

/-- A full name divided at its dots is the place. -/
theorem splitOn_fullName (hne : place ≠ []) :
    (fullName place).toList.splitOn '.' = place.map String.toList := by
  rw [fullName, String.toList_intercalate]
  refine List.splitOn_intercalate '.' (fun s hs ↦ ?_) (by simpa using hne)
  obtain ⟨name, hname, rfl⟩ := List.mem_map.1 hs
  exact dot_not_mem_of_isName (hnames name hname)

/-- **Different places have different full names.** -/
theorem eq_of_fullName_eq {place' : List String}
    (hnames' : ∀ name ∈ place', isName name.toList = true) (hne : place ≠ []) (hne' : place' ≠ [])
    (h : fullName place = fullName place') : place = place' := by
  have hparts : place.map String.toList = place'.map String.toList := by
    rw [← splitOn_fullName hnames hne, ← splitOn_fullName hnames' hne', h]
  exact List.map_injective_iff.2 (fun _ _ ↦ String.toList_inj.1) hparts

/-- What stands before a dot of a full name is the full name of a package around the place. -/
theorem exists_of_fullName_eq_append {outer inner : List Char}
    (h : (fullName place).toList = outer ++ '.' :: inner) :
    ∃ around within, place = around ++ within ∧ around ≠ [] ∧ within ≠ [] ∧
      outer = (fullName around).toList := by
  induction place generalizing outer with
  | nil => exact absurd h.symm (by simp [fullName])
  | cons name rest ih =>
    obtain ⟨hname, hrest⟩ := List.forall_mem_cons.1 hnames
    have hdot := dot_not_mem_of_isName hname
    cases rest with
    | nil =>
      rw [fullName, String.intercalate_singleton] at h
      exact absurd (h ▸ by simp) hdot
    | cons next rest =>
      have hhead (heq : outer = name.toList) :
          ∃ around within, name :: next :: rest = around ++ within ∧ around ≠ [] ∧
            within ≠ [] ∧ outer = (fullName around).toList :=
        ⟨[name], next :: rest, rfl, by simp, by simp, by simpa [fullName] using heq⟩
      rw [toList_fullName_cons] at h
      rcases List.append_eq_append_iff.1 h with ⟨behind, houter, hbehind⟩ | ⟨behind, hself, hbehind⟩
      · obtain - | ⟨c, behind⟩ := behind
        · exact hhead (houter.trans (List.append_nil _))
        · -- The dot divides what is inside the first package.
          obtain ⟨rfl, htail⟩ := List.cons.inj hbehind
          obtain ⟨around, within, hplace, haround, hwithin, rfl⟩ := ih hrest htail
          refine ⟨name :: around, within, congrArg _ hplace, by simp, hwithin, ?_⟩
          obtain - | ⟨package, around⟩ := around
          · exact absurd rfl haround
          · rw [houter, toList_fullName_cons]
      · obtain - | ⟨c, behind⟩ := behind
        · exact hhead (hself.trans (List.append_nil _)).symm
        · obtain ⟨rfl, -⟩ := List.cons.inj hbehind
          exact absurd (hself ▸ by simp) hdot

end FullName

/-! ### Places of tidy modules -/

variable {place : List String} {isPackage : Bool}

mutual

/-- A place of a module begins with the place of that module, and names go on from there. -/
theorem exists_of_mem_places (outer : List String) : (m : ModuleTree) → m.Tidy →
    (place, isPackage) ∈ places outer m → ∃ within, place = outer ++ m.name :: within ∧
      ∀ name ∈ m.name :: within, isName name.toList = true
  | .node name kind inside, htidy, h => by
    rw [Tidy] at htidy
    obtain ⟨hname, -, -, hinside⟩ := htidy
    rw [places] at h
    rcases List.mem_cons.1 h with hself | h
    · exact ⟨[], (Prod.mk.inj hself).1, List.forall_mem_singleton.2 hname⟩
    · obtain ⟨m, -, within, rfl, hnames⟩ :=
        exists_of_mem_placesAll (outer ++ [name]) inside hinside h
      refine ⟨m.name :: within, ?_, List.forall_mem_cons.2 ⟨hname, hnames⟩⟩
      rw [List.append_assoc]
      rfl

/-- A place in a listing is one of a module that is listed, or inside it. -/
theorem exists_of_mem_placesAll (outer : List String) : (modules : List ModuleTree) →
    AllTidy modules → (place, isPackage) ∈ placesAll outer modules → ∃ m ∈ modules, ∃ within,
      place = outer ++ m.name :: within ∧ ∀ name ∈ m.name :: within, isName name.toList = true
  | [], _, h => absurd h List.not_mem_nil
  | m :: rest, ⟨hm, hrest⟩, h => by
    rw [placesAll] at h
    rcases List.mem_append.1 h with h | h
    · exact ⟨m, List.mem_cons_self, exists_of_mem_places outer m hm h⟩
    · obtain ⟨other, hother, hplace⟩ := exists_of_mem_placesAll outer rest hrest h
      exact ⟨other, List.mem_cons_of_mem _ hother, hplace⟩

end

mutual

/-- No place of a module is listed twice. -/
theorem nodup_places (outer : List String) : (m : ModuleTree) → m.Tidy →
    ((places outer m).map Prod.fst).Nodup
  | .node name kind inside, htidy => by
    rw [Tidy] at htidy
    obtain ⟨-, -, hnodup, hinside⟩ := htidy
    rw [places, List.map_cons, List.nodup_cons]
    refine ⟨fun hmem ↦ ?_, nodup_placesAll (outer ++ [name]) inside hinside hnodup⟩
    obtain ⟨⟨place, kind'⟩, hplace, rfl⟩ := List.mem_map.1 hmem
    obtain ⟨m, -, within, heq, -⟩ := exists_of_mem_placesAll _ inside hinside hplace
    -- What is inside stands at a longer place.
    have hlength := congrArg List.length heq
    simp at hlength

/-- **No place is listed twice.** -/
theorem nodup_placesAll (outer : List String) : (modules : List ModuleTree) → AllTidy modules →
    (modules.map name).Nodup → ((placesAll outer modules).map Prod.fst).Nodup
  | [], _, _ => List.nodup_nil
  | m :: rest, ⟨hm, hrest⟩, hnodup => by
    rw [List.map_cons, List.nodup_cons] at hnodup
    rw [placesAll, List.map_append]
    refine (nodup_places outer m hm).append (nodup_placesAll outer rest hrest hnodup.2) ?_
    intro place hplace hplace'
    obtain ⟨⟨_, kind⟩, hmem, rfl⟩ := List.mem_map.1 hplace
    obtain ⟨⟨_, kind'⟩, hmem', heq⟩ := List.mem_map.1 hplace'
    obtain rfl : _ = _ := heq
    obtain ⟨within, heq, -⟩ := exists_of_mem_places outer m hm hmem
    obtain ⟨other, hother, within', heq', -⟩ :=
      exists_of_mem_placesAll outer rest hrest hmem'
    have hname := (List.cons.inj (List.append_cancel_left (heq.symm.trans heq'))).1
    exact hnodup.1 (hname ▸ List.mem_map_of_mem hother)

end

mutual

/-- A package around a place of a module is listed before that place. -/
theorem mem_of_places_eq_append {around within : List String}
    {before after : List (List String × Bool)} (outer : List String) (haround : around ≠ [])
    (hwithin : within ≠ []) : (m : ModuleTree) → m.Tidy → places outer m =
      before ++ (outer ++ around ++ within, isPackage) :: after → (outer ++ around, true) ∈ before
  | .node name kind inside, htidy, h => by
    rw [Tidy] at htidy
    obtain ⟨-, hpackage, -, hinside⟩ := htidy
    rw [places] at h
    obtain - | ⟨first, before⟩ := before
    · -- The package itself stands at too short a place.
      have hlength := congrArg List.length (Prod.mk.inj (List.cons.inj h).1).1
      have haround := List.length_pos_iff.2 haround
      have hwithin := List.length_pos_iff.2 hwithin
      simp only [List.length_append, List.length_cons, List.length_nil] at hlength
      omega
    · obtain ⟨rfl, hlater⟩ := List.cons.inj h
      have hmem : (outer ++ around ++ within, isPackage) ∈ placesAll (outer ++ [name]) inside :=
        hlater ▸ List.mem_append_right _ List.mem_cons_self
      obtain ⟨m, hm, further, heq, -⟩ := exists_of_mem_placesAll _ inside hinside hmem
      rw [List.append_assoc, List.append_assoc] at heq
      obtain - | ⟨package, around⟩ := around
      · exact absurd rfl haround
      · obtain ⟨rfl, -⟩ := List.cons.inj (List.append_cancel_left heq)
        obtain - | ⟨next, around⟩ := around
        · cases kind with
          | true => exact List.mem_cons_self
          | false => exact absurd (hpackage rfl) (List.ne_nil_of_mem hm)
        · rw [List.append_cons outer _ (next :: around)] at hlater ⊢
          exact List.mem_cons_of_mem _
            (mem_of_placesAll_eq_append _ (by simp) hwithin inside hinside hlater)

/-- **The packages that a module is inside of are listed before it.** -/
theorem mem_of_placesAll_eq_append {around within : List String}
    {before after : List (List String × Bool)} (outer : List String) (haround : around ≠ [])
    (hwithin : within ≠ []) : (modules : List ModuleTree) → AllTidy modules →
    placesAll outer modules =
      before ++ (outer ++ around ++ within, isPackage) :: after → (outer ++ around, true) ∈ before
  | [], _, h => absurd h.symm (by simp [placesAll])
  | m :: rest, ⟨hm, hrest⟩, h => by
    rw [placesAll] at h
    rcases List.append_eq_append_iff.1 h with ⟨before', rfl, hlater⟩ | ⟨after', hfirst, hlater⟩
    · exact List.mem_append_right _
        (mem_of_placesAll_eq_append outer haround hwithin rest hrest hlater)
    · obtain - | ⟨first, after'⟩ := after'
      · have hnone := mem_of_placesAll_eq_append outer haround hwithin rest hrest
          (hlater.symm.trans (List.nil_append _).symm)
        exact absurd hnone List.not_mem_nil
      · obtain ⟨rfl, -⟩ := List.cons.inj hlater
        exact mem_of_places_eq_append outer haround hwithin m hm hfirst

end

end ModuleTree

/-! ### Modules of a search -/

namespace ModuleSearch

theorem sorted_perm (modules : List ModuleTree) : (sorted modules).Perm modules :=
  List.mergeSort_perm ..

/-- Sorting keeps the modules. -/
theorem mem_sorted_iff {m : ModuleTree} {modules : List ModuleTree} :
    m ∈ sorted modules ↔ m ∈ modules :=
  (sorted_perm modules).mem_iff

mutual

/-- The module that an entry is, is tidy. -/
theorem tidy_of_entryModule? (search : ModuleSearch) (around : List Folder) (name : String) :
    (entry : FileEntry) → ∀ {m}, search.entryModule? around name entry = some m → m.Tidy
  | .file, m, h => by
    rw [entryModule?] at h
    split at h
    split at h
    · rename_i hfile
      obtain rfl := Option.some.inj h
      rw [Bool.and_eq_true] at hfile
      exact ⟨hfile.2, fun _ ↦ rfl, List.nodup_nil, trivial⟩
    · exact absurd h (by simp)
  | .folder entries, m, h => by
    rw [entryModule?] at h
    split at h
    · rename_i hfolder
      obtain rfl := Option.some.inj h
      rw [Bool.and_eq_true] at hfolder
      refine ⟨hfolder.2, fun hfile ↦ absurd hfile (by simp), ModuleTree.nodup_distinct .., ?_⟩
      refine ModuleTree.allTidy_iff.2 fun m hm ↦ ?_
      exact tidy_of_mem_entryModules search (entries :: around) entries
        (mem_sorted_iff.1 (ModuleTree.mem_of_mem_distinct hm))
    · exact absurd h (by simp)

/-- **The modules of a folder are tidy.** -/
theorem tidy_of_mem_entryModules (search : ModuleSearch) (around : List Folder) :
    (entries : List (String × FileEntry)) → ∀ {m}, m ∈ search.entryModules around entries → m.Tidy
  | [], m, h => absurd h (by simp [entryModules])
  | (name, entry) :: rest, m, h => by
    rw [entryModules] at h
    rcases List.mem_append.1 h with h | h
    · exact tidy_of_entryModule? search around name entry (Option.mem_toList.1 h)
    · exact tidy_of_mem_entryModules search around rest h

end

end ModuleSearch

end LineCompletion
