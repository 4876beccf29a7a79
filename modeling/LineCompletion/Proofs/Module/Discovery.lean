import LineCompletion.Proofs.Module.ReadingOrder

/-!
# What a search finds

The modules that a search finds are the places of a tidy list of modules (`found_eq`), so what is
known of places holds of them: the names are different, each is made of names with dots between
them, and the packages that a module is inside of were found before it (`Orderly`). Reading the
folders in some other order finds the same, and a further folder at the end of the search path only
adds to what is found (`found_ordered`).

**How it is put together.** The facts come from three sides. The first is the shape of a listing:
`orderly_of_tidy` turns a statement on places into one on full names, which hold dots and have to be
divided at them. The second is reading: the modules of a folder are the same in every order of its
entries. The third is hiding: of all modules with one name the first is kept, so what is appended to
the search path can take nothing away from what was found before it
(`exists_distinct_append`), and the listing of the longer path begins with the shorter one
(`found_prefix_found`).

**What one folder contributes.** Each folder of the search path is searched on its own. Which other
folders are on the path has no part in that (`rootModules_roots`), and this has to be said since a
search carries its path with it everywhere.

**Hiding a package.** A module hides a package of the same name in its own folder, and whatever was
found in an earlier folder hides both. What is inside a package that is hidden is not listed either,
so a name with a dot is never there without the package in front of it. The order of a listing is
the order in which names are offered.

**What is not said.** A folder that cannot be read, or that is reached by a link, is not a matter of
this model: what is searched is a tree of files that is there.
-/

namespace LineCompletion

open Text ModuleTree

/-- A listing of modules by their full names, each below the packages that it is inside of. -/
structure Orderly (modules : List ModuleInfo) : Prop where
  /-- No name is listed twice. -/
  distinct : (modules.map ModuleInfo.name).Nodup
  /-- Between the dots of a name there are names. -/
  named : ∀ m ∈ modules, ∀ part ∈ m.name.toList.splitOn '.', isName part = true
  /-- What stands before a dot of a name is listed before it, and is a package. -/
  within : ∀ before m after outer inner, modules = before ++ m :: after →
    m.name = outer ++ "." ++ inner → ⟨outer, true⟩ ∈ before

namespace ModuleTree

variable {modules : List ModuleTree}

/-- A place in a listing is made of names. -/
theorem names_of_mem_placesAll (htidy : AllTidy modules) {place : List String} {isPackage : Bool}
    (h : (place, isPackage) ∈ placesAll [] modules) :
    place ≠ [] ∧ ∀ name ∈ place, isName name.toList = true := by
  obtain ⟨m, -, within, rfl, hnames⟩ := exists_of_mem_placesAll [] modules htidy h
  exact ⟨List.cons_ne_nil _ _, hnames⟩

/-- **A listing of tidy modules is in order.** -/
theorem orderly_of_tidy (htidy : AllTidy modules) (hnodup : (modules.map name).Nodup) :
    Orderly ((placesAll [] modules).map fun p ↦ ⟨fullName p.1, p.2⟩) where
  distinct := by
    have hnames : (placesAll [] modules).map (fun p ↦ fullName p.1) =
        ((placesAll [] modules).map Prod.fst).map fullName := by rw [List.map_map]; rfl
    rw [List.map_map]
    refine hnames ▸ (nodup_placesAll [] modules htidy hnodup).map_on fun place h place' h' heq ↦ ?_
    obtain ⟨⟨_, kind⟩, hmem, rfl⟩ := List.mem_map.1 h
    obtain ⟨⟨_, kind'⟩, hmem', rfl⟩ := List.mem_map.1 h'
    obtain ⟨hne, hnames⟩ := names_of_mem_placesAll htidy hmem
    obtain ⟨hne', hnames'⟩ := names_of_mem_placesAll htidy hmem'
    exact eq_of_fullName_eq hnames hnames' hne hne' heq
  named := by
    intro m hm part hpart
    obtain ⟨⟨place, kind⟩, hmem, rfl⟩ := List.mem_map.1 hm
    obtain ⟨hne, hnames⟩ := names_of_mem_placesAll htidy hmem
    rw [splitOn_fullName hnames hne] at hpart
    obtain ⟨name, hname, rfl⟩ := List.mem_map.1 hpart
    exact hnames name hname
  within := by
    intro before m after outer inner heq hname
    obtain ⟨before', rest, hplaces, rfl, hrest⟩ := List.map_eq_append_iff.1 heq
    obtain ⟨⟨place, kind⟩, after', rfl, rfl, -⟩ := List.map_eq_cons_iff.1 hrest
    have hmem : (place, kind) ∈ placesAll [] modules :=
      hplaces ▸ List.mem_append_right _ List.mem_cons_self
    have hdivided : (fullName place).toList = outer.toList ++ '.' :: inner.toList := by
      rw [show fullName place = outer ++ "." ++ inner from hname, String.toList_append,
        String.toList_append, List.append_assoc]
      rfl
    obtain ⟨around, within, rfl, haround, hwithin, houter⟩ :=
      exists_of_fullName_eq_append (names_of_mem_placesAll htidy hmem).2 hdivided
    have hbefore := mem_of_placesAll_eq_append [] haround hwithin modules htidy hplaces
    rw [String.toList_inj.1 houter]
    exact List.mem_map.2 ⟨(around, true), hbefore, rfl⟩

/-- The places of two lists of modules are those of the one, then those of the other. -/
theorem placesAll_append (outer : List String) (modules further : List ModuleTree) :
    placesAll outer (modules ++ further) = placesAll outer modules ++ placesAll outer further := by
  induction modules with
  | nil => rfl
  | cons m modules ih => rw [List.cons_append, placesAll, ih, placesAll, List.append_assoc]

end ModuleTree

namespace ModuleSearch

/-- What is found, by places. -/
theorem found_eq (search : ModuleSearch) : search.found =
    (placesAll [] (distinct [] (search.roots.flatMap search.rootModules))).map
      fun p ↦ ⟨fullName p.1, p.2⟩ :=
  listings_eq [] _

/-- **What a search finds is in order.** -/
theorem orderly_found (search : ModuleSearch) : Orderly search.found := by
  rw [found_eq]
  refine orderly_of_tidy (allTidy_iff.2 fun m hm ↦ ?_) (nodup_distinct ..)
  obtain ⟨root, -, hm⟩ := List.mem_flatMap.1 (mem_of_mem_distinct hm)
  exact tidy_of_mem_entryModules search _ _ (mem_sorted_iff.1 hm)

section Roots

variable (search : ModuleSearch) (roots : List SearchRoot)

mutual

/-- An entry is the same module whatever is on the search path. -/
theorem entryModule?_roots (around : List Folder) (name : String) : (entry : FileEntry) →
    { search with roots := roots }.entryModule? around name entry =
      search.entryModule? around name entry
  | .file => by
    rw [entryModule?, entryModule?]
    rfl
  | .folder entries => by
    rw [entryModule?, entryModule?, entryModules_roots (entries :: around) entries]
    rfl

theorem entryModules_roots (around : List Folder) : (entries : List (String × FileEntry)) →
    { search with roots := roots }.entryModules around entries = search.entryModules around entries
  | [] => rfl
  | (name, entry) :: rest => by
    rw [entryModules, entryModules, entryModule?_roots around name entry,
      entryModules_roots around rest]

end

/-- The modules in one folder of the search path do not depend on the others. -/
theorem rootModules_roots : { search with roots := roots }.rootModules = search.rootModules := by
  funext root
  rw [rootModules, rootModules, entryModules_roots]

end Roots

/-- **Appending to the search path appends to what is found.** -/
theorem found_prefix_found (search : ModuleSearch) (further : List SearchRoot) :
    search.found <+: { search with roots := search.roots ++ further }.found := by
  obtain ⟨taken, heq⟩ := exists_distinct_append [] (search.roots.flatMap search.rootModules)
    (further.flatMap search.rootModules)
  rw [found_eq, found_eq, rootModules_roots search (search.roots ++ further), List.flatMap_append,
    heq, placesAll_append, List.map_append]
  exact List.prefix_append ..

/-- **What a search finds is in order**, it does not depend on the order in which folders are read,
and further folders of the search path only add to it. -/
theorem found_ordered (search : ModuleSearch) :
    Orderly search.found ∧
      (∀ search', search.Reordered search' → search'.found = search.found) ∧
      ∀ further, search.found <+: { search with roots := search.roots ++ further }.found :=
  ⟨search.orderly_found, fun search' h ↦ by rw [found, found, flatMap_rootModules_eq h],
    search.found_prefix_found⟩

/-- A package with what is inside it, and a module that hides a package of the same name, read in
two orders. In a further folder the name of the first package is taken, and one module is new. -/
theorem found_ordered_of_two_readings :
    let search (roots : List SearchRoot) : ModuleSearch := ⟨roots, [], "py", "init.py", []⟩
    let entries : Folder := [("a", .folder [("b.py", .file), ("init.py", .file)]), ("c.py", .file),
      ("c", .folder [("init.py", .file)])]
    let entries' : Folder := [("c", .folder [("init.py", .file)]), ("c.py", .file),
      ("a", .folder [("init.py", .file), ("b.py", .file)])]
    let further : Folder := [("a.py", .file), ("d.py", .file)]
    (search [entries]).Reordered (search [entries']) ∧
      (search [entries]).found = [⟨"a", true⟩, ⟨"a.b", false⟩, ⟨"c", false⟩] ∧
      (search [entries']).found = [⟨"a", true⟩, ⟨"a.b", false⟩, ⟨"c", false⟩] ∧
      (search [entries, further]).found =
        [⟨"a", true⟩, ⟨"a.b", false⟩, ⟨"c", false⟩, ⟨"d", false⟩] := by
  intro search entries entries' further
  have hpackage : FileEntry.Reordered (.folder [("b.py", .file), ("init.py", .file)])
      (.folder [("init.py", .file), ("b.py", .file)]) :=
    .folder (by decide) (.swap ..) (.cons .file (.cons .file .nil))
  have hhidden : FileEntry.Reordered (.folder [("init.py", .file)])
      (.folder [("init.py", .file)]) :=
    .folder (by decide) (.refl _) (.cons .file .nil)
  have hentries : Folder.Reordered entries entries' :=
    .folder (by decide) (List.reverse_perm entries).symm
      (.cons hhidden (.cons .file (.cons hpackage .nil)))
  have hsearch : (search [entries]).Reordered (search [entries']) :=
    ⟨.cons ⟨hentries, .nil⟩ .nil, rfl, rfl, .folder (by decide) .nil .nil⟩
  -- There is no slash in the path of the marker, so it is one name.
  have hmarker : "init.py".splitOn "/" = ["init.py"] := by
    rw [String.splitOn, if_neg (by decide)]
    iterate 7 rw [String.splitOnAux, if_neg (by decide +kernel), if_neg (by decide +kernel)]
    rw [String.splitOnAux, if_pos (by decide +kernel)]
    decide +kernel
  have hstem (roots : List SearchRoot) : (search roots).markerStem = "init" := by
    rw [markerStem, hmarker]
    decide +kernel
  have hsources : splitExtension "a.py" = ("a", some "py") ∧
      splitExtension "b.py" = ("b", some "py") ∧ splitExtension "c.py" = ("c", some "py") ∧
      splitExtension "d.py" = ("d", some "py") ∧
      splitExtension "init.py" = ("init", some "py") := by
    decide +kernel
  have hnames : isName ['a'] = true ∧ isName ['b'] = true ∧ isName ['c'] = true ∧
      isName ['d'] = true := by decide +kernel
  have hfirst (roots : List SearchRoot) : (search roots).rootModules entries =
      [.node "a" true [.node "b" false []], .node "c" false [], .node "c" true []] := by
    have hsorted : sorted [.node "a" true [.node "b" false []], .node "c" false [],
        .node "c" true []] = [.node "a" true [.node "b" false []], .node "c" false [],
        .node "c" true []] := List.mergeSort_of_pairwise (by decide +kernel)
    simpa [rootModules, entryModules, entryModule?, hstem, hsources, hnames, hasMarker, hmarker,
      search, entries, Folder.hasFile, Folder.find?, distinct, sorted] using hsorted
  have hsecond (roots : List SearchRoot) : (search roots).rootModules further =
      [.node "a" false [], .node "d" false []] := by
    have hsorted : sorted [.node "a" false [], .node "d" false []] =
        [.node "a" false [], .node "d" false []] := List.mergeSort_of_pairwise (by decide +kernel)
    simpa [rootModules, entryModules, entryModule?, hstem, hsources, hnames, search, further,
      sorted] using hsorted
  have hfound : (search [entries]).found = [⟨"a", true⟩, ⟨"a.b", false⟩, ⟨"c", false⟩] := by
    simp only [found, search, List.flatMap_cons, List.flatMap_nil, hfirst, List.append_nil]
    decide +kernel
  have hboth : (search [entries, further]).found =
      [⟨"a", true⟩, ⟨"a.b", false⟩, ⟨"c", false⟩, ⟨"d", false⟩] := by
    simp only [found, search, List.flatMap_cons, List.flatMap_nil, List.append_nil]
    rw [hfirst, hsecond]
    decide +kernel
  exact ⟨hsearch, hfound, hfound ▸ (found_ordered (search [entries])).2.1 _ hsearch, hboth⟩

end ModuleSearch

end LineCompletion
