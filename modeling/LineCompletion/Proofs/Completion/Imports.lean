import LineCompletion.Proofs.Completion.Offers
import LineCompletion.Proofs.Text.Words

/-!
# Completing import statements, word by word

What is offered for an import statement hangs on its words, of which the last one is the name being
typed and the others say where it is looked for (`importSuggestions_eq`). The white space between
the words is kept as it was typed, of whatever kind it is, and so is the indentation.

**Typing on at the last word only narrows the choice**: what is offered then is what was offered
before and goes on in that way, in the same order (`importSuggestions_append_word`). The path does
not depend on the last word, as long as there is another one before it (`importPath?_append`), and
the names for one path are filtered by what has been typed (`importNames_append`). Names built into
the interpreter are left out once a dot has been typed, which loses none of them as long as they
hold no dot; that is the one hypothesis on what is built in. The word `as` ends all completion, so
it must not be among the words before or after.

**Behind a path the names are those inside it** (`namesInside`): what comes behind the path and a
dot in the names of the modules found. Every one that goes on from what has been typed is offered,
from its first letter on (`importSuggestions_fromClause`). Before the first letter there is no last
word yet, and the word `import` is taken for it (`importSuggestions_fromClause_nil`); then the names
inside a module are missed, and those that start with `import` are offered in its place.
`importSuggestions_fromClause_eq_iff` says that this is so exactly when there is something to miss.

What is offered is compared by its value and what is shown of it. The spans are not the same before
and after typing on, since each suggestion replaces the line of its own time.
-/

namespace LineCompletion

open Text

/-! ### The last word of a statement -/

/-- What a statement keeps when its last word is completed: all up to the last white space. -/
theorem throughLastBlank_append {b : Char} (hb : isBlank b = true) {word : List Char}
    (hword : ∀ c ∈ word, isBlank c = false) (s : List Char) :
    throughLastBlank (s ++ b :: word) = s ++ [b] := by
  have hreverse : ∀ c ∈ word.reverse, (!isBlank c) = true := fun c hc ↦ by
    rw [hword c (List.mem_reverse.1 hc), Bool.not_false]
  rw [throughLastBlank, List.reverse_append, List.reverse_cons, List.append_assoc,
    List.dropWhile_append_of_pos hreverse, List.singleton_append,
    List.dropWhile_cons_of_neg (by simp [hb])]
  simp

/-- A statement is divided behind the white space that no other follows. -/
theorem splitLastWord_append_word {b : Char} (hb : isBlank b = true) {word : List Char}
    (hword : ∀ c ∈ word, isBlank c = false) (s : List Char) :
    splitLastWord (s ++ b :: word) = (s ++ [b], word) := by
  rw [splitLastWord, throughLastBlank_append hb hword, if_neg (by simp),
    show s ++ b :: word = (s ++ [b]) ++ word by simp, List.drop_left]

/-- What is offered for an import statement, by the words in it. -/
theorem importSuggestions_eq {line s word : List Char} {b : Char} (hb : isBlank b = true)
    (hne : word ≠ []) (hword : ∀ c ∈ word, isBlank c = false) (htrim : trim line = s ++ b :: word)
    (has : "as".toList ∉ words line) (modules : Modules) :
    importSuggestions line modules =
      (importNames modules (importPath? (words s ++ [word])) word).map fun name ↦
        Suggestion.replacing line (indentation line ++ (s ++ [b]) ++ name) name := by
  have hwords : words (trim line) = words s ++ [word] := by
    rw [htrim, words_append_cons hb, words_of_word hne hword]
  rw [← words_trim] at has
  rw [importSuggestions, if_neg (mt List.contains_iff_mem.1 has), hwords, htrim,
    splitLastWord_append_word hb hword]

/-- The last word of a statement has no say in the path, if another word comes before it. -/
theorem importPath?_append {before : List (List Char)} (hbefore : before ≠ [])
    (word other : List Char) :
    importPath? (before ++ [word]) = importPath? (before ++ [other]) := by
  rcases before with - | ⟨keyword, - | ⟨path, rest⟩⟩
  · exact absurd rfl hbefore
  · rfl
  · cases rest <;> rfl

/-! ### Names inside a path -/

/-- What comes behind a path and a dot in the names of the modules found, in the order in which they
are found, as far as it starts with a text. -/
def namesInside (modules : Modules) (path start : List Char) : List (List Char) :=
  (modules.found.filterMap fun m ↦
    Suggestion.dropPrefix? (path ++ ['.']) m.name.toList).filter start.isPrefixOf

/-- A name is inside a path if a module was found under both, joined by a dot. -/
theorem mem_namesInside_iff {modules : Modules} {path start name : List Char} :
    name ∈ namesInside modules path start ↔
      start <+: name ∧ ∃ m ∈ modules.found, m.name.toList = path ++ '.' :: name := by
  rw [namesInside, List.mem_filter, List.mem_filterMap, List.isPrefixOf_iff_prefix, and_comm]
  simp only [Suggestion.dropPrefix?_eq_some_iff, List.append_assoc, List.singleton_append]

/-- A beginning that two texts share can be taken off both. -/
theorem append_isPrefixOf_append (s t u : List Char) :
    (s ++ t).isPrefixOf (s ++ u) = t.isPrefixOf u := by
  rw [Bool.eq_iff_iff, List.isPrefixOf_iff_prefix, List.isPrefixOf_iff_prefix,
    List.prefix_append_right_inj]

/-- Of the names that start with two texts, what comes behind the first one is what comes behind it
in any name and starts with the second. -/
theorem map_drop_filter_isPrefixOf (first second : List Char) (names : List (List Char)) :
    (names.filter (first ++ second).isPrefixOf).map (·.drop first.length) =
      (names.filterMap (Suggestion.dropPrefix? first)).filter second.isPrefixOf := by
  induction names with
  | nil => rfl
  | cons name names ih =>
    rw [List.filter_cons, List.filterMap_cons]
    rcases hrest : Suggestion.dropPrefix? first name with - | rest
    · have hnot : (first ++ second).isPrefixOf name = false := by
        rw [Bool.eq_false_iff, ne_eq, List.isPrefixOf_iff_prefix]
        rintro ⟨rest, rfl⟩
        have hsome := Suggestion.dropPrefix?_eq_some_iff.2 (List.append_assoc first second rest)
        exact absurd (hrest.symm.trans hsome) (by simp)
      rw [hnot, if_neg Bool.false_ne_true, ih]
    · obtain rfl := Suggestion.dropPrefix?_eq_some_iff.1 hrest
      rw [append_isPrefixOf_append, List.filter_cons]
      split
      · rw [List.map_cons, ih, List.drop_left]
      · exact ih

/-- Behind a path only modules that were found are offered, without the path. -/
theorem importNames_some (modules : Modules) (path last : List Char) :
    importNames modules (some path) last = namesInside modules path last := by
  have hdot : (path ++ ['.'] ++ last).contains '.' = true := by simp
  have hfound := map_drop_filter_isPrefixOf (path ++ ['.']) last
    (modules.found.map fun m ↦ m.name.toList)
  rw [List.filterMap_map, List.length_append, List.length_singleton] at hfound
  rw [importNames, List.append_cons path '.' last, moduleNames, if_pos hdot]
  exact hfound

/-! ### Typing on -/

/-- Filtering by a longer beginning is no different after filtering by a shorter one. -/
theorem filter_isPrefixOf_append (s t : List Char) (names : List (List Char)) :
    (names.filter s.isPrefixOf).filter (s ++ t).isPrefixOf = names.filter (s ++ t).isPrefixOf := by
  rw [List.filter_filter]
  refine List.filter_congr fun name _ ↦ ?_
  rw [Bool.eq_iff_iff, Bool.and_eq_true, and_iff_left_iff_imp, List.isPrefixOf_iff_prefix,
    List.isPrefixOf_iff_prefix]
  exact (List.prefix_append s t).trans

/-- Of the modules offered for a beginning, those that start with more of it are offered for that.
-/
theorem moduleNames_append {modules : Modules}
    (hbuiltin : ∀ name ∈ modules.builtin, '.' ∉ name.toList) (s t : List Char) :
    moduleNames modules (s ++ t) = (moduleNames modules s).filter (s ++ t).isPrefixOf := by
  rw [moduleNames, moduleNames, filter_isPrefixOf_append]
  by_cases hs : s.contains '.' = true
  · rw [if_pos hs, if_pos (by simpa using Or.inl (List.contains_iff_mem.1 hs))]
  rw [if_neg hs]
  split
  · rename_i hdot
    -- A name without a dot does not start with a text that has one.
    have hnone : (modules.builtin.map String.toList).filter (s ++ t).isPrefixOf = [] := by
      refine List.filter_eq_nil_iff.2 fun name hname hstart ↦ ?_
      obtain ⟨builtin, hmem, rfl⟩ := List.mem_map.1 hname
      exact hbuiltin builtin hmem
        ((List.isPrefixOf_iff_prefix.1 hstart).subset (List.contains_iff_mem.1 hdot))
    rw [List.filter_append, List.filter_append, hnone, List.filter_nil]
  · rfl

/-- Of the names offered for a word, those that go on in a certain way are offered when it does. -/
theorem importNames_append {modules : Modules}
    (hbuiltin : ∀ name ∈ modules.builtin, '.' ∉ name.toList) (path? : Option (List Char))
    (word t : List Char) :
    importNames modules path? (word ++ t) =
      (importNames modules path? word).filter (word ++ t).isPrefixOf := by
  cases path? with
  | none => exact moduleNames_append hbuiltin word t
  | some path =>
    rw [importNames_some, importNames_some, namesInside, namesInside, filter_isPrefixOf_append]

/-- **Typing more of a name only filters.** For a statement of several words that ends in one, what
is offered after more of that word has been typed is what was offered before, as far as it starts
with the longer line. -/
theorem importSuggestions_append_word {modules : Modules}
    (hbuiltin : ∀ name ∈ modules.builtin, '.' ∉ name.toList) {line t : List Char}
    (hseveral : 2 ≤ (words line).length) (hend : trimEnd line = line)
    (ht : ∀ c ∈ t, isBlank c = false) (has : "as".toList ∉ words line)
    (has' : "as".toList ∉ words (line ++ t)) :
    (importSuggestions (line ++ t) modules).map (fun s ↦ (s.value, s.display)) =
      ((importSuggestions line modules).filter fun s ↦ (line ++ t).isPrefixOf s.value).map
        fun s ↦ (s.value, s.display) := by
  obtain ⟨s, b, word, htrim, hbefore, hb, hne, hword⟩ := exists_last_word hseveral
  have hline : line ≠ [] := by
    rintro rfl
    exact absurd hseveral (by decide)
  have hlonger : trim (line ++ t) = s ++ b :: (word ++ t) := by
    rw [trim_append_word hline hend ht, htrim, List.append_assoc, List.cons_append]
  have hwordLonger : ∀ c ∈ word ++ t, isBlank c = false := fun c hc ↦
    (List.mem_append.1 hc).elim (hword c) (ht c)
  have hkept : indentation line ++ (s ++ [b]) ++ word = line := calc
    indentation line ++ (s ++ [b]) ++ word = indentation line ++ trim line := by simp [htrim]
    _ = trimEnd line := indentation_append_trim (by simp [htrim])
    _ = line := hend
  rw [importSuggestions_eq hb hne hword htrim has,
    importSuggestions_eq hb (by simp [hne]) hwordLonger hlonger has',
    indentation_append_word hline hend, importPath?_append hbefore (word ++ t) word,
    importNames_append hbuiltin, List.filter_map, List.map_map, List.map_map]
  congr 1
  refine List.filter_congr fun name _ ↦ ?_
  show _ = (line ++ t).isPrefixOf (indentation line ++ (s ++ [b]) ++ name)
  rw [← hkept, List.append_assoc _ word t, hkept, append_isPrefixOf_append]

/-- A name inside a package, typed behind white space of several kinds. -/
theorem importSuggestions_append_word_inside_package :
    let modules : Modules := ⟨["dis"], [⟨"sqlite3", true⟩, ⟨"sqlite3.dbapi2", false⟩,
      ⟨"sqlite3.dump", false⟩, ⟨"doctest", false⟩]⟩
    let line := "  from\tsqlite3  import d".toList
    let t := "u".toList
    (∀ name ∈ modules.builtin, '.' ∉ name.toList) ∧ 2 ≤ (words line).length ∧
      trimEnd line = line ∧ (∀ c ∈ t, isBlank c = false) ∧ "as".toList ∉ words line ∧
      "as".toList ∉ words (line ++ t) ∧
      (importSuggestions (line ++ t) modules).map (fun s ↦ (s.value, s.display)) =
        [("  from\tsqlite3  import dump".toList, "dump".toList)] := by
  intro modules line t
  have hbuiltin : ∀ name ∈ modules.builtin, '.' ∉ name.toList := by decide +kernel
  have hseveral : 2 ≤ (words line).length := by decide +kernel
  have hend : trimEnd line = line := by decide +kernel
  have ht : ∀ c ∈ t, isBlank c = false := not_blank_of_any (by decide)
  have has : "as".toList ∉ words line := by decide +kernel
  have has' : "as".toList ∉ words (line ++ t) := by decide +kernel
  refine ⟨hbuiltin, hseveral, hend, ht, has, has', ?_⟩
  rw [importSuggestions_append_word hbuiltin hseveral hend ht has has']
  decide +kernel

/-! ### Behind a path -/

/-- A statement that names something inside a module. -/
def fromClause (path name : List Char) : List Char :=
  "from ".toList ++ path ++ " import ".toList ++ name

/-- The parts of a statement that names something inside a module, in front of its last blank and
behind it. -/
theorem fromClause_eq (path name : List Char) : fromClause path name =
    ("from ".toList ++ path ++ ' ' :: "import".toList) ++ ' ' :: name := by
  rw [show fromClause path name = "from ".toList ++ path ++ " import ".toList ++ name from rfl,
    List.append_assoc, List.append_assoc _ (' ' :: _)]
  rfl

/-- Such a statement is not indented. -/
theorem indentation_fromClause (path name : List Char) : indentation (fromClause path name) = [] :=
  List.takeWhile_cons_of_neg (by decide)

section Behind

variable (modules : Modules) {path : List Char}

/-- What is offered behind a path, whatever else comes between it and the name. -/
theorem importSuggestions_inside {line s word : List Char} {b : Char} {between : List (List Char)}
    (hb : isBlank b = true) (hne : word ≠ []) (hword : ∀ c ∈ word, isBlank c = false)
    (htrim : trim line = s ++ b :: word) (hwords : words s = "from".toList :: path :: between)
    (has : "as".toList ∉ words s ++ [word]) :
    importSuggestions line modules =
      (namesInside modules path word).map fun name ↦
        Suggestion.replacing line (indentation line ++ (s ++ [b]) ++ name) name := by
  have hpath : importPath? (words s ++ [word]) = some path := by
    rw [hwords]
    cases between <;> rfl
  rw [← words_of_word hne hword, ← words_append_cons hb, ← htrim, words_trim] at has
  rw [importSuggestions_eq hb hne hword htrim has, hpath, importNames_some]

/-- The words before the name. -/
theorem words_from_append (hpath : path ≠ []) (hpathWord : ∀ c ∈ path, isBlank c = false) :
    words ("from ".toList ++ path) = ["from".toList, path] := by
  rw [show "from ".toList ++ path = "from".toList ++ ' ' :: path from rfl,
    words_append_cons (by decide), words_of_word hpath hpathWord]
  rfl

/-- A name inside a module is completed once its first letter has been typed. -/
theorem importSuggestions_fromClause (hpath : path ≠ [])
    (hpathWord : ∀ c ∈ path, isBlank c = false) (hpathAs : path ≠ "as".toList)
    {start : List Char} (hstart : start ≠ []) (hstartWord : ∀ c ∈ start, isBlank c = false)
    (hstartAs : start ≠ "as".toList) :
    importSuggestions (fromClause path start) modules =
      (namesInside modules path start).map fun name ↦
        Suggestion.replacing (fromClause path start) (fromClause path name) name := by
  have hspace : isBlank ' ' = true := by decide
  have hwords : words ("from ".toList ++ path ++ ' ' :: "import".toList) =
      ["from".toList, path, "import".toList] := by
    rw [words_append_cons hspace, words_from_append hpath hpathWord]
    rfl
  have hlast : ∀ c ∈ (fromClause path start).getLast?, isBlank c = false := by
    intro c hc
    rw [show fromClause path start = "from ".toList ++ path ++ " import ".toList ++ start from rfl,
      List.getLast?_append, Option.or_of_isSome (by simpa using hstart)] at hc
    exact hstartWord c (List.mem_of_getLast? hc)
  have htrim : trim (fromClause path start) =
      ("from ".toList ++ path ++ ' ' :: "import".toList) ++ ' ' :: start := by
    have htrim := trim_append_blank (w := []) ⟨'f', rfl, by decide⟩ hlast (by simp)
    rw [List.append_nil] at htrim
    rw [htrim, fromClause_eq]
  rw [importSuggestions_inside modules hspace hstart hstartWord htrim hwords]
  · rw [indentation_fromClause]
    refine List.map_congr_left fun name _ ↦ ?_
    rw [fromClause_eq path name, List.append_cons _ ' ' name]
    rfl
  · rw [hwords]
    simp only [List.cons_append, List.nil_append, List.mem_cons, List.not_mem_nil, or_false, not_or]
    exact ⟨by decide, hpathAs.symm, by decide, hstartAs.symm⟩

/-- Before the first letter the word that introduces the name is taken for the beginning of one. -/
theorem importSuggestions_fromClause_nil (hpath : path ≠ [])
    (hpathWord : ∀ c ∈ path, isBlank c = false) (hpathAs : path ≠ "as".toList) :
    importSuggestions (fromClause path []) modules =
      (namesInside modules path "import".toList).map fun name ↦
        Suggestion.replacing (fromClause path []) ("from ".toList ++ path ++ ' ' :: name) name := by
  have hspace : isBlank ' ' = true := by decide
  have hwords := words_from_append hpath hpathWord
  have hlast : ∀ c ∈ ("from ".toList ++ path ++ ' ' :: "import".toList).getLast?,
      isBlank c = false := by
    intro c hc
    rw [List.getLast?_append] at hc
    obtain rfl := Option.some.inj hc
    decide
  have htrim : trim (fromClause path []) = ("from ".toList ++ path) ++ ' ' :: "import".toList := by
    have htrim := trim_append_blank (w := [' ']) ⟨'f', rfl, by decide⟩ hlast
      (List.forall_mem_singleton.2 hspace)
    rw [← htrim, fromClause_eq]
  rw [importSuggestions_inside modules hspace (by decide) (not_blank_of_any (by decide)) htrim
    hwords]
  · rw [indentation_fromClause]
    refine List.map_congr_left fun name _ ↦ ?_
    rw [List.append_cons _ ' ' name]
    rfl
  · rw [hwords]
    simp only [List.cons_append, List.nil_append, List.mem_cons, List.not_mem_nil, or_false, not_or]
    exact ⟨by decide, hpathAs.symm, by decide⟩

/-- **Which names inside a module are offered.** All that go on from what has been typed of one, in
the order in which they are found, each as the statement that names it: this holds exactly when a
letter of the name has been typed or the module has nothing inside. Before the first letter the
names that start with `import` are offered instead, in the place of that word. -/
theorem importSuggestions_fromClause_eq_iff (hpath : path ≠ [])
    (hpathWord : ∀ c ∈ path, isBlank c = false) (hpathAs : path ≠ "as".toList)
    {start : List Char} (hstartWord : ∀ c ∈ start, isBlank c = false)
    (hstartAs : start ≠ "as".toList) :
    (importSuggestions (fromClause path start) modules =
        ((namesInside modules path start).map fun name ↦
          Suggestion.replacing (fromClause path start) (fromClause path name) name) ↔
      start ≠ [] ∨ namesInside modules path [] = []) ∧
    (start = [] → importSuggestions (fromClause path start) modules =
      (namesInside modules path "import".toList).map fun name ↦
        Suggestion.replacing (fromClause path start) ("from ".toList ++ path ++ ' ' :: name)
          name) := by
  rcases eq_or_ne start [] with rfl | hstart
  · have hoffered := importSuggestions_fromClause_nil modules hpath hpathWord hpathAs
    refine ⟨?_, fun _ ↦ hoffered⟩
    rw [hoffered, or_iff_right (not_not_intro rfl)]
    -- A statement without the word that introduces the name is too short to be one that has it.
    have hdiffers (found name : List Char) :
        Suggestion.replacing (fromClause path []) ("from ".toList ++ path ++ ' ' :: found) found ≠
          Suggestion.replacing (fromClause path []) (fromClause path name) name := fun heq ↦ by
      obtain ⟨hvalue, hdisplay, -⟩ := Suggestion.mk.inj heq
      rw [hdisplay, fromClause_eq] at hvalue
      simpa using congrArg List.length hvalue
    constructor
    · intro heq
      refine List.eq_nil_iff_forall_not_mem.2 fun name hname ↦ ?_
      obtain ⟨found, -, hfound⟩ := List.mem_map.1 (heq ▸ List.mem_map_of_mem hname)
      exact hdiffers found name hfound
    · intro hnone
      have hnoImport : namesInside modules path "import".toList = [] := by
        refine List.eq_nil_iff_forall_not_mem.2 fun name hname ↦ ?_
        obtain ⟨-, hfound⟩ := mem_namesInside_iff.1 hname
        exact List.not_mem_nil (hnone ▸ mem_namesInside_iff.2 ⟨List.nil_prefix, hfound⟩)
      rw [hnoImport, hnone]
      rfl
  · exact ⟨iff_of_true (importSuggestions_fromClause modules hpath hpathWord hpathAs hstart
      hstartWord hstartAs) (.inl hstart), fun hnil ↦ absurd hnil hstart⟩

end Behind

/-- Names inside a package, of which one letter has been typed. -/
theorem importSuggestions_fromClause_of_package :
    let modules : Modules := ⟨["dis"], [⟨"dump", false⟩, ⟨"sqlite3", true⟩,
      ⟨"sqlite3.dbapi2", false⟩, ⟨"sqlite3.dump", false⟩, ⟨"sqlite3.test", false⟩]⟩
    let path := "sqlite3".toList
    let start := "d".toList
    path ≠ [] ∧ (∀ c ∈ path, isBlank c = false) ∧ path ≠ "as".toList ∧
      (∀ c ∈ start, isBlank c = false) ∧ start ≠ "as".toList ∧
      (importSuggestions (fromClause path start) modules).map (String.ofList ·.value) =
        ["from sqlite3 import dbapi2", "from sqlite3 import dump"] := by
  intro modules path start
  have hpath : path ≠ [] := by decide
  have hpathWord : ∀ c ∈ path, isBlank c = false := not_blank_of_any (by decide)
  have hpathAs : path ≠ "as".toList := by decide
  have hstartWord : ∀ c ∈ start, isBlank c = false := not_blank_of_any (by decide)
  have hstartAs : start ≠ "as".toList := by decide
  refine ⟨hpath, hpathWord, hpathAs, hstartWord, hstartAs, ?_⟩
  obtain ⟨hoffered, -⟩ :=
    importSuggestions_fromClause_eq_iff modules hpath hpathWord hpathAs hstartWord hstartAs
  rw [hoffered.2 (.inl (by decide))]
  decide +kernel

/-- Behind `import` and a space what a package holds is missed, and a name that starts with that
word is put in the place of it. -/
theorem exists_importSuggestions_fromClause_ne :
    ∃ (modules : Modules) (path start : List Char), path ≠ [] ∧ (∀ c ∈ path, isBlank c = false) ∧
      path ≠ "as".toList ∧ (∀ c ∈ start, isBlank c = false) ∧ start ≠ "as".toList ∧
      (importSuggestions (fromClause path start) modules ≠
        (namesInside modules path start).map fun name ↦
          Suggestion.replacing (fromClause path start) (fromClause path name) name) ∧
      namesInside modules path start = ["mod".toList, "importer".toList] ∧
      (importSuggestions (fromClause path start) modules).map (·.value) =
        ["from pkg importer".toList] :=
  ⟨⟨[], [⟨"pkg", true⟩, ⟨"pkg.mod", false⟩, ⟨"pkg.importer", false⟩]⟩, "pkg".toList, [],
    by decide, not_blank_of_any (by decide), by decide, not_blank_of_any (by decide), by decide,
    by decide +kernel, by decide +kernel, by decide +kernel⟩

end LineCompletion
