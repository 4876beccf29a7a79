import LineCompletion.Proofs.Completion.Shading
import Mathlib.Data.List.TakeDrop
import Mathlib.Data.List.TakeWhile

/-!
# What is offered

Where the texts offered for a name come from, for each kind of name: a keyword or a name that can be
seen (`mem_bareMatches_iff`), a member of what stands before the last dot (`mem_memberMatches_iff`),
a module (`mem_importSuggestions_iff`). Each says both that nothing else is offered and that nothing
of it is missing. The order in which they are offered is no part of this, but for members, which
come sorted (`memberMatches_eq`).

**What a name goes on with is said by its value** (`GoesOnWith`), and not by the hint that the
program computes for it: nothing for data and for a set, a bracket and a quote for a mapping, a
bracket for a sequence, a parenthesis for what can be called, and a dot for everything else. Each
case is a constructor with its conditions, from which it can be read that data comes first, so that
a text goes on with nothing although it is a sequence, and that what takes subscripts comes before
what can be called. `goesOnWith_iff` says that the program's hint is this.

A member goes on in the same way behind the text and the dot (`BecomesMember`). A name of which no
member is found stays as it is, which happens where the source of names and the source of members
are not of one mind. What a name becomes is one text (`becomesMember_iff`), so it can be used as a
function of the name.

Names that can be seen are offered unless they are keywords; keywords are offered with the suffix
that the table has for them, whatever the name is bound to.

Modules are offered by their names, from the place that the words of the statement say. The modules
built into the interpreter are offered as long as no dot has been typed, and those found always.
-/

namespace LineCompletion

open Text

namespace Console

/-! ### Keywords and names -/

/-- What is offered for a bare name: keywords, and names that are none. -/
theorem mem_bareMatches_iff {console : Console} {start found : List Char} :
    found ∈ console.bareMatches start ↔
      (∃ k ∈ console.keywords, start <+: k.word.toList ∧ found = k.completed) ∨
        ∃ name v, (name, v) ∈ console.ns.visible ∧ start <+: name.toList ∧
          Keyword.isKeyword (Keyword.startingWith console.keywords start) name = false ∧
          found = console.decorate name.toList v := by
  rw [bareMatches, List.mem_append]
  refine or_congr ?_ ?_
  · constructor
    · intro h
      obtain ⟨k, hk, rfl⟩ := List.mem_map.1 h
      obtain ⟨hmem, hstart⟩ := List.mem_filter.1 hk
      exact ⟨k, hmem, List.isPrefixOf_iff_prefix.1 hstart, rfl⟩
    · rintro ⟨k, hmem, hstart, rfl⟩
      refine List.mem_map.2 ⟨k, List.mem_filter.2 ⟨hmem, ?_⟩, rfl⟩
      exact List.isPrefixOf_iff_prefix.2 hstart
  · constructor
    · intro h
      obtain ⟨⟨name, v⟩, hname, rfl⟩ := List.mem_map.1 h
      obtain ⟨hmem, hboth⟩ := List.mem_filter.1 hname
      rw [Bool.and_eq_true, Bool.not_eq_true'] at hboth
      exact ⟨name, v, hmem, List.isPrefixOf_iff_prefix.1 hboth.1, hboth.2, rfl⟩
    · rintro ⟨name, v, hmem, hstart, hfree, rfl⟩
      refine List.mem_map.2 ⟨(name, v), List.mem_filter.2 ⟨hmem, ?_⟩, rfl⟩
      rw [Bool.and_eq_true, Bool.not_eq_true']
      exact ⟨List.isPrefixOf_iff_prefix.2 hstart, hfree⟩

/-! ### Members -/

/-- An expression is divided at the dot that no other follows. -/
theorem splitLastDot?_eq_some_iff {expr base start : List Char} :
    splitLastDot? expr = some (base, start) ↔ expr = base ++ '.' :: start ∧ '.' ∉ start := by
  have hsplit := List.takeWhile_append_dropWhile (p := (· != '.')) (l := expr.reverse)
  have hhead := List.head?_dropWhile_not (· != '.') expr.reverse
  rw [splitLastDot?, List.span_eq_takeWhile_dropWhile]
  constructor
  · intro h
    rcases hdrop : expr.reverse.dropWhile (· != '.') with - | ⟨dot, rest⟩ <;>
      rw [hdrop] at h hsplit hhead
    · exact absurd h (by simp)
    · obtain ⟨rfl, rfl⟩ := Prod.mk.inj (Option.some.inj h)
      obtain rfl : dot = '.' := by simpa using hhead
      have hreverse := congrArg List.reverse hsplit
      rw [List.reverse_reverse, List.reverse_append, List.reverse_cons,
        List.append_assoc] at hreverse
      refine ⟨hreverse.symm, fun hmem ↦ ?_⟩
      exact absurd (List.mem_takeWhile_imp (List.mem_reverse.1 hmem)) (by simp)
  · rintro ⟨rfl, hdot⟩
    have hstart : ∀ c ∈ start.reverse, (c != '.') = true := fun c hc ↦ by
      rw [bne_iff_ne]
      rintro rfl
      exact hdot (List.mem_reverse.1 hc)
    rw [List.reverse_append, List.reverse_cons, List.append_assoc,
      List.takeWhile_append_of_pos hstart, List.dropWhile_append_of_pos hstart]
    simp

/-- An expression with a dot in it is divided at the last one. -/
theorem exists_splitLastDot? {expr : List Char} (h : expr.contains '.' = true) :
    ∃ base start, splitLastDot? expr = some (base, start) := by
  obtain ⟨after, before, hreverse, hdot⟩ :=
    List.eq_append_cons_of_mem (List.mem_reverse.2 (List.contains_iff_mem.1 h))
  refine ⟨before.reverse, after.reverse, splitLastDot?_eq_some_iff.2 ⟨?_, ?_⟩⟩
  · rw [← List.reverse_reverse expr, hreverse, List.reverse_append, List.reverse_cons,
      List.append_assoc]
    rfl
  · rwa [List.mem_reverse]

/-- The names collected for a value: the class, those on the value itself, and those that its
ancestors declare. -/
theorem mem_allMemberNames_iff {console : Console} {v : Value} {name : String} :
    name ∈ console.allMemberNames v ↔ name ≠ hiddenName ∧ (name = className ∨
      name ∈ console.introspector.memberNames v ∨
        ∃ t ∈ console.introspector.ancestors v, name ∈ Bindings.names t.members) := by
  rw [allMemberNames, List.mem_filter, mem_sortedNames, bne_iff_ne, and_comm, List.mem_append,
    List.mem_cons, List.mem_flatMap, or_left_comm]

/-- The names of members that go on from a text, as far as they are shown. -/
def shownMembers (console : Console) (v : Value) (start : List Char) : List String :=
  (Shading.ofStart start).visibleNames
    ((console.allMemberNames v).filter fun name ↦ start.isPrefixOf name.toList)

/-- A member as it is completed behind what its value is written as. -/
def completedMember (console : Console) (v : Value) (base : List Char) (name : String) :
    List Char :=
  let word := base ++ '.' :: name.toList
  ((console.introspector.member? v name).map (console.decorate word)).getD word

/-- What a name for a value goes on with: nothing for data and for a set, which take no step, a
bracket and a quote for a mapping, a bracket for a sequence, a parenthesis for what can be called,
and the dot of a member for everything else. -/
inductive GoesOnWith (console : Console) (v : Value) : List Char → Prop
  /-- Data is not looked into, though texts are sequences. -/
  | data (hscalar : v.isScalar = true) : GoesOnWith console v []
  /-- A set has no subscripts. -/
  | set (hscalar : v.isScalar = false) (hflavour : v.flavour console.host = .set) :
      GoesOnWith console v []
  /-- A mapping is looked up by a key. -/
  | mapping (hscalar : v.isScalar = false) (hflavour : v.flavour console.host = .mapping) :
      GoesOnWith console v ['[', console.settings.keyQuote]
  /-- A sequence is looked up by an index. -/
  | sequence (hscalar : v.isScalar = false) (hflavour : v.flavour console.host = .sequence) :
      GoesOnWith console v ['[']
  /-- What can be called takes arguments. -/
  | callable (hscalar : v.isScalar = false) (hflavour : v.flavour console.host = .unknown)
      (hcallable : v.isCallable = true) : GoesOnWith console v ['(']
  /-- Everything else has members. -/
  | other (hscalar : v.isScalar = false) (hflavour : v.flavour console.host = .unknown)
      (hcallable : v.isCallable = false) : GoesOnWith console v ['.']

/-- What a name goes on with is what the hint for its value stands for. -/
theorem goesOnWith_iff {console : Console} {v : Value} {suffix : List Char} :
    console.GoesOnWith v suffix ↔
      suffix = (v.hint console.host).suffix console.settings.keyQuote := by
  constructor
  · intro h
    cases h with
    | data hscalar => simp [Value.hint, hscalar, Hint.suffix]
    | set hscalar hflavour => simp [Value.hint, hscalar, hflavour, Hint.suffix]
    | mapping hscalar hflavour => simp [Value.hint, hscalar, hflavour, Hint.suffix]
    | sequence hscalar hflavour => simp [Value.hint, hscalar, hflavour, Hint.suffix]
    | callable hscalar hflavour hcallable =>
      simp [Value.hint, hscalar, hflavour, hcallable, Hint.suffix]
    | other hscalar hflavour hcallable =>
      simp [Value.hint, hscalar, hflavour, hcallable, Hint.suffix]
  · rintro rfl
    rw [Value.hint]
    cases hscalar : v.isScalar with
    | true => exact .data hscalar
    | false =>
      simp only [Bool.false_eq_true, if_false]
      split
      · rename_i hflavour
        exact .mapping hscalar hflavour
      · rename_i hflavour
        exact .sequence hscalar hflavour
      · rename_i hflavour
        exact .set hscalar hflavour
      · rename_i hflavour
        cases hcallable : v.isCallable with
        | true => exact .callable hscalar hflavour hcallable
        | false => exact .other hscalar hflavour hcallable

/-- What a name becomes when it is completed as a member behind what its value is written as. A name
for which no member is found stays as it is. -/
inductive BecomesMember (console : Console) (v : Value) (base : List Char) (name : String) :
    List Char → Prop
  /-- Nothing is known of the member. -/
  | unknown (hmember : console.introspector.member? v name = none) :
      BecomesMember console v base name (base ++ '.' :: name.toList)
  /-- The member is found, and the name goes on with what its value asks for. -/
  | known {member : Value} {suffix : List Char}
      (hmember : console.introspector.member? v name = some member)
      (hsuffix : console.GoesOnWith member suffix) :
      BecomesMember console v base name (base ++ '.' :: name.toList ++ suffix)

/-- A name becomes one text only, with the hint for the member's value behind it. -/
theorem becomesMember_iff {console : Console} {v : Value} {base : List Char} {name : String}
    {text : List Char} :
    console.BecomesMember v base name text ↔ text = console.completedMember v base name := by
  constructor
  · intro h
    cases h with
    | unknown hmember =>
      rw [completedMember, hmember]
      rfl
    | known hmember hsuffix =>
      rw [completedMember, hmember, goesOnWith_iff.1 hsuffix]
      rfl
  · rintro rfl
    rw [completedMember]
    rcases hmember : console.introspector.member? v name with - | member
    · exact .unknown hmember
    · exact .known hmember (goesOnWith_iff.2 rfl)

/-- What is offered behind the dot after a text with a value. -/
theorem memberMatches_eq {console : Console} {expr base start : List Char} {v : Value}
    (hsplit : splitLastDot? expr = some (base, start)) (hv : console.resolve base = some v) :
    console.memberMatches expr =
      ((console.shownMembers v start).map (console.completedMember v base)).mergeSort precedes := by
  rw [memberMatches, hsplit]
  dsimp only
  rw [hv]
  rfl

/-- What is offered behind a dot: the members of the value before it, as far as they are shown. -/
theorem mem_memberMatches_iff {console : Console} {expr found : List Char} :
    found ∈ console.memberMatches expr ↔
      ∃ base start v, splitLastDot? expr = some (base, start) ∧ console.resolve base = some v ∧
        ∃ name ∈ console.shownMembers v start, found = console.completedMember v base name := by
  constructor
  · intro h
    rcases hsplit : splitLastDot? expr with - | ⟨base, start⟩
    · rw [memberMatches, hsplit] at h
      exact absurd h List.not_mem_nil
    rcases hv : console.resolve base with - | v
    · rw [memberMatches, hsplit] at h
      dsimp only at h
      rw [hv] at h
      exact absurd h List.not_mem_nil
    rw [memberMatches_eq hsplit hv, List.mem_mergeSort] at h
    obtain ⟨name, hname, rfl⟩ := List.mem_map.1 h
    exact ⟨base, start, v, rfl, hv, name, hname, rfl⟩
  · rintro ⟨base, start, v, hsplit, hv, name, hname, rfl⟩
    rw [memberMatches_eq hsplit hv, List.mem_mergeSort]
    exact List.mem_map_of_mem hname

/-- Members that are shown go on from what was typed. -/
theorem prefix_of_mem_shownMembers {console : Console} {v : Value} {start : List Char}
    {name : String} (h : name ∈ console.shownMembers v start) : start <+: name.toList :=
  List.isPrefixOf_iff_prefix.1 (List.mem_filter.1 (Shading.mem_visibleNames_iff.1 h).1).2

end Console

/-! ### Modules -/

/-- What is offered for a module: those built in, until a dot is typed, and those found. -/
theorem mem_moduleNames_iff {modules : Modules} {start name : List Char} :
    name ∈ moduleNames modules start ↔
      start <+: name ∧ (('.' ∉ start ∧ ∃ m ∈ modules.builtin, name = m.toList) ∨
        ∃ m ∈ modules.found, name = m.name.toList) := by
  rw [moduleNames, List.mem_filter, List.mem_append, List.isPrefixOf_iff_prefix, and_comm]
  refine and_congr_right' (or_congr ?_ ?_)
  · by_cases hdot : '.' ∈ start
    · rw [if_pos (List.contains_iff_mem.2 hdot)]
      exact ⟨fun h ↦ absurd h List.not_mem_nil, fun h ↦ absurd hdot h.1⟩
    · rw [if_neg (mt List.contains_iff_mem.1 hdot), List.mem_map]
      exact ⟨fun ⟨m, hm, h⟩ ↦ ⟨hdot, m, hm, h.symm⟩, fun ⟨_, m, hm, h⟩ ↦ ⟨m, hm, h.symm⟩⟩
  · rw [List.mem_map]
    exact ⟨fun ⟨m, hm, h⟩ ↦ ⟨m, hm, h.symm⟩, fun ⟨m, hm, h⟩ ↦ ⟨m, hm, h.symm⟩⟩

/-- What is offered for a statement: a name in place of its last word, unless `as` is one of its
words. -/
theorem mem_importSuggestions_iff {line : List Char} {modules : Modules} {s : Suggestion} :
    s ∈ importSuggestions line modules ↔
      "as".toList ∉ words (trim line) ∧
        ∃ name ∈ importNames modules (importPath? (words (trim line)))
            (splitLastWord (trim line)).2,
          s = Suggestion.replacing line
            (indentation line ++ (splitLastWord (trim line)).1 ++ name) name := by
  rw [importSuggestions]
  dsimp only
  split
  · rename_i has
    exact ⟨fun h ↦ absurd h List.not_mem_nil,
      fun h ↦ absurd (List.contains_iff_mem.1 has) h.1⟩
  · rename_i has
    constructor
    · intro h
      obtain ⟨name, hname, rfl⟩ := List.mem_map.1 h
      exact ⟨fun hmem ↦ has (List.contains_iff_mem.2 hmem), name, hname, rfl⟩
    · rintro ⟨-, name, hname, rfl⟩
      exact List.mem_map.2 ⟨name, hname, rfl⟩

end LineCompletion
