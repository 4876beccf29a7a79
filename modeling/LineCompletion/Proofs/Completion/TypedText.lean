import LineCompletion.Completion.Tab
import LineCompletion.Proofs.Completion.Offers
import LineCompletion.Proofs.Line.Reconstruction
import LineCompletion.Proofs.Text.Words

/-!
# What becomes of the typed text

How far a completion keeps what has been typed. Every suggestion for a name begins with parts of the
line, and goes on with what the name adds: `Decomposition.kept` for members and bare names,
`keptByImport` for modules. Which parts these are depends on the line alone, and what comes after
them may be anything, so **the suggestions extend the line exactly when those parts do**
(`forall_appends_completeName_iff`, `forall_appends_importSuggestions_iff`).

They do not always. White space after a name is put before it, and where a quote or a number follows
an expression, only the expression is kept (`prefix_kept_iff`); an import statement loses the white
space at its end, but for a single space behind a keyword that stands alone
(`prefix_keptByImport_iff`).

**Every console, and some console.** That the parts are enough is a statement about every suggestion
of every console. That they are needed is shown by consoles made for it (`Console.offering`), which
offer names that go on from what was typed with a given letter. Two of them with different letters
are enough, for what starts both texts is before those letters (`prefix_of_prefix_append`). So a
line for which the condition fails has a console that loses some of it, and the equivalence is not
about consoles that offer nothing.

To extend the line is to start with it, and then accepting the suggestion inserts the rest at the
cursor and does nothing else (`Suggestion.Appends`, `appends_replacing_iff`).

`forall_appends_iff` puts both kinds of lines together, for all lines that are import statements or
end in a name. Lookups in brackets are not part of it, since there the line is not kept in general:
an offered key is put between quotes of its own. Nor are lines with placeholder text, as far as the
parts are compared with the line.
-/

namespace LineCompletion

open Text

/-! ### Accepting a suggestion -/

/-- Accepting a suggestion appends to the line and does nothing else. -/
def Suggestion.Appends (s : Suggestion) (line : List Char) : Prop :=
  ∃ rest, s.value = line ++ rest ∧
    ∀ buffer, TabHandler.accept s line buffer = buffer.insert rest

/-- A suggestion for a whole line appends to it if it starts with it. -/
theorem appends_replacing_iff {line value display : List Char} :
    (Suggestion.replacing line value display).Appends line ↔ line <+: value := by
  constructor
  · rintro ⟨rest, hvalue, -⟩
    exact ⟨rest, hvalue.symm⟩
  · rintro ⟨rest, rfl⟩
    refine ⟨rest, rfl, fun buffer ↦ ?_⟩
    have hextension : (Suggestion.replacing line (line ++ rest) display).extension? line =
        some rest := by
      have hreplaced : (Suggestion.replacing line (line ++ rest) display).replaced line = line := by
        cases line <;> rfl
      rw [Suggestion.extension?, hreplaced]
      exact Suggestion.dropPrefix?_eq_some_iff.2 rfl
    rw [TabHandler.accept, hextension]

/-! ### Matches go on from what was typed -/

namespace Console

/-- What is offered for a bare name goes on from what was typed of it. -/
theorem prefix_of_mem_bareMatches {console : Console} {start found : List Char}
    (h : found ∈ console.bareMatches start) : start <+: found := by
  rcases mem_bareMatches_iff.1 h with ⟨k, -, hstart, rfl⟩ | ⟨name, v, -, hstart, -, rfl⟩
  · exact hstart.trans (List.prefix_append _ _)
  · exact hstart.trans (List.prefix_append _ _)

/-- What is offered behind a dot goes on from the expression with what was typed of the member. -/
theorem prefix_of_mem_memberMatches {console : Console} {expr found : List Char}
    (h : found ∈ console.memberMatches expr) : expr <+: found := by
  obtain ⟨base, start, v, hsplit, -, name, hname, rfl⟩ := mem_memberMatches_iff.1 h
  obtain ⟨rest, hrest⟩ := prefix_of_mem_shownMembers hname
  rw [(splitLastDot?_eq_some_iff.1 hsplit).1, completedMember, ← hrest]
  rcases console.introspector.member? v name with - | member
  · exact ⟨rest, by simp⟩
  · exact ⟨rest ++ _, by simp [decorate, Hint.decorate]; rfl⟩

end Console

/-! ### Names -/

/-- What has been typed of a name: the expression, or the fragment where no expression is left. -/
def Decomposition.typed (d : Decomposition) : List Char :=
  if d.expr.isEmpty then d.fragment else d.expr

/-- With a dot in it, what was typed is the expression. -/
theorem Decomposition.typed_of_dot {d : Decomposition} (h : d.expr.contains '.' = true) :
    d.typed = d.expr := by
  rw [Decomposition.typed, if_neg]
  rintro hempty
  rw [List.isEmpty_iff.1 hempty] at h
  exact absurd h (by simp)

/-- What every suggestion for a member or a bare name begins with: what stands before the name, and
what has been typed of it. -/
def Decomposition.kept (d : Decomposition) : List Char := d.pretext ++ d.padding ++ d.typed

namespace Console

/-- Every suggestion for a name begins with the parts that are kept. -/
theorem exists_of_mem_completeName {console : Console} {line : List Char} {parts : Decomposition}
    {s : Suggestion} (h : s ∈ console.completeName line parts) :
    ∃ rest display, s = Suggestion.replacing line (parts.kept ++ rest) display := by
  obtain ⟨found, hfound, rfl⟩ := List.mem_map.1 h
  have hstart : parts.typed <+: found := by
    by_cases hdot : parts.expr.contains '.' = true
    · rw [if_pos hdot] at hfound
      rw [Decomposition.typed_of_dot hdot]
      exact prefix_of_mem_memberMatches hfound
    · rw [if_neg hdot] at hfound
      exact prefix_of_mem_bareMatches hfound
  obtain ⟨rest, rfl⟩ := hstart
  refine ⟨rest, parts.typed ++ rest, ?_⟩
  rw [Decomposition.kept, List.append_nil, List.append_assoc _ _ rest]

/-- A console that offers the names given, as members of every value, as words of the language and
as modules. -/
def offering (imports : Bool) (names : List String) : Console where
  host := Host.bare
  ns := Namespace.empty
  evaluator _ _ := .ok .none
  introspector := ⟨fun _ ↦ names, fun _ ↦ [], fun _ _ ↦ none⟩
  modules := ⟨[], names.map fun name ↦ ⟨name, false⟩⟩
  keywords := names.map fun name ↦ ⟨name, ""⟩
  settings := ⟨true, imports, '\''⟩

/-- Such a console offers a name with one letter more as a bare name. -/
theorem mem_bareMatches_offering (imports : Bool) (start : List Char) (c : Char) :
    start ++ [c] ∈ (offering imports [String.ofList (start ++ [c])]).bareMatches start := by
  refine mem_bareMatches_iff.2 (.inl ⟨⟨String.ofList (start ++ [c]), ""⟩, ?_, ?_, ?_⟩)
  · exact List.mem_singleton.2 rfl
  · rw [String.toList_ofList]
    exact List.prefix_append _ _
  · rw [Keyword.completed, String.toList_ofList]
    exact (List.append_nil _).symm

/-- A name is not shaded by what has been typed of it, if no underscore comes next. -/
theorem hides_append_eq_false (start : List Char) {c : Char} (hc : c ≠ '_') :
    (Shading.ofStart start).hides (start ++ [c]) = false := by
  have hbeq : ('_' == c) = false := beq_eq_false_iff_ne.2 (Ne.symm hc)
  rw [Shading.ofStart.eq_def]
  split
  · simp [Shading.hides, List.isPrefixOf, hbeq]
  · simp [Shading.hides, List.isPrefixOf, hbeq]
  · rfl

/-- Such a console gives every expression a value. -/
theorem resolve_offering (imports : Bool) (names : List String) (expr : List Char) :
    (offering imports names).resolve expr = some .none := by
  rw [resolve]
  rw [if_neg (by simp [offering])]
  rfl

/-- Such a console offers a name with one letter more as a member. -/
theorem mem_memberMatches_offering (imports : Bool) {expr base start : List Char} {c : Char}
    (h : splitLastDot? expr = some (base, start)) (hc : c ≠ '_') :
    expr ++ [c] ∈ (offering imports [String.ofList (start ++ [c])]).memberMatches expr := by
  have hname : (String.ofList (start ++ [c])).toList = start ++ [c] := String.toList_ofList
  have hmember : String.ofList (start ++ [c]) ∈
      (offering imports [String.ofList (start ++ [c])]).allMemberNames .none := by
    refine List.mem_filter.2 ⟨mem_sortedNames.2 ?_, ?_⟩
    · exact List.mem_append_left _ (List.mem_singleton.2 rfl)
    rw [bne_iff_ne]
    intro hhidden
    -- The one name that is hidden from members ends in an underscore.
    have hends := congrArg (fun n : String ↦ n.toList.getLast?) hhidden
    rw [hname, List.getLast?_append] at hends
    exact hc (Option.some.inj (hends.trans (by decide : _ = some '_')))
  have hshown : String.ofList (start ++ [c]) ∈
      (offering imports [String.ofList (start ++ [c])]).shownMembers .none start := by
    refine Shading.mem_visibleNames_of_mem_left
      (Shading.mem_left_iff.2 ⟨List.mem_filter.2 ⟨hmember, ?_⟩, ?_⟩)
    · rw [List.isPrefixOf_iff_prefix, hname]
      exact List.prefix_append _ _
    · rw [hname]
      exact hides_append_eq_false start hc
  refine mem_memberMatches_iff.2 ⟨base, start, .none, h, resolve_offering _ _ _, _, hshown, ?_⟩
  show expr ++ [c] = base ++ '.' :: (String.ofList (start ++ [c])).toList
  rw [hname, (splitLastDot?_eq_some_iff.1 h).1]
  simp

/-- Whatever has been typed of a name, some console offers one in which a given letter comes
next. -/
theorem exists_mem_completeName_offering (imports : Bool) (line : List Char) (parts : Decomposition)
    {c : Char} (hc : c ≠ '_') :
    ∃ names display, Suggestion.replacing line (parts.kept ++ [c]) display ∈
      (offering imports names).completeName line parts := by
  have hoffered : ∃ names, parts.typed ++ [c] ∈ (if parts.expr.contains '.'
      then (offering imports names).memberMatches parts.expr
      else (offering imports names).bareMatches parts.typed) := by
    by_cases hdot : parts.expr.contains '.' = true
    · obtain ⟨base, start, hsplit⟩ := exists_splitLastDot? hdot
      refine ⟨[String.ofList (start ++ [c])], ?_⟩
      rw [if_pos hdot, Decomposition.typed_of_dot hdot]
      exact mem_memberMatches_offering imports hsplit hc
    · refine ⟨[String.ofList (parts.typed ++ [c])], ?_⟩
      rw [if_neg hdot]
      exact mem_bareMatches_offering imports parts.typed c
  obtain ⟨names, hnames⟩ := hoffered
  refine ⟨names, parts.typed ++ [c], List.mem_map.2 ⟨parts.typed ++ [c], hnames, ?_⟩⟩
  rw [Decomposition.kept, List.append_nil, List.append_assoc _ _ [c]]

end Console

/-- What two texts start with that go on with different letters, they start with before those. -/
theorem prefix_of_prefix_append {s t : List Char} {a b : Char} (hab : a ≠ b)
    (ha : s <+: t ++ [a]) (hb : s <+: t ++ [b]) : s <+: t := by
  rcases List.prefix_concat_iff.1 ha with rfl | h
  · have heq := hb.eq_of_length (by simp)
    exact absurd (List.append_inj_right heq rfl) (by simpa using hab)
  · exact h

/-- If the parts start with the line, so does every suggestion for a name. -/
theorem appends_of_mem_completeName {console : Console} {line : List Char} {parts : Decomposition}
    (h : line <+: parts.kept) {s : Suggestion} (hs : s ∈ console.completeName line parts) :
    s.Appends line := by
  obtain ⟨rest, display, rfl⟩ := console.exists_of_mem_completeName hs
  exact appends_replacing_iff.2 (h.trans (List.prefix_append _ _))

/-- **Which lines the suggestions for a name extend.** They all do, whatever is offered, exactly
when the parts of the line they begin with start with the line. -/
theorem forall_appends_completeName_iff (line : List Char) (parts : Decomposition) :
    (∀ console : Console, console.settings.completeImports = false →
      ∀ s ∈ console.completeName line parts, s.Appends line) ↔ line <+: parts.kept := by
  constructor
  · intro h
    -- Two consoles in which different letters come next have only these parts in common.
    obtain ⟨names, display, ha⟩ := Console.exists_mem_completeName_offering false line parts
      (show 'a' ≠ '_' by decide)
    obtain ⟨names', display', hb⟩ := Console.exists_mem_completeName_offering false line parts
      (show 'b' ≠ '_' by decide)
    exact prefix_of_prefix_append (by decide) (appends_replacing_iff.1 (h _ rfl _ ha))
      (appends_replacing_iff.1 (h _ rfl _ hb))
  · intro h console _ s hs
    exact appends_of_mem_completeName h hs

/-- The parts that are kept, where only one of expression and fragment was typed. -/
theorem kept_of_one {d : Decomposition} (h : d.expr = [] ∨ d.fragment = []) :
    d.kept = d.pretext ++ d.padding ++ d.expr ++ d.fragment := by
  rw [Decomposition.kept, Decomposition.typed]
  by_cases hexpr : d.expr = []
  · rw [hexpr, List.append_nil]
    rfl
  · rw [if_neg (by rwa [List.isEmpty_iff]), h.resolve_left hexpr, List.append_nil]

/-- The parts start with the line only if they are the line: nothing was typed between the name and
the end of it, neither white space nor, behind an expression, a fragment. -/
theorem prefix_kept_iff {line : List Char} (free : PlaceholderFree line)
    (hlookup : (decompose line).lookup = .absent) :
    line <+: (decompose line).kept ↔
      ((decompose line).expr = [] ∨ (decompose line).fragment = []) ∧
        line = (decompose line).pretext ++ (decompose line).padding ++ (decompose line).expr ++
          (decompose line).fragment := by
  obtain ⟨place, hflatten, -, hkeyed⟩ := exists_arranges_decompose free
  generalize decompose line = d at hlookup hflatten hkeyed ⊢
  have hlength : line.length =
      d.pretext.length + d.padding.length + d.expr.length + d.fragment.length := by
    rw [← hflatten]
    cases place with
    | beforeExpr | beforeFragment | afterFragment =>
      simp only [Decomposition.inOrder, hlookup, Lookup.text, List.flatten_cons, List.flatten_nil,
        List.length_append, List.length_nil]
      omega
    | beforeQuote =>
      obtain ⟨quote, hkey⟩ := hkeyed rfl
      exact absurd (hlookup.symm.trans hkey) (by simp)
  constructor
  · intro h
    -- The line is as long as its parts, so a fragment left out would make what is kept too short.
    have hle := h.length_le
    rw [Decomposition.kept, List.length_append, List.length_append, hlength] at hle
    have hone : d.expr = [] ∨ d.fragment = [] := by
      by_cases hexpr : d.expr = []
      · exact .inl hexpr
      · rw [Decomposition.typed, if_neg (by rwa [List.isEmpty_iff])] at hle
        exact .inr (List.eq_nil_of_length_eq_zero (by omega))
    have hkept := kept_of_one hone
    refine ⟨hone, hkept ▸ h.eq_of_length ?_⟩
    rw [hkept, hlength]
    simp only [List.length_append]
  · rintro ⟨hone, hline⟩
    refine ⟨[], ?_⟩
    rw [List.append_nil, kept_of_one hone]
    exact hline

/-! ### Modules -/

/-- What every suggestion for a module begins with. -/
def keptByImport (line : List Char) : List Char :=
  indentation line ++ (splitLastWord (trim line)).1 ++ (splitLastWord (trim line)).2

/-- What is offered for a module goes on from what was typed of it. -/
theorem prefix_of_mem_importNames {modules : Modules} {path? : Option (List Char)}
    {last name : List Char} (h : name ∈ importNames modules path? last) : last <+: name := by
  cases path? with
  | none => exact (mem_moduleNames_iff.1 h).1
  | some path =>
    obtain ⟨whole, hwhole, rfl⟩ := List.mem_map.1 h
    obtain ⟨⟨rest, rfl⟩, -⟩ := mem_moduleNames_iff.1 hwhole
    exact ⟨rest, by simp⟩

/-- Every suggestion for a module begins with the parts that are kept. -/
theorem exists_of_mem_importSuggestions {line : List Char} {modules : Modules} {s : Suggestion}
    (h : s ∈ importSuggestions line modules) :
    "as".toList ∉ words (trim line) ∧
      ∃ rest display, s = Suggestion.replacing line (keptByImport line ++ rest) display := by
  obtain ⟨has, name, hname, rfl⟩ := mem_importSuggestions_iff.1 h
  obtain ⟨rest, rfl⟩ := prefix_of_mem_importNames hname
  refine ⟨has, rest, (splitLastWord (trim line)).2 ++ rest, ?_⟩
  rw [keptByImport, List.append_assoc _ _ rest]

/-- Some console offers a module with a given letter behind those parts. -/
theorem exists_mem_importSuggestions_offering {line : List Char}
    (has : "as".toList ∉ words (trim line)) (c : Char) :
    ∃ names display, Suggestion.replacing line (keptByImport line ++ [c]) display ∈
      importSuggestions line (Console.offering true names).modules := by
  have hmodule : ∀ q : List Char,
      q ++ [c] ∈ moduleNames (Console.offering true [String.ofList (q ++ [c])]).modules q :=
    fun q ↦ mem_moduleNames_iff.2 ⟨List.prefix_append _ _, .inr
      ⟨⟨String.ofList (q ++ [c]), false⟩, List.mem_singleton.2 rfl, String.toList_ofList.symm⟩⟩
  have hoffered : ∃ names, (splitLastWord (trim line)).2 ++ [c] ∈
      importNames (Console.offering true names).modules (importPath? (words (trim line)))
        (splitLastWord (trim line)).2 := by
    -- Behind a path the module offered is one inside it.
    rcases importPath? (words (trim line)) with - | path
    · exact ⟨_, hmodule _⟩
    · refine ⟨_, List.mem_map.2 ⟨_, hmodule (path ++ '.' :: (splitLastWord (trim line)).2), ?_⟩⟩
      simp
  obtain ⟨names, hnames⟩ := hoffered
  refine ⟨names, (splitLastWord (trim line)).2 ++ [c],
    mem_importSuggestions_iff.2 ⟨has, _, hnames, ?_⟩⟩
  rw [keptByImport, List.append_assoc _ _ [c]]

/-- A text that holds white space is divided before its last word, and one that does not is a word
with a space put behind it. -/
theorem splitLastWord_append (s : List Char) [Decidable (∀ c ∈ s, isBlank c = false)] :
    (splitLastWord s).1 ++ (splitLastWord s).2 =
      if ∀ c ∈ s, isBlank c = false then s ++ [' '] else s := by
  rw [splitLastWord]
  have hempty : (throughLastBlank s).isEmpty = true ↔ ∀ c ∈ s, isBlank c = false := by
    rw [List.isEmpty_iff, throughLastBlank, List.reverse_eq_nil_iff, List.dropWhile_eq_nil_iff]
    simp
  by_cases hblank : ∀ c ∈ s, isBlank c = false
  · rw [if_pos (hempty.2 hblank), if_pos hblank, List.append_nil]
  · rw [if_neg (mt hempty.1 hblank), if_neg hblank]
    have hstart : throughLastBlank s <+: s := by
      rw [← List.reverse_suffix, throughLastBlank, List.reverse_reverse]
      exact List.dropWhile_suffix _
    exact List.prefix_iff_eq_append.1 hstart

/-- The parts start with the line only if nothing was typed behind the last word, but for a single
space behind a keyword that stands alone. -/
theorem prefix_keptByImport_iff {line : List Char}
    (himport : isImportStatement (trim line) = true) :
    line <+: keptByImport line ↔
      trimEnd line = line ∨
        (∀ c ∈ trim line, isBlank c = false) ∧ line = trimEnd line ++ [' '] := by
  have hne : trim line ≠ [] := by
    rintro hnil
    rw [hnil] at himport
    exact absurd himport (by decide)
  have hshort : trimEnd line <+: line := ⟨_, trimEnd_append_trailingBlanks line⟩
  have hwhole : line <+: trimEnd line ↔ trimEnd line = line :=
    ⟨fun h ↦ hshort.eq_of_length (Nat.le_antisymm hshort.length_le h.length_le),
      fun h ↦ h.symm ▸ List.prefix_rfl⟩
  rw [keptByImport, List.append_assoc, splitLastWord_append]
  -- Behind a keyword that stands alone the one space is put back.
  by_cases hblank : ∀ c ∈ trim line, isBlank c = false
  · rw [if_pos hblank, ← List.append_assoc, indentation_append_trim hne, List.prefix_concat_iff,
      hwhole, or_comm, and_iff_right hblank]
  · rw [if_neg hblank, indentation_append_trim hne, hwhole]
    exact ⟨.inl, fun h ↦ h.resolve_right fun h ↦ hblank h.1⟩

/-- **Which lines the suggestions for a module extend.** -/
theorem forall_appends_importSuggestions_iff {line : List Char}
    (himport : isImportStatement (trim line) = true) :
    (∀ modules : Modules, ∀ s ∈ importSuggestions line modules, s.Appends line) ↔
      "as".toList ∈ words (trim line) ∨ trimEnd line = line ∨
        (∀ c ∈ trim line, isBlank c = false) ∧ line = trimEnd line ++ [' '] := by
  rw [← prefix_keptByImport_iff himport]
  constructor
  · intro h
    refine or_iff_not_imp_left.2 fun has ↦ ?_
    obtain ⟨names, display, ha⟩ := exists_mem_importSuggestions_offering has 'a'
    obtain ⟨names', display', hb⟩ := exists_mem_importSuggestions_offering has 'b'
    exact prefix_of_prefix_append (by decide) (appends_replacing_iff.1 (h _ _ ha))
      (appends_replacing_iff.1 (h _ _ hb))
  · intro h modules s hs
    obtain ⟨has, rest, display, rfl⟩ := exists_of_mem_importSuggestions hs
    exact appends_replacing_iff.2 ((h.resolve_left has).trans (List.prefix_append _ _))

/-! ### Whole completions -/

namespace Console

variable {console : Console} {line : List Char} (buffer : LineBuffer)

/-- An import statement is completed by modules. -/
theorem complete_of_import
    (h : (console.settings.completeImports && isImportStatement (trim line)) = true) :
    console.complete line buffer = (importSuggestions line console.modules, buffer) := if_pos h

/-- A line that ends in no lookup is completed by names. -/
theorem complete_of_absent
    (h : (console.settings.completeImports && isImportStatement (trim line)) = false)
    (hlookup : (decompose line).lookup = .absent) :
    console.complete line buffer = (console.completeName line (decompose line), buffer) :=
  (if_neg (Bool.eq_false_iff.1 h)).trans (if_pos hlookup)

end Console

/-- **When completion only appends.** For an import statement, the suggestions of every console
extend the line exactly when none can be offered, when the line ends in no white space, or when a
single space is all that was typed behind the keyword. For a line that ends in a name they do so
exactly when the parts they begin with start with the line; without placeholder text in it, that is
when the padding was typed before the name, and not both an expression and a fragment. -/
theorem forall_appends_iff (line : List Char) :
    (isImportStatement (trim line) = true →
      ((∀ console : Console, console.settings.completeImports = true → ∀ buffer,
          ∀ s ∈ (console.complete line buffer).1, s.Appends line) ↔
        "as".toList ∈ words (trim line) ∨ trimEnd line = line ∨
          (∀ c ∈ trim line, isBlank c = false) ∧ line = trimEnd line ++ [' '])) ∧
    ((decompose line).lookup = .absent →
      ((∀ console : Console,
          (console.settings.completeImports && isImportStatement (trim line)) = false → ∀ buffer,
          ∀ s ∈ (console.complete line buffer).1, s.Appends line) ↔
        line <+: (decompose line).kept) ∧
      (PlaceholderFree line → (line <+: (decompose line).kept ↔
        ((decompose line).expr = [] ∨ (decompose line).fragment = []) ∧
          line = (decompose line).pretext ++ (decompose line).padding ++ (decompose line).expr ++
            (decompose line).fragment))) := by
  refine ⟨fun himport ↦ ?_, fun hlookup ↦ ⟨?_, fun free ↦ prefix_kept_iff free hlookup⟩⟩
  · rw [← forall_appends_importSuggestions_iff himport]
    constructor
    · intro h modules s hs
      let console : Console := { Console.offering true [] with modules := modules }
      refine h console rfl (.ofText 0 []) s ?_
      have himports : (console.settings.completeImports && isImportStatement (trim line)) = true :=
        himport
      rw [Console.complete_of_import _ himports]
      exact hs
    · intro h console himports buffer s hs
      rw [Console.complete_of_import buffer (by rw [himports, himport]; rfl)] at hs
      exact h _ s hs
  · rw [← forall_appends_completeName_iff]
    constructor
    · intro h console himports s hs
      have hnames :
          (console.settings.completeImports && isImportStatement (trim line)) = false := by
        rw [himports]
        rfl
      exact h console hnames (.ofText 0 []) s
        (by rwa [Console.complete_of_absent _ hnames hlookup])
    · intro h console hnames buffer s hs
      rw [Console.complete_of_absent _ hnames hlookup] at hs
      exact appends_of_mem_completeName ((forall_appends_completeName_iff _ _).1 h) hs

/-- A name typed up to its end is extended by every console, in any way. -/
theorem forall_appends_of_typed_name :
    (decompose "x = ab".toList).lookup = .absent ∧ PlaceholderFree "x = ab".toList ∧
      ∀ console : Console, ∀ buffer, ∀ s ∈ (console.complete "x = ab".toList buffer).1,
        s.Appends "x = ab".toList := by
  have hlookup : (decompose "x = ab".toList).lookup = .absent := by decide +kernel
  have free : PlaceholderFree "x = ab".toList := placeholderFree_of_not_mem (by decide)
  obtain ⟨happends, hkept⟩ := (forall_appends_iff "x = ab".toList).2 hlookup
  refine ⟨hlookup, free, fun console ↦ happends.2 ((hkept free).2 ?_) console ?_⟩
  · decide +kernel
  · rw [show isImportStatement (trim "x = ab".toList) = false by decide +kernel, Bool.and_false]

/-- A console with standard settings that knows one module and one word. -/
def oneWordConsole : Console where
  host := Host.bare
  ns := Namespace.empty
  evaluator := Evaluator.standard Host.bare
  introspector := Introspector.standard
  modules := ⟨["sys"], []⟩
  keywords := [⟨"abc", ""⟩]
  settings := Settings.standard

/-- One of two spaces behind a keyword is lost, white space behind a name is moved before it, and a
quote behind a name is lost with what follows it. -/
theorem exists_not_appends :
    (∃ s ∈ (oneWordConsole.complete "import  ".toList (.ofText 80 [])).1,
      s.value = "import sys".toList ∧ ¬ s.Appends "import  ".toList) ∧
    (∃ s ∈ (oneWordConsole.complete "ab ".toList (.ofText 80 [])).1,
      s.value = " abc".toList ∧ ¬ s.Appends "ab ".toList) ∧
    ∃ s ∈ (oneWordConsole.complete "ab'c".toList (.ofText 80 [])).1,
      s.value = "abc".toList ∧ ¬ s.Appends "ab'c".toList := by
  have hnot : ∀ {line value display : List Char}, ¬ line <+: value →
      ¬ (Suggestion.replacing line value display).Appends line := fun h happends ↦
    h (appends_replacing_iff.1 happends)
  have hmodule : (oneWordConsole.complete "import  ".toList (.ofText 80 [])).1 =
      [Suggestion.replacing "import  ".toList "import sys".toList "sys".toList] := by decide +kernel
  have hspace : (oneWordConsole.complete "ab ".toList (.ofText 80 [])).1 =
      [Suggestion.replacing "ab ".toList " abc".toList "abc".toList] := by decide +kernel
  have hquote : (oneWordConsole.complete "ab'c".toList (.ofText 80 [])).1 =
      [Suggestion.replacing "ab'c".toList "abc".toList "abc".toList] := by decide +kernel
  rw [hmodule, hspace, hquote]
  exact ⟨⟨_, List.mem_singleton.2 rfl, rfl, hnot (by decide)⟩,
    ⟨_, List.mem_singleton.2 rfl, rfl, hnot (by decide)⟩,
    ⟨_, List.mem_singleton.2 rfl, rfl, hnot (by decide)⟩⟩

end LineCompletion
