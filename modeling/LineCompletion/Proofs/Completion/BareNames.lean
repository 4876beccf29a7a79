import LineCompletion.Proofs.Completion.Members
import LineCompletion.Proofs.Completion.TypedText
import LineCompletion.Proofs.Line.Parts
import LineCompletion.Proofs.Namespace.Visible

/-!
# Bare names

What is offered behind the beginning of a name at the end of a line, exactly and in order
(`Console.complete_append_name`): the keywords that go on from it, as the table has them, and then
the names that can be seen and do, scope by scope. What stands before the name is kept as it was
typed, white space and all.

**The statement has two halves.** The suggestions are given as one list, so nothing else is offered
and nothing is offered in another place; and what the names in that list are is said without the
program, by what can be seen, what goes on from the beginning, and what is a keyword. The order of
the names is that of their scopes (`Namespace.ComesBefore`), which is a relation between names and
not the way in which they are collected.

A name that is a keyword too is offered as the keyword only (`mem_offeredNames_iff`), so nothing is
offered twice as long as the table has no word twice (`nodup_offered`). The hidden name is never
offered, whatever is bound to it.

The conditions on the line are those under which a name stands at its end. All literals before it
are closed; a delimiter stands before it, or nothing; that delimiter closes no bracket, since behind
a closed bracket a name would belong to the expression; and the name is no number, which would be
taken for an index. Lines with placeholder text in them are left out, for masking could not be
undone there. What is offered for an import statement is another matter, and so is what is offered
behind a dot.

The members of the namespace are values of any kind, and each name goes on with the hint for its
value, as far as that depends on the settings with the quote that is set there.
-/

namespace LineCompletion

open Text

namespace Console

variable {console : Console} {start : List Char}

/-- The names offered for the beginning of one, apart from keywords, with what they stand for. -/
def offeredNames (console : Console) (start : List Char) : List (String × Value) :=
  console.ns.visible.filter fun (name, _) ↦
    start.isPrefixOf name.toList &&
      !(Keyword.startingWith console.keywords start).any (·.word == name)

/-- Keywords come first, with their suffixes, and then names with the hints for their values. -/
theorem bareMatches_eq (console : Console) (start : List Char) :
    console.bareMatches start =
      (Keyword.startingWith console.keywords start).map Keyword.completed ++
        (console.offeredNames start).map fun (name, v) ↦ console.decorate name.toList v := rfl

/-- A name that goes on from the beginning is offered unless it is a keyword, and such a keyword
goes on from it as well. -/
theorem mem_offeredNames_iff {name : String} {v : Value} :
    (name, v) ∈ console.offeredNames start ↔
      name ≠ hiddenName ∧ console.ns.get? name = some v ∧ start <+: name.toList ∧
        name ∉ console.keywords.map Keyword.word := by
  rw [offeredNames, List.mem_filter, Namespace.mem_visible_iff, and_assoc, Bool.and_eq_true,
    List.isPrefixOf_iff_prefix, Bool.not_eq_true', Bool.eq_false_iff]
  refine and_congr_right' (and_congr_right' (and_congr_right fun hstart ↦ not_congr ?_))
  rw [List.any_eq_true, List.mem_map]
  constructor
  · rintro ⟨k, hk, hword⟩
    exact ⟨k, (List.mem_filter.1 hk).1, beq_iff_eq.1 hword⟩
  · rintro ⟨k, hk, rfl⟩
    exact ⟨k, List.mem_filter.2 ⟨hk, List.isPrefixOf_iff_prefix.2 hstart⟩, beq_self_eq_true _⟩

/-- The names that are offered keep the order of those that can be seen. -/
theorem pairwise_offeredNames (console : Console) (start : List Char) :
    (console.offeredNames start).Pairwise console.ns.ComesBefore :=
  console.ns.pairwise_visible.filter _

/-- No word is offered twice, be it as a keyword or as a name. -/
theorem nodup_offered (h : (console.keywords.map Keyword.word).Nodup) (start : List Char) :
    ((Keyword.startingWith console.keywords start).map Keyword.word ++
      (console.offeredNames start).map Prod.fst).Nodup := by
  refine List.nodup_append.2 ⟨h.sublist (List.filter_sublist.map _), ?_, ?_⟩
  · exact List.pairwise_map.2 ((console.pairwise_offeredNames start).imp fun hab ↦ hab.ne)
  · rintro word hword name hname rfl
    obtain ⟨⟨name, v⟩, hmem, rfl⟩ := List.mem_map.1 hname
    obtain ⟨k, hk, heq⟩ := List.mem_map.1 hword
    exact (mem_offeredNames_iff.1 hmem).2.2.2 (List.mem_map.2 ⟨k, (List.mem_filter.1 hk).1, heq⟩)

/-- **Bare names are completed exactly.** Behind a text with all its literals closed that ends in a
delimiter, and in none that closes a bracket, stands the beginning of a name. Then the suggestions
are the keywords that start with it, in the order of the table and with their suffixes, followed by
the names that start with it and are no keywords, in the order of their scopes and with the hints of
what they stand for. No word comes twice, and each suggestion is the text with that word behind
it. -/
theorem complete_append_name (console : Console) {p s : List Char} (buffer : LineBuffer)
    (notImport : (console.settings.completeImports && isImportStatement (trim (p ++ s))) = false)
    (free : PlaceholderFree (p ++ s)) (hclosed : Quoteless (mask p).text)
    (hp : ∀ c ∈ p.getLast?, isDelimiter c = true ∧ isCloser c = false)
    (hname : ∀ c ∈ s, isNameChar c = true) (hnumber : ∃ c ∈ s, isNumeric c = false)
    (hwords : (console.keywords.map Keyword.word).Nodup) :
    ∃ names : List (String × Value),
      console.complete (p ++ s) buffer =
        ((console.keywords.filter fun k ↦ s.isPrefixOf k.word.toList).map (fun k ↦
            Suggestion.replacing (p ++ s) (p ++ k.completed) k.completed) ++
          names.map fun (name, v) ↦ Suggestion.replacing (p ++ s)
            (p ++ console.decorate name.toList v) (console.decorate name.toList v), buffer) ∧
      (∀ name v, (name, v) ∈ names ↔
        name ≠ hiddenName ∧ console.ns.get? name = some v ∧ s <+: name.toList ∧
          name ∉ console.keywords.map Keyword.word) ∧
      names.Pairwise console.ns.ComesBefore ∧
      ((console.keywords.filter fun k ↦ s.isPrefixOf k.word.toList).map Keyword.word ++
        names.map Prod.fst).Nodup := by
  obtain ⟨pretext, padding, hsplit, hparts⟩ :=
    decompose_append_name free hclosed hp hname hnumber
  have hlookup : (decompose (p ++ s)).lookup = .absent := by rw [hparts]
  have hdot : s.contains '.' = false := by
    rw [List.contains_eq_mem, decide_eq_false_iff_not]
    exact fun h ↦ absurd (hname _ h) (by decide)
  have hempty : s.isEmpty = false := by
    rw [List.isEmpty_eq_false_iff]
    exact List.ne_nil_of_mem hnumber.choose_spec.1
  have hoffered : console.completeName (p ++ s) (decompose (p ++ s)) =
      suggestions (p ++ s) p (console.bareMatches s) [] := by
    rw [completeName, hparts]
    simp only [hdot, hempty, Bool.false_eq_true, if_false, ← hsplit]
  refine ⟨console.offeredNames s, ?_, fun _ _ ↦ mem_offeredNames_iff,
    console.pairwise_offeredNames s, nodup_offered hwords s⟩
  rw [complete_of_absent buffer notImport hlookup, hoffered, suggestions, bareMatches_eq]
  simp only [List.map_append, List.map_map, List.append_nil]
  rfl

/-- A keyword, a name that two scopes bind and one that only the outer scope does, behind a literal
with a bracket in it. The inner binding is the one that is seen. -/
theorem complete_append_name_behind_literal :
    let ns := ((Namespace.empty.setLocal "foo" (.list [])).setGlobal "foo" (.int 1)).setGlobal
      "fob" (.dict [])
    let console := { seeing ns with keywords := Keyword.standard }
    let p := "x = f('(', ".toList
    let s := "fo".toList
    PlaceholderFree (p ++ s) ∧ Quoteless (mask p).text ∧
      (∀ c ∈ p.getLast?, isDelimiter c = true ∧ isCloser c = false) ∧
      (console.keywords.map Keyword.word).Nodup ∧
      (console.complete (p ++ s) (.ofText 80 [])).1.map (String.ofList ·.value) =
        ["x = f('(', for ", "x = f('(', foo[", "x = f('(', fob['"] ∧
      ∃ names : List (String × Value), (console.complete (p ++ s) (.ofText 80 [])).1 =
          Suggestion.replacing (p ++ s) (p ++ "for ".toList) "for ".toList ::
            names.map (fun (name, v) ↦ Suggestion.replacing (p ++ s)
              (p ++ console.decorate name.toList v) (console.decorate name.toList v)) ∧
        ("foo", .list []) ∈ names ∧ ("foo", .int 1) ∉ names := by
  intro ns console p s
  have free : PlaceholderFree (p ++ s) := placeholderFree_of_not_mem (by decide)
  have hclosed : Quoteless (mask p).text := by decide +kernel
  have hp : ∀ c ∈ p.getLast?, isDelimiter c = true ∧ isCloser c = false := by
    have hlast : p.getLast? = some ' ' := by decide
    rw [hlast]
    exact fun c hc ↦ Option.some.inj hc ▸ by decide
  have hwords : (console.keywords.map Keyword.word).Nodup := by decide +kernel
  obtain ⟨names, hcomplete, hmem, -⟩ := complete_append_name console (s := s) (.ofText 80 [])
    (by decide +kernel) free hclosed hp (List.all_eq_true.1 (by decide +kernel))
    ⟨'f', by decide +kernel⟩ hwords
  refine ⟨free, hclosed, hp, hwords, by decide +kernel, names, ?_, ?_, ?_⟩
  · rw [hcomplete]
    rfl
  · rw [hmem]
    exact ⟨by decide, rfl, by decide, by decide +kernel⟩
  · rw [hmem]
    rintro ⟨-, hbound, -⟩
    exact absurd (Option.some.inj hbound) (by simp)

end Console

end LineCompletion
