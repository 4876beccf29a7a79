import LineCompletion.Proofs.Completion.Lookups
import LineCompletion.Proofs.Line.Parts

/-!
# Lookups completed exactly

What is offered behind an expression and the bracket of a lookup, exactly and in order.

**In a mapping** these are its keys that are text and go on from what was typed of one
(`Console.complete_mapping`), each between the quote that was typed or else the one that is set, and
in the order of the mapping. Keys of other kinds are not offered, whatever their text would be.

**In a sequence** they are the places whose digits go on from those that were typed
(`Console.complete_sequence`), from the first place on, and each of them can be looked up. Digits
are compared as text, so behind the digit one come the places one, ten to nineteen, and so on. The
statement goes on to what the indices mean: an index in the place of what was typed gives the item
there, and from the length on there are none.

In both the line is kept as it was typed up to the key, white space behind the bracket and all. That
is because the line is known to be divided there (`OpensLookup`, `Keyed`, `complete_of_keyed`): an
expression that is one piece, the bracket, white space, and what was typed of a key or an index.
Those conditions are on the text of the line alone.

The bound on the length of a sequence is that of the index by which sequences are told from other
values: a text as long as that would not be recognised as a sequence. What is offered in a set, and
in values of types that a host has declared, is not asked here.
-/

namespace LineCompletion

open Text Decomposition

namespace Console

variable {console : Console} {p e w f fragment : List Char} {lookup : Lookup}

/-- A line that is divided there is completed as a lookup with these parts. -/
theorem complete_of_keyed (h : OpensLookup p e w)
    (free : PlaceholderFree (p ++ e ++ ['['] ++ w ++ f)) (hf : Keyed f lookup fragment)
    (notImport : (console.settings.completeImports &&
      isImportStatement (trim (p ++ e ++ ['['] ++ w ++ f))) = false) (buffer : LineBuffer) :
    console.complete (p ++ e ++ ['['] ++ w ++ f) buffer =
      console.completeLookup (p ++ e ++ ['['] ++ w ++ f) ⟨p, e, lookup, w, fragment⟩ buffer := by
  have hlookup : lookup ≠ .absent := by cases hf <;> simp
  rw [complete, if_neg (Bool.eq_false_iff.1 notImport)]
  dsimp only
  rw [h.decompose_eq free hf, if_neg hlookup]

/-! ### Keys -/

/-- The keys of a mapping that are text, in its order. -/
def textKeys (pairs : List (Value × Value)) : List String :=
  pairs.filterMap fun
    | (.str key, _) => some key
    | _ => none

/-- The keys found in a mapping are those of its text keys that go on from the fragment. -/
theorem keyMatches_dict (console : Console) (pairs : List (Value × Value)) (fragment : List Char) :
    console.keyMatches (.dict pairs) fragment =
      ((textKeys pairs).filter fun key ↦ fragment.isPrefixOf key.toList).map String.toList := by
  have hkeys : (Value.dict pairs).mappingKeys? console.host = some (pairs.map (·.1)) := rfl
  rw [keyMatches, hkeys, Option.getD_some, textKeys]
  clear hkeys
  induction pairs with
  | nil => rfl
  | cons pair pairs ih =>
    obtain ⟨key, value⟩ := pair
    rw [List.map_cons, List.filterMap_cons, List.filterMap_cons]
    cases key with
    | str key =>
      dsimp only
      by_cases hstart : fragment.isPrefixOf key.toList = true
      · rw [if_pos hstart, List.filter_cons, if_pos hstart, List.map_cons, ← ih]
      · rw [if_neg hstart, List.filter_cons, if_neg hstart, ← ih]
    | _ => exact ih

/-- **Keys are completed exactly.** Behind an expression that has a mapping for its value, and the
bracket of a lookup, the suggestions are one for each of its keys that is text and starts with what
was typed of a key, in the order of the mapping. Each is the line up to the key, with the key
between two quotes and the closing bracket: the quote is the one that was typed, or the one that is
set when none was. -/
theorem complete_mapping (h : OpensLookup p e w)
    (free : PlaceholderFree (p ++ e ++ ['['] ++ w ++ f)) (hf : Keyed f lookup fragment)
    (notImport : (console.settings.completeImports &&
      isImportStatement (trim (p ++ e ++ ['['] ++ w ++ f))) = false)
    {pairs : List (Value × Value)} (hresolve : console.resolve e = some (.dict pairs))
    (buffer : LineBuffer) :
    let quote := lookup.quote?.getD console.settings.keyQuote
    console.complete (p ++ e ++ ['['] ++ w ++ f) buffer =
      (((textKeys pairs).filter fun key ↦ fragment.isPrefixOf key.toList).map fun key ↦
        Suggestion.replacing (p ++ e ++ ['['] ++ w ++ f)
          (p ++ e ++ ['['] ++ w ++ [quote] ++ key.toList ++ [quote, ']']) key.toList, buffer) := by
  intro quote
  rw [complete_of_keyed h free hf notImport, completeLookup]
  dsimp only
  rw [hresolve]
  show (suggestions _ (p ++ e ++ '[' :: w ++ [quote]) (console.keyMatches (.dict pairs) fragment)
    [quote, ']'], buffer) = _
  rw [keyMatches_dict, suggestions, List.map_map]
  simp only [List.append_assoc, List.cons_append, List.nil_append]
  rfl

/-- Of three keys those that start with what was typed, between the quotes that were begun. -/
theorem complete_mapping_behind_quote :
    let console := keyedConsole ["key", "other", "kind"]
    let pairs := ["key", "other", "kind"].map fun key ↦ (Value.str key, Value.int 7)
    let line := "f(".toList ++ "d".toList ++ ['['] ++ " ".toList ++ "\"k".toList
    OpensLookup "f(".toList "d".toList " ".toList ∧
      Keyed "\"k".toList (.key '"') "k".toList ∧ PlaceholderFree line ∧
      console.resolve "d".toList = some (.dict pairs) ∧
      (console.complete line (.ofText 80 [])).1.map (String.ofList ·.value) =
        ["f(d[ \"key\"]", "f(d[ \"kind\"]"] := by
  intro console pairs line
  have hopens : OpensLookup "f(".toList "d".toList " ".toList := by
    refine ⟨by decide +kernel, by decide +kernel, ?_, by decide, by decide +kernel, by simp⟩
    rw [show "f(".toList.getLast? = some '(' by decide]
    exact fun c hc ↦ Option.some.inj hc ▸ by decide
  have hkeyed : Keyed "\"k".toList (.key '"') "k".toList := .key (by decide) (by decide)
  have free : PlaceholderFree line := placeholderFree_of_not_mem (by decide)
  have hresolve : console.resolve "d".toList = some (.dict pairs) :=
    resolve_of_name rfl (by decide) (by decide) (by decide) rfl
  refine ⟨hopens, hkeyed, free, hresolve, ?_⟩
  rw [complete_mapping hopens free hkeyed (by decide +kernel) hresolve (.ofText 80 [])]
  decide +kernel

/-! ### Indices -/

/-- A decimal digit is a numeric character. -/
theorem isNumeric_of_isDigit {c : Char} (h : c.isDigit = true) : isNumeric c = true := by
  have hcode := toNat_of_isDigit h
  rw [isNumeric, if_pos (by omega), h]

/-- The beginning of an index, or nothing yet. -/
theorem keyed_of_isDigit {d : List Char} (h : ∀ c ∈ d, c.isDigit = true) : Keyed d .bracket d := by
  rcases d with - | ⟨c, d⟩
  · exact .nothing
  · exact .index (by simp) fun c hc ↦ isNumeric_of_isDigit (h c hc)

/-- **Indices are completed exactly.** Behind an expression that has a list, a tuple, a text or
bytes for its value, and the bracket of a lookup, the suggestions are one for each place in it whose
digits start with those typed, in increasing order. Each is the line up to the index, with the index
and the closing bracket. Without the text in front of the expression it can be evaluated, and gives
the item in that place; and from the length on there are no places. -/
theorem complete_sequence (h : OpensLookup p e w) {d : List Char}
    (hd : ∀ c ∈ d, c.isDigit = true) (free : PlaceholderFree (p ++ e ++ ['['] ++ w ++ d))
    (notImport : (console.settings.completeImports &&
      isImportStatement (trim (p ++ e ++ ['['] ++ w ++ d))) = false)
    (standard : console.evaluator = Evaluator.standard console.host) {v : Value}
    (hresolve : console.resolve e = some v) {items : List Value} (hitems : v.items? = some items)
    (hlength : items.length < 2 ^ 61) (buffer : LineBuffer) :
    v.length? console.host = some items.length ∧
    (∃ places : List Nat, places.Pairwise (· < ·) ∧
      (∀ k, k ∈ places ↔ k < items.length ∧ d <+: Number.digits k) ∧
      console.complete (p ++ e ++ ['['] ++ w ++ d) buffer =
        (places.map fun k ↦ Suggestion.replacing (p ++ e ++ ['['] ++ w ++ d)
          (p ++ e ++ ['['] ++ w ++ Number.digits k ++ [']']) (Number.digits k), buffer)) ∧
    (∀ k (hk : k < items.length), console.evaluator
      (String.ofList (e ++ ['['] ++ w ++ Number.digits k ++ [']'])) console.ns = .ok items[k]) ∧
    ∀ i : Int64, items.length ≤ i.toInt →
      v.lookup console.host (.int i) = .error (.indexOutOfRange i) := by
  have hlookup := Value.lookup_of_items hitems console.host
  refine ⟨Value.length?_of_items hitems console.host, ?_, fun k hk ↦ ?_, fun i hi ↦ ?_⟩
  · refine ⟨(List.range items.length).filter fun k ↦ d.isPrefixOf (Number.digits k),
      List.pairwise_lt_range.filter _, fun k ↦ ?_, ?_⟩
    · rw [List.mem_filter, List.mem_range, List.isPrefixOf_iff_prefix]
    · rw [complete_of_keyed h free (keyed_of_isDigit hd) notImport, completeLookup]
      dsimp only
      rw [hresolve]
      dsimp only
      rw [Value.flavour_of_items hitems hlength]
      dsimp only
      rw [indexMatches, Value.length?_of_items hitems, Option.getD_some, List.filter_map,
        suggestions, List.map_map]
      rfl
  · have hblank : Blank w := fun c hc ↦ (typed_blank (h.typed c hc)).1
    have hvalue := evaluator_of_resolve hresolve
    rw [standard] at hvalue ⊢
    have hitem : v.lookup console.host (.int (Int64.ofNat k)) = .ok items[k] :=
      (hlookup _).trans (Value.itemAt_int (by omega) hk)
    simpa using (evaluate_index_eq_ok_iff hvalue hblank).2 ⟨by omega, hitem⟩
  · rw [hlookup, Value.itemAt_of_le hi]

/-- The places of a list with two items, behind a tab, and what stands in the second one. -/
theorem complete_sequence_behind_tab :
    let console := keyedConsole []
    let nums := Value.list [.int 1, .int 2]
    let line := "y = ".toList ++ "nums".toList ++ ['['] ++ ['\t'] ++ []
    OpensLookup "y = ".toList "nums".toList ['\t'] ∧ PlaceholderFree line ∧
      console.resolve "nums".toList = some nums ∧ nums.items? = some [.int 1, .int 2] ∧
      (console.complete line (.ofText 80 [])).1.map (String.ofList ·.value) =
        ["y = nums[\t0]", "y = nums[\t1]"] ∧
      console.evaluator "nums[\t1]" console.ns = .ok (.int 2) ∧
      nums.lookup console.host (.int 2) = .error (.indexOutOfRange 2) := by
  intro console nums line
  have hopens : OpensLookup "y = ".toList "nums".toList ['\t'] := by
    refine ⟨by decide +kernel, by decide +kernel, ?_, by decide, by decide +kernel, by simp⟩
    rw [show "y = ".toList.getLast? = some ' ' by decide]
    exact fun c hc ↦ Option.some.inj hc ▸ by decide
  have free : PlaceholderFree line := placeholderFree_of_not_mem (by decide)
  have hresolve : console.resolve "nums".toList = some nums :=
    resolve_of_name rfl (by decide) (by decide) (by decide) rfl
  have hitems : nums.items? = some [.int 1, .int 2] := rfl
  obtain ⟨-, -, hitem, hrange⟩ := complete_sequence (d := []) hopens (by simp) free
    (by decide +kernel) rfl hresolve hitems (by decide) (.ofText 80 [])
  exact ⟨hopens, free, hresolve, hitems, by decide +kernel, hitem 1 (by decide),
    hrange 2 (by decide)⟩

end Console

end LineCompletion
