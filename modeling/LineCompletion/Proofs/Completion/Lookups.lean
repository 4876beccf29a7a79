import LineCompletion.Proofs.Completion.CallGate
import LineCompletion.Proofs.Completion.Members
import LineCompletion.Proofs.Expression.Keys
import LineCompletion.Proofs.Line.Reconstruction

/-!
# Lookups that are offered

What the lookups that are offered are good for. Behind the text that is kept of the line each of
them is a subscript of the expression looked into, and what was found for it stands there as it is:
a key between quotes, the digits of an index (`lookupOfKey`, `lookupOfIndex`).

**It works, as far as what is written there is read back as that key** (`Works`,
`offered_lookup_works_iff`): evaluating it gives what the value holds under the key.

A key is not escaped on the way, so it works exactly if it is legible between its quotes
(`Legible`), which is said of the characters of the key and not by reading it. Three kinds of keys
are not:

* one that holds the quote around it, which ends the literal early;
* one that ends in a backslash, which takes the closing quote into the literal;
* one in which a backslash begins an escape, so that the literal stands for another text.

What is offered for those has no value, or the value of another key. That last possibility is why
the exact statement is for a mapping of one key: in a larger one, what an illegible key is read as
may happen to be a key too, and the two may hold the same (`CompletesLookup.legible_of_works`,
against `CompletesLookup.works_of_legible` for any mapping).

A quote that was typed in front of an index is kept and not closed, and no index works behind it
(`CompletesLookup.works_index_iff`). Behind a bracket alone every index works, up to the largest
integer that the language has.

What the lookups are is only the first half of the module; which of them are offered and in what
order is said elsewhere. All of it is under the conditions of `CompletesLookup`, which hold whenever
a value is looked into at all.
-/

namespace LineCompletion

open Text

namespace Console

/-! ### What is offered -/

variable {console : Console}

/-- Keys are found in a mapping if they are text and go on from the fragment. -/
theorem mem_keyMatches_iff {pairs : List (Value × Value)} {fragment found : List Char} :
    found ∈ console.keyMatches (.dict pairs) fragment ↔
      ∃ key value, (.str key, value) ∈ pairs ∧ fragment <+: key.toList ∧ found = key.toList := by
  have hkeys : (Value.dict pairs).mappingKeys? console.host = some (pairs.map (·.1)) := rfl
  rw [keyMatches, hkeys, Option.getD_some, List.mem_filterMap]
  constructor
  · rintro ⟨k, hk, hmatch⟩
    obtain ⟨⟨k, value⟩, hpair, rfl⟩ := List.mem_map.1 hk
    cases k with
    | str key =>
      dsimp only at hmatch
      split at hmatch
      · rename_i hstart
        exact ⟨key, value, hpair, List.isPrefixOf_iff_prefix.1 hstart,
          (Option.some.inj hmatch).symm⟩
      · exact absurd hmatch (by simp)
    | _ => exact absurd hmatch (by simp)
  · rintro ⟨key, value, hpair, hstart, rfl⟩
    refine ⟨.str key, List.mem_map.2 ⟨_, hpair, rfl⟩, ?_⟩
    exact if_pos (List.isPrefixOf_iff_prefix.2 hstart)

/-- Indices are found if they are places and their digits go on from the fragment. -/
theorem mem_indexMatches_iff {v : Value} {fragment found : List Char} :
    found ∈ console.indexMatches v fragment ↔
      ∃ n < (v.length? console.host).getD 0, fragment <+: Number.digits n ∧
        found = Number.digits n := by
  rw [indexMatches, List.mem_filter, List.isPrefixOf_iff_prefix, List.mem_map]
  constructor
  · rintro ⟨⟨n, hn, rfl⟩, hstart⟩
    exact ⟨n, List.mem_range.1 hn, hstart, rfl⟩
  · rintro ⟨n, hn, hstart, rfl⟩
    exact ⟨⟨n, List.mem_range.2 hn, rfl⟩, hstart⟩

/-- A lookup in a value is completed: the line ends in one, and the expression in front of it may be
evaluated and has that value. -/
structure CompletesLookup (console : Console) (line : List Char) (v : Value) : Prop where
  /-- Expressions are given their meaning. -/
  standard : console.evaluator = Evaluator.standard console.host
  /-- No module is imported. -/
  notImport : (console.settings.completeImports && isImportStatement (trim line)) = false
  /-- The line ends in a lookup. -/
  lookup : (decompose line).lookup ≠ .absent
  /-- The gate admits the expression, and it has the value. -/
  resolve : console.resolve (decompose line).expr = some v

/-- The quote around offered keys: the one that was typed, or else the one that is set. -/
def offeredQuote (console : Console) (line : List Char) : Char :=
  (decompose line).lookup.quote?.getD console.settings.keyQuote

/-- The lookup that is offered for a key of a mapping. -/
def lookupOfKey (console : Console) (line key : List Char) : List Char :=
  let parts := decompose line
  parts.expr ++ '[' :: parts.padding ++ console.offeredQuote line :: key ++
    [console.offeredQuote line, ']']

/-- The lookup that is offered for an index of a sequence. -/
def lookupOfIndex (line : List Char) (n : Nat) : List Char :=
  let parts := decompose line
  parts.expr ++ parts.lookup.text ++ parts.padding ++ Number.digits n ++ [']']

section CompletesLookup

variable {line : List Char} {v : Value} {buffer : LineBuffer} {s : Suggestion}

/-- Under these conditions a line is completed as a lookup. -/
theorem CompletesLookup.complete_eq (h : console.CompletesLookup line v) :
    console.complete line buffer = console.completeLookup line (decompose line) buffer :=
  (if_neg (Bool.eq_false_iff.1 h.notImport)).trans (if_neg h.lookup)

/-- What is offered in a mapping: its keys that are text and go on from the fragment. -/
theorem CompletesLookup.mem_complete_mapping_iff {pairs : List (Value × Value)}
    (h : console.CompletesLookup line (.dict pairs)) :
    s ∈ (console.complete line buffer).1 ↔
      ∃ key value, (.str key, value) ∈ pairs ∧ (decompose line).fragment <+: key.toList ∧
        s = Suggestion.replacing line
          ((decompose line).pretext ++ console.lookupOfKey line key.toList) key.toList := by
  have hcomplete : (console.complete line buffer).1 =
      suggestions line ((decompose line).pretext ++ (decompose line).expr ++
          '[' :: (decompose line).padding ++ [console.offeredQuote line])
        (console.keyMatches (.dict pairs) (decompose line).fragment)
        [console.offeredQuote line, ']'] := by
    rw [h.complete_eq, completeLookup, h.resolve]
    rfl
  rw [hcomplete, suggestions, List.mem_map]
  constructor
  · rintro ⟨found, hfound, rfl⟩
    obtain ⟨key, value, hpair, hstart, rfl⟩ := mem_keyMatches_iff.1 hfound
    exact ⟨key, value, hpair, hstart, by simp [lookupOfKey]⟩
  · rintro ⟨key, value, hpair, hstart, rfl⟩
    exact ⟨key.toList, mem_keyMatches_iff.2 ⟨key, value, hpair, hstart, rfl⟩,
      by simp [lookupOfKey]⟩

/-- Nothing but its indices is offered in a sequence. -/
theorem CompletesLookup.of_mem_complete_sequence (h : console.CompletesLookup line v)
    (hv : v.isSequence = true) (hs : s ∈ (console.complete line buffer).1) :
    ∃ n < (v.length? console.host).getD 0, s = Suggestion.replacing line
      ((decompose line).pretext ++ lookupOfIndex line n) (Number.digits n) := by
  rw [h.complete_eq, completeLookup, h.resolve] at hs
  dsimp only at hs
  rcases Value.flavour_of_isSequence hv console.host with hflavour | hflavour <;>
    rw [hflavour] at hs
  · obtain ⟨found, hfound, rfl⟩ := List.mem_map.1 hs
    obtain ⟨n, hn, -, rfl⟩ := mem_indexMatches_iff.1 hfound
    exact ⟨n, hn, by simp [lookupOfIndex]⟩
  · exact absurd hs List.not_mem_nil

/-! ### What works -/

/-- What an expression resolves to is its value. -/
theorem evaluator_of_resolve {expr : List Char} (h : console.resolve expr = some v) :
    console.evaluator (String.ofList expr) console.ns = .ok v := by
  rw [resolve_eq] at h
  split at h
  · rcases hvalue : console.evaluator (String.ofList expr) console.ns with cause | w <;>
      rw [hvalue] at h
    · exact absurd h (by simp [Except.toOption])
    · rw [Option.some.inj h]
  · exact absurd h (by simp)

/-- The expression looked into has the value. -/
theorem CompletesLookup.evaluate_eq (h : console.CompletesLookup line v) :
    Evaluator.standard console.host (String.ofList (decompose line).expr) console.ns = .ok v :=
  h.standard ▸ evaluator_of_resolve h.resolve

/-- What is put around keys is a quote. -/
theorem isQuote_offeredQuote (console : Console) (line : List Char) :
    isQuote (console.offeredQuote line) = true := by
  have hkeyQuote : isQuote console.settings.keyQuote = true := by
    rw [Settings.keyQuote]
    split
    · assumption
    · decide
  rw [offeredQuote]
  rcases hlookup : (decompose line).lookup with - | - | quote
  · exact hkeyQuote
  · exact hkeyQuote
  · exact isQuote_of_lookup hlookup

/-- Padding is white space. -/
theorem blank_padding (line : List Char) : Blank (decompose line).padding :=
  fun _ hc ↦ (isBlank_of_mem_padding hc).1

/-- What an offered lookup is good for: without the text in front of the expression it can be
evaluated, to what the value looked into holds under the key. -/
def Works (console : Console) (line : List Char) (v key : Value) (s : Suggestion) : Prop :=
  ∃ text found, s.value = (decompose line).pretext ++ text ∧
    console.evaluator (String.ofList text) console.ns = .ok found ∧
    v.lookup console.host key = .ok found

/-- A suggestion that keeps the pretext works by what it goes on with. -/
theorem works_replacing_iff {text display : List Char} {key : Value} :
    console.Works line v key
        (Suggestion.replacing line ((decompose line).pretext ++ text) display) ↔
      ∃ found, console.evaluator (String.ofList text) console.ns = .ok found ∧
        v.lookup console.host key = .ok found := by
  constructor
  · rintro ⟨text', found, hvalue, hfound⟩
    obtain rfl := List.append_cancel_left (show _ ++ text = _ ++ text' from hvalue)
    exact ⟨found, hfound⟩
  · rintro ⟨found, hfound⟩
    exact ⟨text, found, rfl, hfound⟩

/-- A legible key works. -/
theorem CompletesLookup.works_of_legible {pairs : List (Value × Value)}
    (h : console.CompletesLookup line (.dict pairs)) {key : String} {value : Value}
    (hkey : (.str key, value) ∈ pairs)
    (hlegible : Legible (console.offeredQuote line) key.toList) :
    console.Works line (.dict pairs) (.str key) (Suggestion.replacing line
      ((decompose line).pretext ++ console.lookupOfKey line key.toList) key.toList) := by
  obtain ⟨found, hfound⟩ := Value.exists_lookup_of_mem console.host hkey
  rw [works_replacing_iff, h.standard]
  refine ⟨found, (evaluate_quoted_eq_ok_iff h.evaluate_eq (blank_padding line)
    (console.isQuote_offeredQuote line) hlegible.body).2 ?_, hfound⟩
  rwa [hlegible.escaped.eq, String.ofList_toList]

/-- No other key works by itself. -/
theorem CompletesLookup.legible_of_works {key : String} {value : Value}
    (h : console.CompletesLookup line (.dict [(.str key, value)]))
    (hworks : console.Works line (.dict [(.str key, value)]) (.str key) (Suggestion.replacing line
      ((decompose line).pretext ++ console.lookupOfKey line key.toList) key.toList)) :
    Legible (console.offeredQuote line) key.toList := by
  rw [works_replacing_iff, h.standard] at hworks
  obtain ⟨found, hfound, -⟩ := hworks
  by_contra hlegible
  have hbase := h.evaluate_eq
  rw [← String.ofList_toList (s := key)] at hbase
  exact evaluate_quoted_ne_ok hbase (blank_padding line) (console.isQuote_offeredQuote line)
    hlegible found hfound

/-- Without a quote an index stands in the bracket as it should. -/
theorem lookupOfIndex_of_bracket (h : (decompose line).lookup = .bracket) (n : Nat) :
    lookupOfIndex line n =
      (decompose line).expr ++ '[' :: (decompose line).padding ++ Number.digits n ++ [']'] := by
  simp [lookupOfIndex, h, Lookup.text]

/-- Where a quote was typed in front of an index, it does not come again. -/
theorem exists_lookupOfIndex_of_key {quote : Char} (h : (decompose line).lookup = .key quote)
    (n : Nat) :
    ∃ rest, quote ∉ rest ∧
      lookupOfIndex line n = (decompose line).expr ++ '[' :: quote :: rest := by
  have hquote := isQuote_of_lookup h
  refine ⟨(decompose line).padding ++ Number.digits n ++ [']'], fun hmem ↦ ?_, ?_⟩
  · rw [List.mem_append, List.mem_append, List.mem_singleton] at hmem
    rcases hmem with (hpadding | hdigits) | hclose
    · have hblank := blank_padding line quote hpadding
      rw [(opens_of_isQuote hquote).notBlank] at hblank
      exact absurd hblank (by simp)
    · have hdigit := Number.isDigit_of_mem_digits hdigits
      rcases isQuote_iff.1 hquote with rfl | rfl <;> exact absurd hdigit (by decide)
    · exact (opens_of_isQuote hquote).notClose.2 hclose
  · simp [lookupOfIndex, h, Lookup.text]

/-- An index works behind a bracket, but not behind a quote, which nothing closes. -/
theorem CompletesLookup.works_index_iff (h : console.CompletesLookup line v)
    (hv : v.isSequence = true) {n : Nat} (hn : n < (v.length? console.host).getD 0) :
    console.Works line v (.int (Int64.ofNat n)) (Suggestion.replacing line
        ((decompose line).pretext ++ lookupOfIndex line n) (Number.digits n)) ↔
      (decompose line).lookup = .bracket ∧ n < 2 ^ 63 := by
  obtain ⟨items, hitems⟩ := Value.exists_items_of_isSequence hv
  rw [Value.length?_of_items hitems, Option.getD_some] at hn
  rw [works_replacing_iff, h.standard]
  have hindex {found : Value} :=
    @evaluate_index_eq_ok_iff _ _ _ _ h.evaluate_eq _ (blank_padding line) n found
  rcases hlookup : (decompose line).lookup with - | - | quote
  · exact absurd hlookup h.lookup
  · rw [lookupOfIndex_of_bracket hlookup, and_iff_right rfl]
    constructor
    · rintro ⟨found, hfound, -⟩
      exact (hindex.1 hfound).1
    · intro hsmall
      have hfound := (Value.lookup_of_items hitems console.host _).trans
        (Value.itemAt_int hsmall hn)
      exact ⟨_, hindex.2 ⟨hsmall, hfound⟩, hfound⟩
  · obtain ⟨rest, hrest, htext⟩ := exists_lookupOfIndex_of_key hlookup n
    rw [htext]
    refine iff_of_false ?_ (by simp)
    rintro ⟨found, hfound, -⟩
    exact evaluate_unclosed_ne_ok h.evaluate_eq (isQuote_of_lookup hlookup) hrest found hfound

/-- **How far lookups that are offered work.** Whatever the line and the padding on it, a key of a
mapping works behind the text kept of the line if it is legible between the quotes that it is given,
and only then, unless the mapping has other keys, one of which may happen to be found in its place.
An index of a sequence works exactly where a bracket was typed without a quote, as long as it is a
signed 64-bit integer, and in any sequence that can be it is one. -/
theorem offered_lookup_works_iff (h : console.CompletesLookup line v)
    (hs : s ∈ (console.complete line buffer).1) :
    (∀ pairs, v = .dict pairs → ∃ key value, (.str key, value) ∈ pairs ∧ s.display = key.toList ∧
      (Legible (console.offeredQuote line) key.toList → console.Works line v (.str key) s) ∧
      (pairs = [(.str key, value)] → console.Works line v (.str key) s →
        Legible (console.offeredQuote line) key.toList)) ∧
    (v.isSequence = true → ∃ n < (v.length? console.host).getD 0, s.display = Number.digits n ∧
      (console.Works line v (.int (Int64.ofNat n)) s ↔
        (decompose line).lookup = .bracket ∧ n < 2 ^ 63)) := by
  constructor
  · rintro pairs rfl
    obtain ⟨key, value, hkey, -, rfl⟩ := h.mem_complete_mapping_iff.1 hs
    refine ⟨key, value, hkey, rfl, h.works_of_legible hkey, ?_⟩
    rintro rfl hworks
    exact h.legible_of_works hworks
  · intro hv
    obtain ⟨n, hn, rfl⟩ := h.of_mem_complete_sequence hv hs
    exact ⟨n, hn, rfl, h.works_index_iff hv hn⟩

end CompletesLookup

/-! ### Quotes and backslashes in keys -/

/-- A console that sees two names: a mapping with the given keys, and a sequence of two items. -/
def keyedConsole (keys : List String) : Console :=
  seeing ((Namespace.empty.setGlobal "d" (.dict (keys.map fun key ↦ (.str key, .int 7)))).setGlobal
    "nums" (.list [.int 1, .int 2]))

/-- A name in front of a bracket is looked into as what it is bound to. -/
theorem completesLookup_of_name {line name : List Char} {v : Value}
    (standard : console.evaluator = Evaluator.standard console.host)
    (notImport : (console.settings.completeImports && isImportStatement (trim line)) = false)
    (hlookup : (decompose line).lookup ≠ .absent) (hexpr : (decompose line).expr = name)
    (hname : isName name = true) (hconstant : name ∉ constants.map Prod.fst)
    (hcall : hasCall name = false) (hv : console.ns.get? (String.ofList name) = some v) :
    console.CompletesLookup line v :=
  ⟨standard, notImport, hlookup, by rw [hexpr, resolve_of_name standard hname hconstant hcall hv]⟩

/-- A suggestion without a value does not work. -/
theorem not_works {line text : List Char} {v key : Value} {s : Suggestion}
    (hvalue : s.value = (decompose line).pretext ++ text)
    (hnone : (console.evaluator (String.ofList text) console.ns).toOption.isNone = true) :
    ¬ console.Works line v key s := by
  rintro ⟨text', found, hvalue', hfound, -⟩
  obtain rfl := List.append_cancel_left (hvalue.symm.trans hvalue')
  rw [hfound] at hnone
  exact absurd hnone (by simp [Except.toOption])

/-- A space typed behind the bracket stays there, and the key works behind it. -/
theorem works_spaced_key :
    let console := keyedConsole ["k"]
    let line := "x = d[ ".toList
    let d := Value.dict [(.str "k", .int 7)]
    console.CompletesLookup line d ∧ ∃ s ∈ (console.complete line (.ofText 80 [])).1,
      s.value = "x = d[ 'k']".toList ∧ console.Works line d (.str "k") s := by
  intro console line d
  have hexpr : (decompose line).expr = ['d'] := by decide +kernel
  have hcompletes : console.CompletesLookup line d :=
    completesLookup_of_name rfl (by decide +kernel) (by decide +kernel) hexpr (by decide)
      (by decide) (by decide) rfl
  have hoffered : (console.complete line (.ofText 80 [])).1 =
      [Suggestion.replacing line "x = d[ 'k']".toList "k".toList] := by decide +kernel
  have hquote : console.offeredQuote line = '\'' := by decide +kernel
  refine ⟨hcompletes, _, hoffered ▸ List.mem_singleton.2 rfl, rfl, ?_⟩
  obtain ⟨hkeys, -⟩ := offered_lookup_works_iff hcompletes (hoffered ▸ List.mem_singleton.2 rfl)
  obtain ⟨key, value, hmem, -, hworks, -⟩ := hkeys _ rfl
  obtain ⟨rfl, -⟩ : key = "k" ∧ value = .int 7 := by simpa using hmem
  exact hworks (hquote ▸ legible_of_not_mem (by decide) (by decide))

/-- A key with a quote in it, one with a backslash before a letter that makes an escape of it, and
an index behind a quote: what is offered for them has no value. -/
theorem exists_not_works :
    let console := keyedConsole ["it's", "C:\\new"]
    let d := Value.dict [(.str "it's", .int 7), (.str "C:\\new", .int 7)]
    let nums := Value.list [.int 1, .int 2]
    (console.CompletesLookup "d[".toList d ∧
      (∃ s ∈ (console.complete "d[".toList (.ofText 80 [])).1,
        s.value = "d['it's']".toList ∧ ¬ console.Works "d[".toList d (.str "it's") s) ∧
      ∃ s ∈ (console.complete "d[".toList (.ofText 80 [])).1,
        s.value = "d['C:\\new']".toList ∧ ¬ console.Works "d[".toList d (.str "C:\\new") s) ∧
    console.CompletesLookup "nums['".toList nums ∧
      ∃ s ∈ (console.complete "nums['".toList (.ofText 80 [])).1,
        s.value = "nums['0]".toList ∧ ¬ console.Works "nums['".toList nums (.int 0) s := by
  intro console d nums
  have hexpr : (decompose "d[".toList).expr = "d".toList := by decide +kernel
  have hexpr' : (decompose "nums['".toList).expr = "nums".toList := by decide +kernel
  have hkeys : (console.complete "d[".toList (.ofText 80 [])).1 =
      [Suggestion.replacing "d[".toList "d['it's']".toList "it's".toList,
        Suggestion.replacing "d[".toList "d['C:\\new']".toList "C:\\new".toList] := by
    decide +kernel
  have hindices : (console.complete "nums['".toList (.ofText 80 [])).1 =
      [Suggestion.replacing "nums['".toList "nums['0]".toList "0".toList,
        Suggestion.replacing "nums['".toList "nums['1]".toList "1".toList] := by
    decide +kernel
  have hpretext : (decompose "d[".toList).pretext = [] := by decide +kernel
  have hpretext' : (decompose "nums['".toList).pretext = [] := by decide +kernel
  rw [hkeys, hindices]
  refine ⟨⟨?_, ⟨_, List.mem_cons_self, rfl, ?_⟩,
    ⟨_, List.mem_cons_of_mem _ List.mem_cons_self, rfl, ?_⟩⟩, ?_,
    ⟨_, List.mem_cons_self, rfl, ?_⟩⟩
  · exact completesLookup_of_name rfl (by decide +kernel) (by decide +kernel) hexpr (by decide)
      (by decide) (by decide) rfl
  · exact not_works (by rw [hpretext]; rfl) (by decide +kernel)
  · exact not_works (by rw [hpretext]; rfl) (by decide +kernel)
  · exact completesLookup_of_name rfl (by decide +kernel) (by decide +kernel) hexpr' (by decide)
      (by decide) (by decide) rfl
  · exact not_works (by rw [hpretext']; rfl) (by decide +kernel)

end Console

end LineCompletion
