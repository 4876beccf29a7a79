import LineCompletion.Proofs.Expression.Keys
import LineCompletion.Proofs.Expression.Meaning
import LineCompletion.Value.Source

/-!
# Source text read back

A value is shown as the expression that would give it, as far as there is one. For the values that
an expression can spell, made of null, truth values, integers, text, lists and tuples, there is, and
evaluating the source text gives the value again, in every namespace: it holds no name, so it does
not matter what names stand for.

Two things are in the way of that.

* Characters without a visible form are written as code points, an escape that reading does not
  know; so the texts in the value have no such characters (`WrittenPlainly`, `Plain`).
* Brackets are read only so deep.

**The depth is the only other thing**: a plain value is read back exactly if its containers are
nested no deeper (`evaluate_source_eq_ok_iff`). The statement is an equivalence, so a value that is
nested too deep is not read back to anything else either.

The way goes through the grammar of expressions and not through the reader. The source text of a
value spells an expression, whose brackets are those of the containers and which has the value
whatever names stand for (`SpelledAs`); the induction on the value gives one for every plain value
(`Plain.exists_spelledAs`). What the reader does with the text is then a matter of the grammar,
which holds for every expression.

A tuple of one item has a comma behind the item, or it would be an expression in brackets
(`SpelledAs.singleTuple`). Quoted text is the body of a literal with every quote and backslash
escaped, so the literal ends where the text does (`body_and_escaped_flatMap_quotedChar`). The least
integer is spelled with its sign, as the grammar takes a sign and digits for one literal.

Other values are shown by a text of some form too; nothing is claimed of those texts here.
-/

namespace LineCompletion

open Text

/-! ### Quoted text -/

/-- A character that quoted text holds as it is, or behind a backslash in a form that reading
knows. -/
def WrittenPlainly (c : Char) : Prop :=
  quotedChar c = [c] ∨ c ∈ ['\n', '\r', '\t', '\x00', '\\', '"']

instance (c : Char) : Decidable (WrittenPlainly c) :=
  inferInstanceAs (Decidable (_ ∨ _))

/-- A plainly written character stands for itself and is no quote or backslash, or it is written as
a known escape. -/
theorem WrittenPlainly.cases {c : Char} (h : WrittenPlainly c) :
    (quotedChar c = [c] ∧ c ≠ '"' ∧ c ≠ '\\') ∨
      ∃ d, quotedChar c = ['\\', d] ∧ (d, c) ∈ escapes := by
  by_cases hc : c ∈ ['\n', '\r', '\t', '\x00', '\\', '"']
  · right
    simp only [List.mem_cons, List.not_mem_nil, or_false] at hc
    rcases hc with rfl | rfl | rfl | rfl | rfl | rfl <;> exact ⟨_, rfl, by decide⟩
  · refine .inl ⟨h.resolve_right hc, ?_, ?_⟩ <;> rintro rfl <;> exact hc (by decide)

/-- Quoting writes the body of a literal that stands for the text. -/
theorem body_and_escaped_flatMap_quotedChar {s : List Char} (h : ∀ c ∈ s, WrittenPlainly c) :
    Body '"' (s.flatMap quotedChar) ∧ Escaped (s.flatMap quotedChar) s := by
  induction s with
  | nil => exact ⟨.nil, .nil⟩
  | cons c s ih =>
    obtain ⟨hc, hs⟩ := List.forall_mem_cons.1 h
    obtain ⟨hbody, hescaped⟩ := ih hs
    rw [List.flatMap_cons]
    rcases hc.cases with ⟨hquoted, hquote, hslash⟩ | ⟨d, hquoted, hescape⟩ <;> rw [hquoted]
    · exact ⟨.plain hquote hslash hbody, .plain hslash hescaped⟩
    · exact ⟨.escape hbody, .escape hescape hescaped⟩

/-! ### Integers -/

/-- An integer is spelled by its decimal digits, with a sign if it is negative. -/
theorem spells_signedDigits (i : Int64) : Spells (.int i) (Number.signedDigits i.toInt) := by
  have hspells (negative : Bool) (hsign : i.toInt = if negative then -(i.toInt.natAbs : Int)
      else (i.toInt.natAbs : Int)) :
      Spells (.int i) (signed negative (Number.digits i.toInt.natAbs)) := by
    have hdigits := digitsOf_digits i.toInt.natAbs
    have whole := wholePart_digits i.toInt.natAbs
    refine .int ⟨whole.chars, fun _ ↦ whole.head rfl⟩ ?_ ?_
    · rw [hdigits]
      exact Number.digits_ne_nil _
    · rwa [hdigits, Number.ofDigits_digits]
  rw [Number.signedDigits]
  split
  · exact hspells true (by rw [if_pos rfl]; omega)
  · exact hspells false (by rw [if_neg (by simp)]; omega)

/-! ### Plain values -/

namespace Value

/-- A value that is null, a truth value, an integer, text of plainly written characters, or a list
or a tuple of such values. -/
inductive Plain : Value → Prop
  /-- The null value. -/
  | none : Plain .none
  /-- A truth value. -/
  | bool (b : Bool) : Plain (.bool b)
  /-- An integer. -/
  | int (i : Int64) : Plain (.int i)
  /-- Text. -/
  | str {text : String} (h : ∀ c ∈ text.toList, WrittenPlainly c) : Plain (.str text)
  /-- A list. -/
  | list {items : List Value} (h : ∀ v ∈ items, Plain v) : Plain (.list items)
  /-- A tuple. -/
  | tuple {items : List Value} (h : ∀ v ∈ items, Plain v) : Plain (.tuple items)

mutual

/-- How deep lists and tuples are nested in a value. An empty one counts for those around it, but
not for itself. -/
def nesting : Value → Nat
  | list items | tuple items => nestingAll items
  | _ => 0

/-- How deep the containers of some items are nested, the one that the items are in included. -/
def nestingAll : List Value → Nat
  | [] => 0
  | v :: rest => max (nesting v + 1) (nestingAll rest)

end

/-- The source text of a value spells an expression that has the value everywhere. -/
structure SpelledAs (v : Value) (e : Expr) : Prop where
  /-- The source text spells it. -/
  spells : Spells e v.source
  /-- Its brackets are those of the containers. -/
  nesting_eq : e.nesting = v.nesting
  /-- It has the value, whatever names stand for. -/
  eval_eq : ∀ host ns, e.eval host ns = .ok v

/-- Items with commas between them spell expressions that have their values. -/
theorem exists_spellsItems {items : List Value} (h : ∀ v ∈ items, ∃ e, v.SpelledAs e)
    {w : List Char} (hw : Blank w) :
    ∃ es, SpellsItems es items.isEmpty (w ++ commaSeparated (sources items)) ∧
      es.length = items.length ∧ Expr.nestingAll es = nestingAll items ∧
      ∀ host ns, Expr.evalAll host ns es = .ok items := by
  induction items generalizing w with
  | nil =>
    refine ⟨[], ?_, rfl, rfl, fun _ _ ↦ rfl⟩
    rw [sources, commaSeparated, List.append_nil]
    exact .nil hw
  | cons v rest ih =>
    obtain ⟨⟨e, he⟩, hrest⟩ := List.forall_mem_cons.1 h
    have hblank : Blank [' '] := by decide
    obtain ⟨es, hspells, hlength, hnesting, heval⟩ := ih hrest hblank
    refine ⟨e :: es, ?_, congrArg (· + 1) hlength, ?_, fun host ns ↦ ?_⟩
    · cases rest with
      | nil =>
        obtain rfl := List.length_eq_zero_iff.1 hlength
        simpa [sources, commaSeparated] using SpellsItems.single hw he.spells blank_nil
      | cons v' rest =>
        simpa [sources, commaSeparated] using SpellsItems.cons hw he.spells blank_nil hspells
    · rw [Expr.nestingAll, nestingAll, he.nesting_eq, hnesting]
    · rw [Expr.evalAll, he.eval_eq, heval]
      rfl

/-- Brackets around a single item make a tuple of it when a comma comes behind it. -/
theorem SpelledAs.singleTuple {v : Value} {e : Expr} (h : v.SpelledAs e) :
    (tuple [v]).SpelledAs (.tuple [e]) where
  spells := by
    have hitems : SpellsItems [e] true ([] ++ v.source ++ [] ++ ',' :: []) :=
      .cons blank_nil h.spells blank_nil (.nil blank_nil)
    rw [source_singleTuple]
    simpa using Spells.tuple hitems fun _ ↦ rfl
  nesting_eq := by
    rw [Expr.nesting, Expr.nestingAll, Expr.nestingAll, h.nesting_eq]
    rw [nesting, nestingAll, nestingAll]
  eval_eq host ns := by
    rw [Expr.eval, Expr.evalAll, h.eval_eq]
    rfl

/-- Every plain value is spelled by its source text. -/
theorem Plain.exists_spelledAs {v : Value} (h : v.Plain) : ∃ e, v.SpelledAs e := by
  induction h with
  | none => exact ⟨.null, .constant List.mem_cons_self, rfl, fun _ _ ↦ rfl⟩
  | bool b =>
    refine ⟨.bool b, .constant ?_, rfl, fun _ _ ↦ rfl⟩
    cases b with
    | true => exact List.mem_cons_of_mem _ List.mem_cons_self
    | false => exact List.mem_cons_of_mem _ (List.mem_cons_of_mem _ List.mem_cons_self)
  | int i => exact ⟨.int i, spells_signedDigits i, rfl, fun _ _ ↦ rfl⟩
  | @str text hplain =>
    obtain ⟨hbody, hescaped⟩ := body_and_escaped_flatMap_quotedChar hplain
    refine ⟨.str '"' (text.toList.flatMap quotedChar), .str rfl hbody, rfl, fun _ _ ↦ ?_⟩
    rw [Expr.eval, hescaped.eq, String.ofList_toList]
  | @list items _ ih =>
    obtain ⟨es, hspells, -, hnesting, heval⟩ := exists_spellsItems ih blank_nil
    refine ⟨.list es, ?_, by rw [Expr.nesting, nesting, hnesting], fun host ns ↦ ?_⟩
    · rw [source_list]
      exact .list hspells
    · rw [Expr.eval, heval]
      rfl
  | @tuple items _ ih =>
    by_cases hsingle : items.length = 1
    · obtain ⟨v, rfl⟩ := List.length_eq_one_iff.1 hsingle
      obtain ⟨e, he⟩ := ih v (List.mem_singleton_self v)
      exact ⟨_, he.singleTuple⟩
    · obtain ⟨es, hspells, hlength, hnesting, heval⟩ := exists_spellsItems ih blank_nil
      refine ⟨.tuple es, ?_, by rw [Expr.nesting, nesting, hnesting], fun host ns ↦ ?_⟩
      · rw [source_tuple hsingle]
        exact .tuple hspells fun hone ↦ absurd (hlength.symm.trans hone) hsingle
      · rw [Expr.eval, heval]
        rfl

/-- **Source text is read back.** The source text of a plain value has that value in every
namespace, exactly if its lists and tuples are nested less than a hundred deep. -/
theorem evaluate_source_eq_ok_iff {v : Value} (h : v.Plain) (host : Host) (ns : Namespace) :
    Evaluator.standard host (String.ofList v.source) ns = .ok v ↔ v.nesting < maxNesting := by
  obtain ⟨e, he⟩ := h.exists_spelledAs
  rw [evaluate_eq_ok_iff, ← he.nesting_eq]
  constructor
  · rintro ⟨e', hread, -⟩
    obtain ⟨hnesting, before, t, after, htext, hbefore, ht, hafter⟩ := readExpr_eq_ok_iff.1 hread
    rwa [he.spells.unique ht hbefore hafter htext]
  · intro hnesting
    have hread := readExpr_of_spells he.spells hnesting blank_nil blank_nil
    rw [List.nil_append, List.append_nil] at hread
    exact ⟨e, hread, he.eval_eq host ns⟩

/-- The least integer, text with every escape in it, an empty list, and a tuple of one item. -/
theorem evaluate_source_of_singleTuple :
    let v := Value.tuple [.list [.int Int64.minValue, .str "it's \"a\"\n\r\t\x00\\", .list []]]
    v.Plain ∧ v.nesting < maxNesting ∧
      v.source =
        "([-9223372036854775808, \"it's \\\"a\\\"\\n\\r\\t\\0\\\\\", []],)".toList ∧
      Evaluator.standard Host.bare (String.ofList v.source) Namespace.empty = .ok v := by
  intro v
  have hplain : v.Plain := by
    refine .tuple fun item hitem ↦ ?_
    obtain rfl := List.mem_singleton.1 hitem
    refine .list fun item hitem ↦ ?_
    simp only [List.mem_cons, List.not_mem_nil, or_false] at hitem
    rcases hitem with rfl | rfl | rfl
    · exact .int _
    · have hall : "it's \"a\"\n\r\t\x00\\".toList.all (WrittenPlainly ·) = true := by decide +kernel
      exact .str fun c hc ↦ of_decide_eq_true (List.all_eq_true.1 hall c hc)
    · exact .list fun item hitem ↦ absurd hitem List.not_mem_nil
  have hnesting : v.nesting < maxNesting := by decide +kernel
  exact ⟨hplain, hnesting, by decide +kernel, (evaluate_source_eq_ok_iff hplain _ _).2 hnesting⟩

end Value

end LineCompletion
