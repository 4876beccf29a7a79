import LineCompletion.Expression.Evaluation
import LineCompletion.Proofs.Expression.Reading

/-!
# What expressions mean

The meaning of an expression as a relation, rule by rule and without a thought of text: what it
gives in a namespace, be it a value or the failure of its first step that fails. `Gives` has one
rule for each way in which a step succeeds and one for each way in which it fails, so that the order
of evaluation is in the premises: a rule for a later step asks for the values of the earlier ones.
`gives_iff` says that evaluation decides the relation.

With the grammar of `Spells` this gives a meaning to texts, and `evaluate_eq_iff_gives` says that it
is the one evaluating them computes.

**What is taken as given.** The rules say in which order the steps of an expression are made and
which failure decides. What a single step on values gives is not theirs to say: a member is what
`Value.member?` finds, a subscript what `Value.lookup` gives and a call what `Value.call` gives, on
both sides of `gives_iff`. In particular the meaning has the limit of `Value.call`. The instances
that two calls of one type make are one value, so that one of them is found as a key under the other
(`Instance.same`); an interpreter keeps them apart and would fail there. No rule and no theorem here
turns on it.
-/

namespace LineCompletion

open Text

/-! ### Escapes -/

/-- The characters that stand for another one behind a backslash. -/
def escapes : List (Char × Char) :=
  [('n', '\n'), ('t', '\t'), ('r', '\r'), ('0', '\x00'), ('\\', '\\'), ('\'', '\''), ('"', '"')]

/-- What stands between the quotes of a literal, and what it stands for. -/
inductive Escaped : List Char → List Char → Prop
  /-- Nothing stands for nothing. -/
  | nil : Escaped [] []
  /-- A character stands for itself. -/
  | plain {c : Char} {s t : List Char} (hc : c ≠ '\\') (h : Escaped s t) : Escaped (c :: s) (c :: t)
  /-- An escape stands for its character. -/
  | escape {c d : Char} {s t : List Char} (hc : (c, d) ∈ escapes) (h : Escaped s t) :
      Escaped ('\\' :: c :: s) (d :: t)
  /-- A backslash before any other character stands for itself, and so does that character. -/
  | kept {c : Char} {s t : List Char} (hc : c ∉ escapes.map Prod.fst) (h : Escaped s t) :
      Escaped ('\\' :: c :: s) ('\\' :: c :: t)
  /-- So does a backslash at the end, which no literal has. -/
  | last : Escaped ['\\'] ['\\']

/-- What a body is read as is what it stands for. -/
theorem escaped_unescape (s : List Char) : Escaped s (unescape s) := by
  fun_induction unescape s with
  | case1 | case2 | case3 | case4 | case5 | case6 | case7 => exact .escape (by decide) ‹_›
  | case8 c rest hn ht hr h0 hslash hsingle hdouble ih =>
    -- None of the equations for escapes applies, so the character is not in the table.
    refine .kept (fun hmem ↦ ?_) ih
    simp only [escapes, List.map_cons, List.map_nil, List.mem_cons, List.not_mem_nil,
      or_false] at hmem
    rcases hmem with h | h | h | h | h | h | h
    exacts [hn h, ht h, hr h, h0 h, hslash h, hsingle h, hdouble h]
  | case9 c rest hpair ih =>
    by_cases hc : c = '\\'
    · cases rest with
      | nil => exact hc ▸ .last
      | cons d rest => exact absurd rfl (hpair d rest hc)
    · exact .plain hc ih
  | case10 => exact .nil

/-- A body stands for one text only. -/
theorem Escaped.eq {s t : List Char} (h : Escaped s t) : unescape s = t := by
  induction h with
  | nil | last => rfl
  | plain hc _ ih =>
    rw [unescape, ih]
    exact fun _ _ hslash _ ↦ hc hslash
  | escape hc _ ih =>
    simp only [escapes, List.mem_cons, Prod.mk.injEq, List.not_mem_nil, or_false] at hc
    rcases hc with ⟨rfl, rfl⟩ | ⟨rfl, rfl⟩ | ⟨rfl, rfl⟩ | ⟨rfl, rfl⟩ | ⟨rfl, rfl⟩ | ⟨rfl, rfl⟩ |
      ⟨rfl, rfl⟩ <;> exact congrArg _ ih
  | kept hc _ ih =>
    rw [unescape, ih]
    all_goals rintro rfl; exact hc (by decide)

/-! ### Meaning -/

section Gives

variable (host : Host) (ns : Namespace)

mutual

/-- What an expression gives in a namespace: its value, or the failure that keeps it from having
one. A call gives what `Value.call` says, which does not tell two instances of one type apart when
both were made by calls. -/
inductive Gives : Expr → Except EvalError Value → Prop
  /-- The null value is itself. -/
  | null : Gives .null (.ok .none)
  /-- A truth value is itself. -/
  | bool (b : Bool) : Gives (.bool b) (.ok (.bool b))
  /-- An integer is itself. -/
  | int (i : Int64) : Gives (.int i) (.ok (.int i))
  /-- A floating-point number is itself. -/
  | float (x : Binary64) : Gives (.float x) (.ok (.float x))
  /-- A string literal is the text it stands for. -/
  | str (quote : Char) {body s : List Char} (h : Escaped body s) :
      Gives (.str quote body) (.ok (.str (String.ofList s)))
  /-- A name is what the namespace has under it. -/
  | name {n : String} {v : Value} (h : ns.get? n = some v) : Gives (.name n) (.ok v)
  /-- The namespace has nothing under a name. -/
  | unknownName {n : String} (h : ns.get? n = none) : Gives (.name n) (.error (.unknownName n))
  /-- A list has the values of its items. -/
  | list {items : List Expr} {vs : List Value} (h : GivesAll items (.ok vs)) :
      Gives (.list items) (.ok (.list vs))
  /-- An item of a list fails. -/
  | listFails {items : List Expr} {cause : EvalError} (h : GivesAll items (.error cause)) :
      Gives (.list items) (.error cause)
  /-- A tuple has the values of its items. -/
  | tuple {items : List Expr} {vs : List Value} (h : GivesAll items (.ok vs)) :
      Gives (.tuple items) (.ok (.tuple vs))
  /-- An item of a tuple fails. -/
  | tupleFails {items : List Expr} {cause : EvalError} (h : GivesAll items (.error cause)) :
      Gives (.tuple items) (.error cause)
  /-- Brackets around an expression change nothing. -/
  | group {e : Expr} {r : Except EvalError Value} (h : Gives e r) : Gives (.group e) r
  /-- A member of a value. -/
  | member {e : Expr} {n : String} {v found : Value} (h : Gives e (.ok v))
      (hn : v.member? n = some found) : Gives (.member e n) (.ok found)
  /-- A value has no such member. -/
  | missingMember {e : Expr} {n : String} {v : Value} (h : Gives e (.ok v))
      (hn : v.member? n = none) : Gives (.member e n) (.error (.missingAttribute v.typeName n))
  /-- There is no value to have a member. -/
  | memberFails {e : Expr} {n : String} {cause : EvalError} (h : Gives e (.error cause)) :
      Gives (.member e n) (.error cause)
  /-- What a value holds under a key. -/
  | subscript {e key : Expr} {v k found : Value} (h : Gives e (.ok v)) (hk : Gives key (.ok k))
      (hv : v.lookup host k = .ok found) : Gives (.subscript e key) (.ok found)
  /-- A value does not hold the key. -/
  | lookupFails {e key : Expr} {v k : Value} {cause : LookupError} (h : Gives e (.ok v))
      (hk : Gives key (.ok k)) (hv : v.lookup host k = .error cause) :
      Gives (.subscript e key) (.error (.lookup cause))
  /-- There is a value to look in, but no key. -/
  | keyFails {e key : Expr} {v : Value} {cause : EvalError} (h : Gives e (.ok v))
      (hk : Gives key (.error cause)) : Gives (.subscript e key) (.error cause)
  /-- There is no value to look in. -/
  | subscriptFails {e key : Expr} {cause : EvalError} (h : Gives e (.error cause)) :
      Gives (.subscript e key) (.error cause)
  /-- What calling a value gives, which may be a failure. -/
  | call {e : Expr} {args : List Expr} {v : Value} {vs : List Value} (h : Gives e (.ok v))
      (hargs : GivesAll args (.ok vs)) : Gives (.call e args) (v.call host vs)
  /-- There is a value to call, but an argument fails. -/
  | argumentFails {e : Expr} {args : List Expr} {v : Value} {cause : EvalError}
      (h : Gives e (.ok v)) (hargs : GivesAll args (.error cause)) :
      Gives (.call e args) (.error cause)
  /-- There is no value to call. -/
  | callFails {e : Expr} {args : List Expr} {cause : EvalError} (h : Gives e (.error cause)) :
      Gives (.call e args) (.error cause)

/-- What expressions give in order: their values, or the first failure among them. -/
inductive GivesAll : List Expr → Except EvalError (List Value) → Prop
  /-- No expression, no value. -/
  | nil : GivesAll [] (.ok [])
  /-- A value, and the values after it. -/
  | cons {e : Expr} {rest : List Expr} {v : Value} {vs : List Value} (h : Gives e (.ok v))
      (hrest : GivesAll rest (.ok vs)) : GivesAll (e :: rest) (.ok (v :: vs))
  /-- The first expression fails. -/
  | headFails {e : Expr} {rest : List Expr} {cause : EvalError} (h : Gives e (.error cause)) :
      GivesAll (e :: rest) (.error cause)
  /-- The first one has a value, but one after it fails. -/
  | tailFails {e : Expr} {rest : List Expr} {v : Value} {cause : EvalError} (h : Gives e (.ok v))
      (hrest : GivesAll rest (.error cause)) : GivesAll (e :: rest) (.error cause)

end

end Gives

variable {host : Host} {ns : Namespace}

mutual

/-- Evaluation gives what an expression gives. -/
theorem gives_eval (e : Expr) : Gives host ns e (e.eval host ns) := by
  cases e with
  | null => exact .null
  | bool b => exact .bool b
  | int i => exact .int i
  | float x => exact .float x
  | str quote body => exact .str quote (escaped_unescape body)
  | name n =>
    rw [Expr.eval, Expr.nameStep]
    cases hn : ns.get? n with
    | none => exact .unknownName hn
    | some v => exact .name hn
  | list items =>
    have h := gives_evalAll items
    rw [Expr.eval]
    cases hitems : Expr.evalAll host ns items with
    | error cause => exact .listFails (hitems ▸ h)
    | ok vs => exact .list (hitems ▸ h)
  | tuple items =>
    have h := gives_evalAll items
    rw [Expr.eval]
    cases hitems : Expr.evalAll host ns items with
    | error cause => exact .tupleFails (hitems ▸ h)
    | ok vs => exact .tuple (hitems ▸ h)
  | group e => exact .group (gives_eval e)
  | member e n =>
    have h := gives_eval e
    rw [Expr.eval]
    cases he : Expr.eval host ns e with
    | error cause => exact .memberFails (he ▸ h)
    | ok v =>
      show Gives host ns (.member e n) (Expr.memberStep v n)
      rw [Expr.memberStep]
      cases hn : v.member? n with
      | none => exact .missingMember (he ▸ h) hn
      | some found => exact .member (he ▸ h) hn
  | subscript e key =>
    -- The key is evaluated only when there is a value to look in.
    have h := gives_eval e
    have hk := gives_eval key
    rw [Expr.eval]
    cases he : Expr.eval host ns e with
    | error cause => exact .subscriptFails (he ▸ h)
    | ok v =>
      cases hkey : Expr.eval host ns key with
      | error cause => exact .keyFails (he ▸ h) (hkey ▸ hk)
      | ok k =>
        show Gives host ns (.subscript e key) ((v.lookup host k).mapError .lookup)
        cases hv : v.lookup host k with
        | error cause => exact .lookupFails (he ▸ h) (hkey ▸ hk) hv
        | ok found => exact .subscript (he ▸ h) (hkey ▸ hk) hv
  | call e args =>
    have h := gives_eval e
    have hargs := gives_evalAll args
    rw [Expr.eval]
    cases he : Expr.eval host ns e with
    | error cause => exact .callFails (he ▸ h)
    | ok v =>
      cases hvs : Expr.evalAll host ns args with
      | error cause => exact .argumentFails (he ▸ h) (hvs ▸ hargs)
      | ok vs => exact .call (he ▸ h) (hvs ▸ hargs)

theorem gives_evalAll (items : List Expr) :
    GivesAll host ns items (Expr.evalAll host ns items) := by
  cases items with
  | nil => exact .nil
  | cons e rest =>
    have h := gives_eval e
    have hrest := gives_evalAll rest
    rw [Expr.evalAll]
    cases he : Expr.eval host ns e with
    | error cause => exact .headFails (he ▸ h)
    | ok v =>
      cases hvs : Expr.evalAll host ns rest with
      | error cause => exact .tailFails (he ▸ h) (hvs ▸ hrest)
      | ok vs => exact .cons (he ▸ h) (hvs ▸ hrest)

end

mutual

/-- What an expression gives is what evaluation gives. -/
theorem Gives.eval_eq {e : Expr} {r : Except EvalError Value} (h : Gives host ns e r) :
    e.eval host ns = r := by
  cases h with
  | null | bool | int | float => rfl
  | str quote h => rw [Expr.eval, h.eq]
  | name h | unknownName h => rw [Expr.eval, Expr.nameStep, h]
  | list h | listFails h | tuple h | tupleFails h => rw [Expr.eval, h.evalAll_eq]; rfl
  | group h => exact h.eval_eq
  | member h hn | missingMember h hn =>
    rw [Expr.eval, h.eval_eq]
    show Expr.memberStep _ _ = _
    rw [Expr.memberStep, hn]
  | memberFails h | subscriptFails h | callFails h => rw [Expr.eval, h.eval_eq]; rfl
  | subscript h hk hv | lookupFails h hk hv =>
    rw [Expr.eval, h.eval_eq, hk.eval_eq]
    show (Value.lookup host _ _).mapError EvalError.lookup = _
    rw [hv]
    rfl
  | keyFails h hk => rw [Expr.eval, h.eval_eq, hk.eval_eq]; rfl
  | call h hargs | argumentFails h hargs => rw [Expr.eval, h.eval_eq, hargs.evalAll_eq]; rfl

theorem GivesAll.evalAll_eq {items : List Expr} {r : Except EvalError (List Value)}
    (h : GivesAll host ns items r) : Expr.evalAll host ns items = r := by
  cases h with
  | nil => rfl
  | cons h hrest | tailFails h hrest => rw [Expr.evalAll, h.eval_eq, hrest.evalAll_eq]; rfl
  | headFails h => rw [Expr.evalAll, h.eval_eq]; rfl

end

/-- Evaluation decides what an expression gives, which is therefore one thing and never none. -/
theorem gives_iff {e : Expr} {r : Except EvalError Value} :
    Gives host ns e r ↔ e.eval host ns = r :=
  ⟨Gives.eval_eq, fun h ↦ h ▸ gives_eval e⟩

/-- **Evaluating a text computes what it means.** However an expression is spelled, as long as its
brackets are nested no deeper than is read, evaluating the text gives what the expression gives, and
nothing else: its value, or the first failure on the way from left to right and from the inside
out. What single steps give is as for `Gives`, within the limit that is stated with `Value.call`. -/
theorem evaluate_eq_iff_gives {e : Expr} {s before after : List Char} (h : Spells e s)
    (hnesting : e.nesting < maxNesting) (hbefore : Blank before) (hafter : Blank after)
    (host : Host) (ns : Namespace) (r : Except EvalError Value) :
    Evaluator.standard host (String.ofList (before ++ s ++ after)) ns = r ↔ Gives host ns e r := by
  rw [gives_iff, Evaluator.standard, String.toList_ofList, evaluateText,
    readExpr_of_spells h hnesting hbefore hafter]

/-- The value under a key, spelled with spaces wherever they may be. -/
theorem evaluate_spaced_subscript :
    let e := Expr.subscript (.name (String.ofList ['d'])) (.str '\'' ['k'])
    let ns := Namespace.empty.setGlobal "d" (.dict [(.str "k", .int 7)])
    Spells e "d [ 'k' ]".toList ∧ e.nesting < maxNesting ∧
      Evaluator.standard Host.bare (String.ofList ([' '] ++ "d [ 'k' ]".toList ++ [])) ns =
        .ok (.int 7) := by
  intro e ns
  have hblank : Blank [' '] := by
    intro c hc
    obtain rfl := List.mem_singleton.1 hc
    decide
  have hname : Spells (.name (String.ofList ['d'])) ['d'] :=
    .name (by decide) (by decide)
  have hkey : Spells (.str '\'' ['k']) "'k'".toList :=
    .str (by decide) (.plain (by decide) (by decide) .nil)
  have hspells : Spells e "d [ 'k' ]".toList := .subscript hname hblank hblank hkey hblank
  have hnesting : e.nesting < maxNesting := by decide
  have hmeaning : Gives Host.bare ns e (.ok (.int 7)) :=
    .subscript (.name rfl) (.str _ (.plain (by decide) .nil)) rfl
  refine ⟨hspells, hnesting, ?_⟩
  exact (evaluate_eq_iff_gives hspells hnesting hblank blank_nil _ _ _).2 hmeaning

end LineCompletion
