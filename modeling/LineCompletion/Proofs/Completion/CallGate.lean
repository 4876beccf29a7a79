import LineCompletion.Completion.Console
import LineCompletion.Proofs.Expression.Calls
import LineCompletion.Proofs.Expression.Reading

/-!
# The call gate

How far completion keeps calls from being made while the settings block them. Completing a line asks
for the value of one expression at most (`consulted?`), and asks only when the gate admits it.
`complete_congr_evaluator` says that nothing else of the evaluator matters: two evaluators that
agree there complete the line alike. So a completion with a record of its calls evaluates that one
expression and goes on with the outcome (`completeWatched`), and watching changes nothing of what is
offered (`completeWatched_fst`).

**The gate counts round brackets in the text, whatever they stand for** (`admits_iff`).

* Where an expression has no more closing than opening ones it holds: either the expression is
  refused, or it has no closing one at all and makes no call.
* Where there is a surplus of closing ones, in a string or behind the end of the expression, the
  gate lets everything through, and the calls of the expression are made.

`snd_ask` gives the calls made for one expression in these two cases, and `snd_ask_append_close`
that the second one is within easy reach: an expression with a closing bracket behind it makes all
of its calls, and fails only when they have been made. `completeWatched_calls_eq_nil_iff` says for a
whole line when no call is made. It is an equivalence, so wherever calls are made for an expression
the two counts say it.

A call is recorded as a step of the evaluation, with the value that is called and those it is called
on, before anything is known of its outcome. So one that fails was made too. Calls that a function
of the host makes in turn are not seen. The statements are about the standard evaluator, as other
evaluators might do anything, and about blocked calls, since otherwise the gate admits every
expression.

A key that is a closing bracket is enough to get past the gate (`exists_call_of_bracket_in_key`); an
opening one in its place is not.
-/

namespace LineCompletion

open Text

namespace Console

/-! ### What completion asks for -/

/-- The expression whose value the completion of a line asks for, if it asks for one. -/
def consulted? (console : Console) (line : List Char) : Option (List Char) :=
  if console.settings.completeImports && isImportStatement (trim line) then none
  else
    let parts := decompose line
    if parts.lookup = .absent then
      if parts.expr.contains '.' then (splitLastDot? parts.expr).map Prod.fst else none
    else some parts.expr

/-- The gate: whether an expression may be evaluated. -/
def admits (console : Console) (expr : List Char) : Bool :=
  !(hasCall expr && !console.settings.allowCalls)

/-- An expression has a value for completion if the gate admits it and it has one for the evaluator.
-/
theorem resolve_eq (console : Console) (expr : List Char) :
    console.resolve expr =
      if console.admits expr then (console.evaluator (String.ofList expr) console.ns).toOption
      else none := by
  rw [resolve, admits]
  cases hasCall expr && !console.settings.allowCalls <;> rfl

/-- The same console with another evaluator. -/
def withEvaluator (console : Console) (evaluator : Evaluator) : Console :=
  { console with evaluator := evaluator }

section OtherEvaluator

variable {console : Console} {evaluator : Evaluator}

/-- Behind a dot, completion asks for the value of what stands before it. -/
theorem memberMatches_congr_evaluator {expr : List Char}
    (h : ∀ base, (splitLastDot? expr).map Prod.fst = some base →
      (console.withEvaluator evaluator).resolve base = console.resolve base) :
    (console.withEvaluator evaluator).memberMatches expr = console.memberMatches expr := by
  rw [memberMatches, memberMatches]
  rcases hsplit : splitLastDot? expr with - | ⟨base, start⟩
  · rfl
  · have hbase := h base (by rw [hsplit]; rfl)
    simp only [hbase]
    rfl

/-- Behind a bracket, completion asks for the value of the expression. -/
theorem completeLookup_congr_evaluator {line : List Char} {parts : Decomposition}
    {buffer : LineBuffer}
    (h : (console.withEvaluator evaluator).resolve parts.expr = console.resolve parts.expr) :
    (console.withEvaluator evaluator).completeLookup line parts buffer =
      console.completeLookup line parts buffer := by
  rw [completeLookup]
  rw [h]
  rfl

/-- For a name, completion asks for a value only behind a dot. -/
theorem completeName_congr_evaluator {line : List Char} {parts : Decomposition}
    (h : ∀ base, parts.expr.contains '.' = true →
      (splitLastDot? parts.expr).map Prod.fst = some base →
        (console.withEvaluator evaluator).resolve base = console.resolve base) :
    (console.withEvaluator evaluator).completeName line parts =
      console.completeName line parts := by
  rw [completeName, completeName]
  by_cases hdot : parts.expr.contains '.' = true
  · rw [if_pos hdot, if_pos hdot, memberMatches_congr_evaluator fun base ↦ h base hdot]
  · rw [if_neg hdot, if_neg hdot]
    rfl

/-- **Completion asks for one value at most.** Two evaluators that agree on the expression
consulted, where the gate admits it, give the same completion. -/
theorem complete_congr_evaluator {line : List Char} (buffer : LineBuffer)
    (h : ∀ expr, console.consulted? line = some expr → console.admits expr = true →
      evaluator (String.ofList expr) console.ns =
        console.evaluator (String.ofList expr) console.ns) :
    (console.withEvaluator evaluator).complete line buffer = console.complete line buffer := by
  -- The evaluator is asked through `resolve` only, and only for the expression consulted.
  have hresolve : ∀ expr, console.consulted? line = some expr →
      (console.withEvaluator evaluator).resolve expr = console.resolve expr := by
    intro expr hexpr
    rw [resolve_eq, resolve_eq]
    show (if console.admits expr then _ else _) = (if console.admits expr then _ else _)
    by_cases hadmits : console.admits expr = true
    · rw [if_pos hadmits, if_pos hadmits]
      exact congrArg Except.toOption (h expr hexpr hadmits)
    · rw [if_neg hadmits, if_neg hadmits]
  rw [consulted?] at hresolve
  show (if console.settings.completeImports && isImportStatement (trim line) then _
    else if (decompose line).lookup = .absent then _ else _) = _
  rw [complete]
  by_cases himport : (console.settings.completeImports && isImportStatement (trim line)) = true
  · rw [if_pos himport, if_pos himport]
    rfl
  · rw [if_neg himport] at hresolve ⊢
    rw [if_neg himport]
    by_cases hlookup : (decompose line).lookup = .absent
    · simp only [hlookup, if_true] at hresolve ⊢
      exact congrArg (·, buffer) (completeName_congr_evaluator fun base hdot hbase ↦
        hresolve base (by rw [if_pos hdot, hbase]))
    · simp only [hlookup, if_false] at hresolve ⊢
      exact completeLookup_congr_evaluator (hresolve _ rfl)

end OtherEvaluator

/-! ### Completion with a record of its calls -/

/-- What evaluating the expression consulted gives, with the calls made for it. Where nothing is
consulted, or the gate refuses, nothing is evaluated; a failure then stands for an outcome that
completion does not look at. -/
def ask (console : Console) : Option (List Char) → Except EvalError Value × List CallStep
  | some expr =>
    if console.admits expr then (watchText console.host console.ns expr).run []
    else (.error (.callBlocked (String.ofList expr)), [])
  | none => (.error (.callBlocked ""), [])

/-- Completes the line typed so far, with a record of the calls made on the way. -/
def completeWatched (console : Console) (line : List Char) (buffer : LineBuffer) :
    (List Suggestion × LineBuffer) × List CallStep :=
  let (outcome, calls) := console.ask (console.consulted? line)
  ((console.withEvaluator fun _ _ ↦ outcome).complete line buffer, calls)

/-- Watching a completion does not change it. -/
theorem completeWatched_fst {console : Console}
    (standard : console.evaluator = Evaluator.standard console.host) (line : List Char)
    (buffer : LineBuffer) :
    (console.completeWatched line buffer).1 = console.complete line buffer := by
  refine complete_congr_evaluator buffer fun expr hexpr hadmits ↦ ?_
  show (console.ask (console.consulted? line)).1 = _
  rw [hexpr, standard]
  show (if console.admits expr then _ else _ : Except EvalError Value × List CallStep).1 =
    evaluateText console.host console.ns (String.ofList expr).toList
  rw [if_pos hadmits, String.toList_ofList]
  exact watches_evaluateText console.host console.ns expr []

/-- The gate tells expressions apart by two numbers only. While calls are blocked it admits the
expressions without a closing round bracket, and those with a surplus of them. -/
theorem admits_iff {console : Console} (blocked : console.settings.allowCalls = false)
    (expr : List Char) :
    console.admits expr = true ↔ ')' ∉ expr ∨ expr.count '(' < expr.count ')' := by
  rw [← List.count_eq_zero]
  simp only [admits, hasCall, blocked, Bool.not_false, Bool.and_true, Bool.not_eq_true',
    Bool.and_eq_false_iff, decide_eq_false_iff_not]
  omega

/-- The calls made for one expression while calls are blocked: none when its closing round brackets
are no surplus, and all of its own when they are. -/
theorem snd_ask {console : Console} (blocked : console.settings.allowCalls = false)
    (expr : List Char) :
    (console.ask (some expr)).2 =
      if expr.count ')' ≤ expr.count '(' then [] else callsMade console.host console.ns expr := by
  show (if console.admits expr then _ else _ : Except EvalError Value × List CallStep).2 = _
  by_cases hcount : expr.count ')' ≤ expr.count '('
  · rw [if_pos hcount]
    by_cases hadmits : console.admits expr = true
    · rw [if_pos hadmits]
      rcases (admits_iff blocked expr).1 hadmits with hmem | hlt
      · exact callsMade_eq_nil_of_not_mem console.host console.ns hmem
      · omega
    · rw [if_neg hadmits]
  · have hadmits : console.admits expr = true := (admits_iff blocked expr).2 (.inr (by omega))
    rw [if_neg hcount, if_pos hadmits]
    rfl

/-- Whatever calls an expression makes, it makes them through the gate once a closing bracket is put
behind it, unless opening ones in its strings make up for that one. The text then makes no sense as
a whole, but that is found when the calls have been made. -/
theorem snd_ask_append_close {console : Console} (blocked : console.settings.allowCalls = false)
    {e : Expr} {s : List Char} (h : Spells e s) (hnesting : e.nesting < maxNesting)
    (hcount : s.count '(' ≤ s.count ')') :
    (console.ask (some (s ++ [')']))).2 = ((e.watch console.host console.ns).run []).2 := by
  have hsurplus : ¬ (s ++ [')']).count ')' ≤ (s ++ [')']).count '(' := by
    rw [List.count_append, List.count_append, List.count_singleton_self,
      List.count_singleton, if_neg (by decide)]
    omega
  rw [snd_ask blocked, if_neg hsurplus, callsMade, watchText, readExpr_append_close h hnesting]
  show ((Expr.watchAll console.host console.ns [e] >>= fun _ ↦ Watched.quiet _).run []).2 = _
  rw [Expr.watchAll, Watched.run_bind, Watched.run_bind]
  rcases (e.watch console.host console.ns).run [] with ⟨cause | v, calls⟩ <;> rfl

/-- **How far the gate holds.** While calls are blocked, an expression is evaluated without any call
when its closing round brackets do not outnumber the opening ones, and with every call it makes when
they do. So completing a line makes no call exactly when the expression it consults has no such
surplus, or makes no call by itself. -/
theorem completeWatched_calls_eq_nil_iff {console : Console}
    (standard : console.evaluator = Evaluator.standard console.host)
    (blocked : console.settings.allowCalls = false) (line : List Char) (buffer : LineBuffer) :
    (console.completeWatched line buffer).1 = console.complete line buffer ∧
      (∀ expr, (console.ask (some expr)).2 =
        if expr.count ')' ≤ expr.count '(' then [] else callsMade console.host console.ns expr) ∧
      ((console.completeWatched line buffer).2 = [] ↔
        ∀ expr, console.consulted? line = some expr →
          expr.count ')' ≤ expr.count '(' ∨ callsMade console.host console.ns expr = []) := by
  refine ⟨completeWatched_fst standard line buffer, snd_ask blocked, ?_⟩
  show (console.ask (console.consulted? line)).2 = [] ↔ _
  rcases console.consulted? line with - | expr
  · exact ⟨fun _ expr hexpr ↦ absurd hexpr (by simp), fun _ ↦ rfl⟩
  · rw [snd_ask blocked]
    by_cases hcount : expr.count ')' ≤ expr.count '('
    · rw [if_pos hcount]
      refine ⟨fun _ other hother ↦ ?_, fun _ ↦ rfl⟩
      exact .inl (Option.some.inj hother ▸ hcount)
    · rw [if_neg hcount]
      refine ⟨fun hcalls other hother ↦ .inr (Option.some.inj hother ▸ hcalls), fun h ↦ ?_⟩
      exact (h expr rfl).resolve_left hcount

/-! ### A call past the gate -/

/-- A host whose functions give a mapping with one key. -/
def rowsHost : Host where
  call _ _ := .ok (.dict [(.str "rows", .int 1)])
  subscript := Host.bare.subscript

/-- A console with standard settings that sees one name, a mapping with a function under the key
that is a closing round bracket. -/
def bracketKeyConsole : Console where
  host := rowsHost
  ns := Namespace.empty.setGlobal "d" (.dict [(.str ")", .function (.host "load" 0))])
  evaluator := Evaluator.standard rowsHost
  introspector := Introspector.standard
  modules := ⟨[], []⟩
  keywords := []
  settings := Settings.standard

/-- With an opening round bracket in the key instead, the call is not made. -/
theorem completeWatched_calls_eq_nil_of_opening_key :
    bracketKeyConsole.evaluator = Evaluator.standard bracketKeyConsole.host ∧
      bracketKeyConsole.settings.allowCalls = false ∧
      bracketKeyConsole.consulted? "d['(']()['".toList = some "d['(']()".toList ∧
      (bracketKeyConsole.completeWatched "d['(']()['".toList (.ofText 80 [])).2 = [] := by
  have hconsulted : bracketKeyConsole.consulted? "d['(']()['".toList = some "d['(']()".toList := by
    decide +kernel
  obtain ⟨-, -, hcalls⟩ := @completeWatched_calls_eq_nil_iff bracketKeyConsole rfl rfl
    "d['(']()['".toList (.ofText 80 [])
  refine ⟨rfl, rfl, hconsulted, hcalls.2 fun expr hexpr ↦ .inl ?_⟩
  obtain rfl := Option.some.inj (hconsulted.symm.trans hexpr)
  decide

/-- A closing round bracket in a key is enough for a call to be made while calls are blocked, and
its value shows in what is offered. -/
theorem exists_call_of_bracket_in_key :
    bracketKeyConsole.evaluator = Evaluator.standard bracketKeyConsole.host ∧
      bracketKeyConsole.settings.allowCalls = false ∧
      bracketKeyConsole.consulted? "d[')']()['".toList = some "d[')']()".toList ∧
      hasCall "d[')']()".toList = false ∧
      (bracketKeyConsole.completeWatched "d[')']()['".toList (.ofText 80 [])).2.length = 1 ∧
      (bracketKeyConsole.complete "d[')']()['".toList (.ofText 80 [])).1.map Suggestion.value =
        ["d[')']()['rows']".toList] := by
  refine ⟨rfl, rfl, ?_, ?_, ?_, ?_⟩ <;> decide +kernel

end Console

end LineCompletion
