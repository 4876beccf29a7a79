import LineCompletion.Expression.Evaluation

/-!
# The calls that an evaluation makes

Evaluation with a record. `Watched` evaluations do what evaluations do, and write down every call
step with what is called and on what, also when the call fails or a later step does.
`Expr.watches_eval` and `watches_evaluateText` say that watching changes no outcome.

Two facts about the record carry the call gate. An expression in which no call occurs leaves it as
it is (`Expr.CallFree.silent_watch`). And no call is ever read off a text without a closing round
bracket (`callFree_readExpr`): the arguments of a call end at such a bracket, whatever else the text
holds and wherever its reading gets stuck. Together they give `callsMade_eq_nil_of_not_mem`.

**Why a record is kept.** An outcome does not tell which calls were made for it. A call may fail, or
its value may be thrown away by a later failure, and it has been made all the same. So that a text
makes no call cannot be said of its value. The watched evaluation is a second one beside the first,
and what makes it worth anything is that it has the same outcome on every expression and every text,
whatever was written down before.

**Two relations.** `Watched.Watches` says that an evaluation with a record has a given outcome, and
`Watched.Silent` that it writes nothing down. Each is kept by the steps that evaluations are made
of: giving a value, failing, calling, and one step after another. The theorems on expressions are
then inductions with one line for each constructor.

**A text that gets stuck.** Where a text stops making sense, what was completed before that place is
evaluated all the same, and calls in it are made. Therefore a reader has to promise two things: no
call in what it gives, and none in what it had completed when it got stuck (`CallFreeRead`). The
closing bracket is what both hang on, since a call is completed there and nowhere else.
-/

namespace LineCompletion

open Text

/-! ### Evaluations with a record -/

/-- One call: what is called, and on what. -/
structure CallStep where
  /-- The value that is called. -/
  callee : Value
  /-- The values it is called on. -/
  args : List Value

/-- An evaluation that keeps a record of its calls, in their order. -/
abbrev Watched := ExceptT EvalError (StateM (List CallStep))

namespace Watched

variable {α β : Type}

/-- The outcome of an evaluation and the record after it, from the record before it. -/
def run (x : Watched α) (record : List CallStep) : Except EvalError α × List CallStep :=
  StateT.run (ExceptT.run x) record

/-- A step that makes no call. -/
def quiet (outcome : Except EvalError α) : Watched α := liftExcept outcome

/-- A call, written down before it is made. -/
def call (host : Host) (v : Value) (args : List Value) : Watched Value := do
  modify (· ++ [⟨v, args⟩])
  quiet (v.call host args)

/-- Whatever the record, the outcome is this one. -/
def Watches (x : Watched α) (outcome : Except EvalError α) : Prop :=
  ∀ record, (x.run record).1 = outcome

/-- Nothing is written down. -/
def Silent (x : Watched α) : Prop := ∀ record, (x.run record).2 = record

/-- A step without a call leaves the record as it is. -/
theorem run_quiet (outcome : Except EvalError α) (record : List CallStep) :
    (quiet outcome).run record = (outcome, record) := by
  cases outcome <;> rfl

/-- A second step goes on with the record of the first, unless that fails. -/
theorem run_bind (x : Watched α) (f : α → Watched β) (record : List CallStep) :
    (x >>= f).run record =
      match x.run record with
      | (.ok a, record) => (f a).run record
      | (.error cause, record) => (.error cause, record) := by
  show StateT.run (ExceptT.run x >>= ExceptT.bindCont f) record = _
  rw [StateT.run_bind, show StateT.run (ExceptT.run x) record = x.run record from rfl]
  rcases x.run record with ⟨cause | a, after⟩ <;> rfl

theorem watches_pure (a : α) : (pure a : Watched α).Watches (.ok a) := fun _ ↦ rfl

theorem watches_quiet (outcome : Except EvalError α) : (quiet outcome).Watches outcome := by
  intro record
  rw [run_quiet]

/-- A call has the outcome of the call. -/
theorem watches_call (host : Host) (v : Value) (args : List Value) :
    (call host v args).Watches (v.call host args) := fun record ↦
  watches_quiet (v.call host args) (record ++ [CallStep.mk v args])

/-- **One step after another is watched** if each of them is. -/
theorem Watches.bind {x : Watched α} {f : α → Watched β} {outcome : Except EvalError α}
    {g : α → Except EvalError β} (hx : x.Watches outcome) (hf : ∀ a, (f a).Watches (g a)) :
    (x >>= f).Watches (outcome >>= g) := by
  intro record
  rw [run_bind, ← hx record]
  rcases x.run record with ⟨cause | a, after⟩
  · rfl
  · exact hf a after

theorem silent_pure (a : α) : (pure a : Watched α).Silent := fun _ ↦ rfl

theorem silent_quiet (outcome : Except EvalError α) : (quiet outcome).Silent := by
  intro record
  rw [run_quiet]

/-- Nothing is written down by two steps that write nothing down. -/
theorem Silent.bind {x : Watched α} {f : α → Watched β} (hx : x.Silent) (hf : ∀ a, (f a).Silent) :
    (x >>= f).Silent := by
  intro record
  have hrecord := hx record
  rw [run_bind]
  rcases hrun : x.run record with ⟨cause | a, after⟩ <;> rw [hrun] at hrecord
  · exact hrecord
  · exact (hf a after).trans hrecord

end Watched

namespace Expr

mutual

/-- The value of an expression, with a record of the calls made on the way. -/
def watch (host : Host) (ns : Namespace) : Expr → Watched Value
  | null => return .none
  | bool b => return .bool b
  | int i => return .int i
  | float x => return .float x
  | str _ body => return .str (String.ofList (Text.unescape body))
  | name n => .quiet (nameStep ns n)
  | list items => do return .list (← watchAll host ns items)
  | tuple items => do return .tuple (← watchAll host ns items)
  | group e => watch host ns e
  | member e n => do
    let v ← watch host ns e
    .quiet (memberStep v n)
  | subscript e key => do
    let v ← watch host ns e
    let k ← watch host ns key
    .quiet (lookupStep host v k)
  | call e args => do
    let v ← watch host ns e
    let vs ← watchAll host ns args
    .call host v vs

/-- The values of expressions in order, with a record of the calls made on the way. -/
def watchAll (host : Host) (ns : Namespace) : List Expr → Watched (List Value)
  | [] => return []
  | e :: rest => do
    let v ← watch host ns e
    let vs ← watchAll host ns rest
    return v :: vs

end

mutual

/-- Watching an evaluation does not change its outcome. -/
theorem watches_eval (host : Host) (ns : Namespace) (e : Expr) :
    (watch host ns e).Watches (eval host ns e) := by
  cases e with
  | null | bool | int | float | str => exact Watched.watches_pure _
  | name n => exact Watched.watches_quiet _
  | list items | tuple items =>
    exact (watches_evalAll host ns items).bind fun vs ↦ Watched.watches_pure _
  | group e => exact watches_eval host ns e
  | member e n => exact (watches_eval host ns e).bind fun v ↦ Watched.watches_quiet _
  | subscript e key =>
    exact (watches_eval host ns e).bind fun v ↦
      (watches_eval host ns key).bind fun k ↦ Watched.watches_quiet _
  | call e args =>
    exact (watches_eval host ns e).bind fun v ↦
      (watches_evalAll host ns args).bind fun vs ↦ Watched.watches_call host v vs

/-- Watching evaluations in order does not change their outcome. -/
theorem watches_evalAll (host : Host) (ns : Namespace) (items : List Expr) :
    (watchAll host ns items).Watches (evalAll host ns items) := by
  cases items with
  | nil => exact Watched.watches_pure _
  | cons e rest =>
    exact (watches_eval host ns e).bind fun v ↦
      (watches_evalAll host ns rest).bind fun vs ↦ Watched.watches_pure _

end

/-! ### Expressions without a call -/

mutual

/-- No call occurs in the expression. -/
def CallFree : Expr → Prop
  | list items | tuple items => AllCallFree items
  | group e | member e _ => e.CallFree
  | subscript e key => e.CallFree ∧ key.CallFree
  | call _ _ => False
  | _ => True

/-- No call occurs in any of the expressions. -/
def AllCallFree : List Expr → Prop
  | [] => True
  | e :: rest => e.CallFree ∧ AllCallFree rest

end

mutual

/-- Where no call occurs, nothing is written down. -/
theorem CallFree.silent_watch (host : Host) (ns : Namespace) {e : Expr} (h : e.CallFree) :
    (watch host ns e).Silent := by
  cases e with
  | null | bool | int | float | str => exact Watched.silent_pure _
  | name n => exact Watched.silent_quiet _
  | list items | tuple items =>
    have hitems : AllCallFree items := h
    exact (hitems.silent_watchAll host ns).bind fun vs ↦ Watched.silent_pure _
  | group e =>
    have he : e.CallFree := h
    exact he.silent_watch host ns
  | member e n =>
    have he : e.CallFree := h
    exact (he.silent_watch host ns).bind fun v ↦ Watched.silent_quiet _
  | subscript e key =>
    obtain ⟨he, hkey⟩ : e.CallFree ∧ key.CallFree := h
    exact (he.silent_watch host ns).bind fun v ↦
      (hkey.silent_watch host ns).bind fun k ↦ Watched.silent_quiet _
  | call e args => exact absurd h id

/-- Where no call occurs in any of several expressions, nothing is written down. -/
theorem AllCallFree.silent_watchAll (host : Host) (ns : Namespace) {items : List Expr}
    (h : AllCallFree items) : (watchAll host ns items).Silent := by
  cases items with
  | nil => exact Watched.silent_pure _
  | cons e rest =>
    obtain ⟨he, hrest⟩ := h
    exact (he.silent_watch host ns).bind fun v ↦
      (AllCallFree.silent_watchAll host ns hrest).bind fun vs ↦ Watched.silent_pure _

end

end Expr

/-! ### Texts without a closing round bracket -/

/-- What was read holds no call, and the text after it still has no closing round bracket. Where
reading is stuck, no call was completed before. -/
def CallFreeRead {α : Type} (holdsNone : α → Prop) : Read α → Prop
  | .ok (a, rest) => holdsNone a ∧ ')' ∉ rest
  | .error stuck => Expr.AllCallFree stuck.done

/-- The reader reads no call off a text without a closing round bracket. -/
def ExprReader.ReadsNoCall (inner : ExprReader) : Prop :=
  ∀ {s : List Char}, ')' ∉ s → CallFreeRead Expr.CallFree (inner.run s)

namespace CallFreeRead

variable {α : Type} {holdsNone : α → Prop} {read : Read α}

theorem of_ok {a : α} {rest : List Char} (h : CallFreeRead holdsNone read)
    (hread : read = .ok (a, rest)) : holdsNone a ∧ ')' ∉ rest := by
  rw [hread] at h
  exact h

theorem of_error {stuck : Stuck} (h : CallFreeRead holdsNone read) (hread : read = .error stuck) :
    Expr.AllCallFree stuck.done := by
  rw [hread] at h
  exact h

end CallFreeRead

theorem not_mem_trimStart {c : Char} {s : List Char} (h : c ∉ s) : c ∉ trimStart s :=
  fun mem ↦ h ((List.dropWhile_suffix _).subset mem)

theorem not_mem_of_trimStart_eq_cons {c d : Char} {s rest : List Char} (h : c ∉ s)
    (hs : trimStart s = d :: rest) : c ∉ rest := by
  have htrim := not_mem_trimStart h
  rw [hs] at htrim
  exact fun mem ↦ htrim (List.mem_cons_of_mem _ mem)

theorem not_mem_dropWhile {c : Char} {s : List Char} (p : Char → Bool) (h : c ∉ s) :
    c ∉ s.dropWhile p :=
  fun mem ↦ h ((List.dropWhile_suffix _).subset mem)

theorem callFreeRead_readIdentifier {s : List Char} (h : ')' ∉ s) :
    CallFreeRead (fun _ ↦ True) (readIdentifier s) := by
  rw [readIdentifier]
  split
  · exact trivial
  · split
    · exact trivial
    · exact ⟨trivial, not_mem_dropWhile _ h⟩

theorem callFree_readName (s : List Char) : (readName s).1.CallFree := by
  simp only [readName]
  split <;> exact trivial

theorem callFreeRead_integer {negative : Bool} {digits rest : List Char} (h : ')' ∉ rest) :
    CallFreeRead Expr.CallFree (match Number.integer negative digits with
      | .ok i => .ok (.int i, rest)
      | .error cause => .error ⟨[], .number cause, rest⟩) := by
  split
  · exact ⟨trivial, h⟩
  · exact trivial

/-- A number is read without a call. -/
theorem callFreeRead_readNumber {negative : Bool} {s : List Char} (h : ')' ∉ s) :
    CallFreeRead Expr.CallFree (readNumber negative s) := by
  have hrest : ')' ∉ s.dropWhile isNumberChar := not_mem_dropWhile _ h
  rw [readNumber]
  simp only
  split
  · rename_i after heq
    rw [heq] at hrest
    split
    · exact ⟨trivial, not_mem_dropWhile _ fun mem ↦ hrest (List.mem_cons_of_mem _ mem)⟩
    · exact callFreeRead_integer hrest
  · exact callFreeRead_integer hrest

/-- A string literal is read without a call. -/
theorem callFreeRead_readString {quote : Char} {s : List Char} (h : ')' ∉ s) :
    CallFreeRead Expr.CallFree (readString quote s) := by
  rw [readString]
  split
  · rename_i body rest hsplit
    rw [eq_append_of_splitBody? hsplit] at h
    exact ⟨trivial, fun mem ↦ h (List.mem_append_right _ (List.mem_cons_of_mem _ mem))⟩
  · exact trivial

/-- Items are read only up to their closing bracket, so round brackets around them are never
completed. -/
theorem callFreeRead_readItems {inner : ExprReader} (hinner : inner.ReadsNoCall) (close : Char)
    {s : List Char} (h : ')' ∉ s) :
    CallFreeRead (fun items ↦ Expr.AllCallFree items.1 ∧ close ≠ ')')
      (readItems inner close s) := by
  fun_induction readItems inner close s with
  | case1 s head =>
    -- The bracket that closes the items was in the text, so it is not the round one.
    have htrim := not_mem_trimStart h
    refine ⟨⟨trivial, ?_⟩, fun mem ↦ htrim (List.mem_of_mem_tail mem)⟩
    rintro rfl
    exact htrim (List.mem_of_mem_head? head)
  | case2 s _ stuck run => exact (hinner (not_mem_trimStart h)).of_error run
  | case3 s _ e left run more trimmed stuck read ih =>
    obtain ⟨he, hleft⟩ := (hinner (not_mem_trimStart h)).of_ok run
    exact ⟨he, (ih (not_mem_of_trimStart_eq_cons hleft trimmed)).of_error read⟩
  | case4 s _ e left run more trimmed items ended rest read ih =>
    obtain ⟨he, hleft⟩ := (hinner (not_mem_trimStart h)).of_ok run
    obtain ⟨⟨hitems, hclose⟩, hrest⟩ :=
      (ih (not_mem_of_trimStart_eq_cons hleft trimmed)).of_ok read
    exact ⟨⟨⟨he, hitems⟩, hclose⟩, hrest⟩
  | case5 s _ e left run _ head =>
    obtain ⟨he, hleft⟩ := (hinner (not_mem_trimStart h)).of_ok run
    have htrim := not_mem_trimStart hleft
    refine ⟨⟨⟨he, trivial⟩, ?_⟩, fun mem ↦ htrim (List.mem_of_mem_tail mem)⟩
    rintro rfl
    exact htrim (List.mem_of_mem_head? head)
  | case6 s _ e left run _ head =>
    exact ⟨((hinner (not_mem_trimStart h)).of_ok run).1, trivial⟩

/-- What an expression begins with holds no call, if its brackets are read without one. -/
theorem callFreeRead_readPrimary {inner : ExprReader} (hinner : inner.ReadsNoCall) {s : List Char}
    (h : ')' ∉ s) : CallFreeRead Expr.CallFree (readPrimary inner s) := by
  have htrim := not_mem_trimStart h
  rw [readPrimary]
  split
  · exact trivial
  · rename_i c rest trimmed
    rw [trimmed] at htrim
    have hrest : ')' ∉ rest := not_mem_of_trimStart_eq_cons h trimmed
    split
    · exact ⟨callFree_readName _, not_mem_dropWhile _ htrim⟩
    split
    · exact callFreeRead_readNumber htrim
    split
    · exact callFreeRead_readNumber hrest
    split
    · exact callFreeRead_readString hrest
    split
    · -- Neither a group nor a tuple gets to its closing bracket.
      have hitems := callFreeRead_readItems hinner ')' hrest
      split
      · exact hitems.of_error ‹_›
      · exact absurd rfl (hitems.of_ok ‹_›).1.2
      · exact absurd rfl (hitems.of_ok ‹_›).1.2
    split
    · have hitems := callFreeRead_readItems hinner ']' hrest
      split
      · exact hitems.of_error ‹_›
      · rename_i read
        obtain ⟨⟨hall, -⟩, hleft⟩ := hitems.of_ok read
        exact ⟨hall, hleft⟩
    · exact trivial

/-- Members and subscripts may follow; arguments would need a closing round bracket. -/
theorem callFreeRead_readSteps {inner : ExprReader} (hinner : inner.ReadsNoCall) {e : Expr}
    (he : e.CallFree) {s : List Char} (h : ')' ∉ s) :
    CallFreeRead Expr.CallFree (readSteps inner e s) := by
  fun_induction readSteps inner e s with
  | case1 e s afterDot trimmed stuck read =>
    have hafter := not_mem_trimStart (not_mem_of_trimStart_eq_cons h trimmed)
    exact ⟨he, (callFreeRead_readIdentifier hafter).of_error read⟩
  | case2 e s afterDot trimmed name left read ih =>
    have hafter := not_mem_trimStart (not_mem_of_trimStart_eq_cons h trimmed)
    exact ih he ((callFreeRead_readIdentifier hafter).of_ok read).2
  | case3 e s inside trimmed stuck run =>
    exact ⟨he, (hinner (not_mem_of_trimStart_eq_cons h trimmed)).of_error run⟩
  | case4 e s inside trimmed key left run more closing ih =>
    obtain ⟨hkey, hleft⟩ := (hinner (not_mem_of_trimStart_eq_cons h trimmed)).of_ok run
    exact ih ⟨he, hkey⟩ (not_mem_of_trimStart_eq_cons hleft closing)
  | case5 e s inside trimmed key left run =>
    exact ⟨he, ((hinner (not_mem_of_trimStart_eq_cons h trimmed)).of_ok run).1, trivial⟩
  | case6 e s inside trimmed stuck read =>
    have hargs := callFreeRead_readItems hinner ')' (not_mem_of_trimStart_eq_cons h trimmed)
    exact ⟨he, hargs.of_error read⟩
  | case7 e s inside trimmed args ended left read =>
    -- Arguments that were read to their end have met a closing round bracket.
    have hargs := callFreeRead_readItems hinner ')' (not_mem_of_trimStart_eq_cons h trimmed)
    exact absurd rfl (hargs.of_ok read).1.2
  | case8 e s => exact ⟨he, not_mem_trimStart h⟩

/-- Readers of every depth read no call off such a text. -/
theorem readsNoCall_ofDepth (depth : Nat) : (ExprReader.ofDepth depth).ReadsNoCall := by
  induction depth with
  | zero => exact fun _ ↦ trivial
  | succ depth ih =>
    intro s h
    have hprimary := callFreeRead_readPrimary ih h
    rw [ExprReader.run_ofDepth_succ]
    split
    · exact hprimary.of_error ‹_›
    · rename_i read
      obtain ⟨he, hrest⟩ := hprimary.of_ok read
      exact callFreeRead_readSteps ih he hrest

/-- No call is read off a text without a closing round bracket, and none is completed before its
reading gets stuck. -/
theorem callFree_readExpr {text : List Char} (h : ')' ∉ text) :
    (∀ e, readExpr text = .ok e → e.CallFree) ∧
      ∀ stuck, readExpr text = .error stuck → Expr.AllCallFree stuck.done := by
  have hrun := readsNoCall_ofDepth maxNesting h
  rw [readExpr]
  generalize (ExprReader.ofDepth maxNesting).run text = outcome at hrun ⊢
  rcases outcome with stuck | ⟨e, rest⟩
  · refine ⟨fun e heq ↦ absurd heq (by simp), fun other heq ↦ ?_⟩
    obtain rfl := Except.error.inj heq
    exact hrun
  · simp only
    split
    · refine ⟨fun other heq ↦ ?_, fun stuck heq ↦ absurd heq (by simp)⟩
      obtain rfl := Except.ok.inj heq
      exact hrun.1
    · refine ⟨fun other heq ↦ absurd heq (by simp), fun stuck heq ↦ ?_⟩
      obtain rfl := Except.error.inj heq
      exact ⟨hrun.1, trivial⟩

/-! ### The calls made on a text -/

/-- The value of a text, with a record of the calls made on the way. -/
def watchText (host : Host) (ns : Namespace) (text : List Char) : Watched Value :=
  match readExpr text with
  | .ok e => e.watch host ns
  | .error stuck => do
    let _ ← Expr.watchAll host ns stuck.done
    .quiet (.error (stuck.error text))

/-- The calls that evaluating a text makes. -/
def callsMade (host : Host) (ns : Namespace) (text : List Char) : List CallStep :=
  ((watchText host ns text).run []).2

/-- **Watching the evaluation of a text does not change its outcome.** -/
theorem watches_evaluateText (host : Host) (ns : Namespace) (text : List Char) :
    (watchText host ns text).Watches (evaluateText host ns text) := by
  rw [watchText, evaluateText]
  rcases readExpr text with stuck | e
  · exact (Expr.watches_evalAll host ns stuck.done).bind fun _ ↦ Watched.watches_quiet _
  · exact Expr.watches_eval host ns e

/-- A text without a closing round bracket makes no call, in whatever place it stops making
sense. -/
theorem callsMade_eq_nil_of_not_mem (host : Host) (ns : Namespace) {text : List Char}
    (h : ')' ∉ text) : callsMade host ns text = [] := by
  suffices hsilent : (watchText host ns text).Silent from hsilent []
  obtain ⟨hok, hstuck⟩ := callFree_readExpr h
  rw [watchText]
  generalize readExpr text = outcome at hok hstuck ⊢
  rcases outcome with stuck | e
  · exact ((hstuck stuck rfl).silent_watchAll host ns).bind fun _ ↦ Watched.silent_quiet _
  · exact (hok e rfl).silent_watch host ns

end LineCompletion
