import LineCompletion.Expression.Reader
import LineCompletion.Namespace
import LineCompletion.Text.Utf8
import LineCompletion.Value.Access
import LineCompletion.Value.Members

/-!
# Evaluating expressions

What an expression means in a namespace. Evaluation goes from left to right and from the inside out,
and the first step that fails decides. `evaluateText` takes text: where the text stops making sense,
the expressions before that place are evaluated first, and their failure wins over the syntax.

Evaluation is a function of the expression, the namespace and the host. Nothing is remembered from
one step to the next, and that is a limit where a type is called: an expression that calls one type
twice has one instance for both calls (`Value.call`), where an interpreter makes two. An expression
can tell only by using one of them as a key where the other is one.
-/

namespace LineCompletion

namespace Expr

/-- What a subscript step gives. -/
def lookupStep (host : Host) (v key : Value) : Except EvalError Value :=
  (v.lookup host key).mapError .lookup

/-- What a member step gives. -/
def memberStep (v : Value) (name : String) : Except EvalError Value :=
  match v.member? name with
  | some found => .ok found
  | none => .error (.missingAttribute v.typeName name)

/-- What a name stands for. -/
def nameStep (ns : Namespace) (name : String) : Except EvalError Value :=
  match ns.get? name with
  | some v => .ok v
  | none => .error (.unknownName name)

mutual

/-- The value of an expression. -/
def eval (host : Host) (ns : Namespace) : Expr → Except EvalError Value
  | null => .ok .none
  | bool b => .ok (.bool b)
  | int i => .ok (.int i)
  | float x => .ok (.float x)
  | str _ body => .ok (.str (String.ofList (Text.unescape body)))
  | name n => nameStep ns n
  | list items => do return .list (← evalAll host ns items)
  | tuple items => do return .tuple (← evalAll host ns items)
  | group e => eval host ns e
  | member e n => do
    let v ← eval host ns e
    memberStep v n
  | subscript e key => do
    let v ← eval host ns e
    let k ← eval host ns key
    lookupStep host v k
  | call e args => do
    let v ← eval host ns e
    let vs ← evalAll host ns args
    v.call host vs

/-- The values of expressions in order. -/
def evalAll (host : Host) (ns : Namespace) : List Expr → Except EvalError (List Value)
  | [] => .ok []
  | e :: rest => do
    let v ← eval host ns e
    let vs ← evalAll host ns rest
    return v :: vs

end

end Expr

/-- The error that a stuck reading of a text ends in. -/
def Stuck.error (stuck : Stuck) (text : List Char) : EvalError :=
  .syntaxError (Text.byteLength text - Text.byteLength stuck.rest) stuck.problem

/-- The value of a text. -/
def evaluateText (host : Host) (ns : Namespace) (text : List Char) : Except EvalError Value :=
  match readExpr text with
  | .ok e => e.eval host ns
  | .error stuck => do
    -- The values are of no use any more; what counts is whether each of them exists.
    let _ ← Expr.evalAll host ns stuck.done
    .error (stuck.error text)

/-- What gives the value of a text in a namespace. -/
abbrev Evaluator := String → Namespace → Except EvalError Value

/-- Reads the text as an expression and evaluates that. -/
def Evaluator.standard (host : Host) : Evaluator := fun text ns ↦ evaluateText host ns text.toList

end LineCompletion
