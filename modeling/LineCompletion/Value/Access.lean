import LineCompletion.Error
import LineCompletion.Value.Ancestry
import LineCompletion.Value.Equality
import LineCompletion.Value.Source

/-!
# Subscripts, calls and lengths

What a value answers when it is subscripted, called or asked for its length. Containers of the
language answer by themselves. Instances answer through hooks and methods of their type, which a
`Host` provides as functions of what they are given: what a host function gives does not depend on
when it is called or how often, and neither does what a type gives when it is called (`call`).

Whether a value is callable and what a call of it gives are two questions here, and they are
answered in two ways. `isCallable` follows `__call__` from an instance to what its type declares, as
far as that goes; `call` runs `__call__` only if it is a function. That the first one ends is
because a member is smaller than the type that declares it (`sizeOf_lt_of_findMember_call`).

Places in a sequence are integers of 64 bits, counted from the end if they are negative, and truth
values are integers (`position`). Mappings compare their keys by `keyEq`, in their order, and refuse
what cannot be a key. Lengths and keys of an instance are asked of its methods, and an answer of
another kind is no answer.
-/

namespace LineCompletion

/-- What a host program provides behind its functions and its subscript hooks. -/
structure Host where
  /-- Runs the host function of a number on arguments. -/
  call : Nat → List Value → Except EvalError Value
  /-- Runs the subscript hook of a number on the subscripted value and the key. -/
  subscript : Nat → Value → Value → Except LookupError Value

/-- A host that provides nothing. -/
def Host.bare : Host where
  call _ _ := .error (.callFailed "" "no such function")
  subscript _ v _ := .error (.notSubscriptable v.typeName)

/-- Runs a function. The functions of the language itself can be seen but not run. -/
def Function.call (host : Host) (f : Function) (args : List Value) : Except EvalError Value :=
  match f with
  | .host _ serial => host.call serial args
  | .builtin name =>
    .error (.callFailed name "built-in functions are not executed by the completer")
  | .method _ name =>
    .error (.callFailed name "built-in methods are not executed by the completer")

namespace Value

/-- A value as text, for messages. -/
def repr (v : Value) : String := String.ofList v.source

/-! ### Kinds of value -/

/-- Plain data, without structure worth completing into. -/
def isScalar : Value → Bool
  | none | bool _ | int _ | float _ | str _ | bytes _ => true
  | _ => false

/-- Whether subscripts mean anything for the value. -/
def supportsLookup : Value → Bool
  | dict _ | list _ | tuple _ | str _ | bytes _ => true
  | object o => o.type.findHook.isSome
  | _ => false

/-- The type of all values declares no `__call__`. -/
theorem find?_call_objectType : Bindings.find? "__call__" objectType.members = Option.none := by
  decide +kernel

/-- A value found under `__call__` is smaller than the type it was looked up in. -/
theorem sizeOf_lt_of_findMember_call {t : TypeDescriptor} {v : Value}
    (h : t.findMember "__call__" = some v) : sizeOf v < sizeOf t := by
  obtain ⟨ancestor, mem, found⟩ := List.exists_of_findSome?_eq_some h
  rcases List.mem_append.1 mem with mem | mem
  · obtain ⟨u, mem, le⟩ := TypeDescriptor.exists_sizeOf_le_of_mem_walk mem
    obtain rfl := List.mem_singleton.1 mem
    have := TypeDescriptor.sizeOf_lt_of_find? found
    omega
  · obtain rfl := List.mem_singleton.1 mem
    simp [find?_call_objectType] at found

/-- Whether calling the value could succeed. An instance is callable when what its type declares as
`__call__` is. -/
def isCallable : Value → Bool
  | function _ | type _ => true
  | object (.mk _ t _) =>
    match _h : t.findMember "__call__" with
    | some member => member.isCallable
    | Option.none => false
  | _ => false
termination_by v => sizeOf v
decreasing_by
  have := sizeOf_lt_of_findMember_call _h
  simp only [object.sizeOf_spec, Instance.mk.sizeOf_spec]
  omega

/-! ### Calls -/

/-- Calls a value. A type that a host declared gives an instance without attributes; an instance is
passed to its `__call__` function before the arguments. Each call of a type makes an instance of its
own in an interpreter. Here every call gives the same one, without a serial number, and no later
comparison of keys can tell which call it came from. -/
def call (host : Host) (v : Value) (args : List Value) : Except EvalError Value :=
  match v with
  | function f => f.call host args
  | type t =>
    if t.isBuiltin then
      .error (.callFailed t.name "built-in types are not instantiated by the completer")
    else .ok (object (.mk Option.none t []))
  | object o =>
    match o.type.findMember "__call__" with
    | some (function f) => f.call host (v :: args)
    | _ => .error (.notCallable v.typeName)
  | _ => .error (.notCallable v.typeName)

/-- What a method of the value's type gives without arguments, if it runs. -/
def callMethod? (host : Host) (v : Value) (name : String) : Option Value :=
  match v.typeOf.findMember name with
  | some (function f) => (f.call host [v]).toOption
  | _ => Option.none

/-! ### Subscripts -/

/-- The place that an integer key names in a sequence of a given length. A negative key counts from
the end; truth values are integers. -/
def position (typeName : String) (length : Nat) (key : Value) : Except LookupError Nat :=
  let resolve (index : Int64) : Except LookupError Nat :=
    let place := if index.toInt < 0 then length + index.toInt else index.toInt
    if 0 ≤ place ∧ place < length then .ok place.toNat else .error (.indexOutOfRange index)
  match key with
  | int i => resolve i
  | bool b => resolve (if b then 1 else 0)
  | _ => .error (.typeMismatch typeName key.typeName)

/-- What stands in a sequence at the place that a key names. -/
def itemAt (typeName : String) (items : List Value) (key : Value) : Except LookupError Value := do
  let place ← position typeName items.length key
  return items.getD place none

/-- What a value holds under a key. -/
def lookup (host : Host) (v key : Value) : Except LookupError Value :=
  match v with
  | dict pairs =>
    if key.isHashable then
      match pairs.find? fun (k, _) ↦ keyEq k key with
      | some (_, found) => .ok found
      | Option.none => .error (.keyNotFound key.repr)
    else .error (.typeMismatch v.typeName key.typeName)
  | list items | tuple items => itemAt v.typeName items key
  | str text => itemAt v.typeName (text.toList.map fun c ↦ str (String.singleton c)) key
  | bytes data => itemAt v.typeName (data.map fun b ↦ int (Int64.ofNat b.toNat)) key
  | object o =>
    match o.type.findHook with
    | some hook => host.subscript hook v key
    | Option.none => .error (.notSubscriptable v.typeName)
  | _ => .error (.notSubscriptable v.typeName)

/-! ### Lengths and keys -/

/-- How many items a value has. An instance is asked for its `__len__`. -/
def length? (host : Host) (v : Value) : Option Nat :=
  match v with
  | str text => some text.length
  | bytes data => some data.length
  | list items | tuple items | set items => some items.length
  | dict pairs => some pairs.length
  | object _ =>
    match v.callMethod? host "__len__" with
    | some (int n) => if 0 ≤ n.toInt then some n.toInt.toNat else Option.none
    | _ => Option.none
  | _ => Option.none

/-- The keys of a mapping. An instance is asked for its `keys`. -/
def mappingKeys? (host : Host) (v : Value) : Option (List Value) :=
  match v with
  | dict pairs => some (pairs.map (·.1))
  | object _ =>
    match v.callMethod? host "keys" with
    | some (list keys) | some (tuple keys) | some (set keys) => some keys
    | _ => Option.none
  | _ => Option.none

end Value

end LineCompletion
