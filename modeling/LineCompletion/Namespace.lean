import LineCompletion.Value.Bindings
import LineCompletion.Value.Builtin

/-!
# Namespaces

The names that the line being edited can see, in three scopes: locals, globals and builtins. A name
bound in an earlier scope hides the same name in the later ones. Each scope is kept in the order of
its names, which is the order in which names are offered.

A scope carries the proof that its names ascend (`Scope`), so a name is bound once in it and what it
is bound to does not depend on the order in which bindings were made. Every operation keeps that by
its definition.

`Namespace.visible` lists what can be seen, scope by scope, and `Namespace.get?` looks one name up.
They differ in one name: `hiddenName` is bound in an interpreter but never listed.
`Namespace.standard` holds the names of the language alone, and a script binds its own in front of
them.
-/

namespace LineCompletion

/-! ### Scopes -/

/-- Names bound to values, in the order of the names. -/
structure Scope where
  /-- The bindings. -/
  bindings : List (String × Value)
  /-- The names ascend, so each is bound once. -/
  ordered : Bindings.Ordered bindings

namespace Scope

/-- A scope in which no name is bound. -/
def empty : Scope := ⟨[], List.Pairwise.nil⟩

/-- Binds a name, in place of an earlier binding. -/
def insert (scope : Scope) (name : String) (value : Value) : Scope :=
  ⟨Bindings.insert name value scope.bindings, Bindings.ordered_insert scope.ordered name value⟩

/-- Leaves a name unbound. -/
def erase (scope : Scope) (name : String) : Scope :=
  ⟨Bindings.erase name scope.bindings, Bindings.ordered_erase scope.ordered name⟩

/-- What a name is bound to. -/
def get? (scope : Scope) (name : String) : Option Value := Bindings.find? name scope.bindings

/-- The scope that binds names one after another. -/
def ofList (bindings : List (String × Value)) : Scope :=
  bindings.foldl (fun scope (name, value) ↦ scope.insert name value) empty

end Scope

/-! ### Namespaces -/

/-- The scopes that a line can see. -/
structure Namespace where
  /-- Names of the innermost function. -/
  locals : Scope
  /-- Names of the script. -/
  globals : Scope
  /-- Names of the language. -/
  builtins : Scope

/-- A name that is bound in the interpreter but never offered. -/
def hiddenName : String := "__builtins__"

namespace Namespace

/-- A namespace in which no name is bound. -/
def empty : Namespace := ⟨.empty, .empty, .empty⟩

/-- Binds a global name. -/
def setGlobal (ns : Namespace) (name : String) (value : Value) : Namespace :=
  { ns with globals := ns.globals.insert name value }

/-- Binds a local name. -/
def setLocal (ns : Namespace) (name : String) (value : Value) : Namespace :=
  { ns with locals := ns.locals.insert name value }

/-- Binds a name of the language. -/
def setBuiltin (ns : Namespace) (name : String) (value : Value) : Namespace :=
  { ns with builtins := ns.builtins.insert name value }

/-- Leaves every local name unbound. -/
def clearLocals (ns : Namespace) : Namespace := { ns with locals := .empty }

/-- Leaves a global name unbound. -/
def removeGlobal (ns : Namespace) (name : String) : Namespace :=
  { ns with globals := ns.globals.erase name }

/-- What a name stands for. -/
def get? (ns : Namespace) (name : String) : Option Value :=
  ns.locals.get? name <|> ns.globals.get? name <|> ns.builtins.get? name

/-- The bindings of a later scope whose names an earlier one leaves free. -/
def unhidden (taken : List String) (scope : Scope) : List (String × Value) :=
  scope.bindings.filter fun (name, _) ↦ !taken.contains name

/-- The names that can be seen with what they stand for, scope by scope. -/
def visible (ns : Namespace) : List (String × Value) :=
  let locals := Bindings.names ns.locals.bindings
  let globals := Bindings.names ns.globals.bindings
  unhidden [hiddenName] ns.locals ++ unhidden (hiddenName :: locals) ns.globals ++
    unhidden (hiddenName :: locals ++ globals) ns.builtins

/-! ### The names of the language -/

/-- The functions of the language. They can be seen but not run. -/
def builtinFunctions : List String := [
  "abs", "all", "any", "ascii", "bin", "callable", "chr", "compile", "delattr", "dir", "divmod",
  "enumerate", "eval", "exec", "filter", "format", "getattr", "globals", "hasattr", "hash", "help",
  "hex", "id", "input", "isinstance", "issubclass", "iter", "len", "locals", "map", "max", "min",
  "next", "oct", "open", "ord", "pow", "print", "repr", "reversed", "round", "setattr", "sorted",
  "sum", "vars", "zip"]

/-- The types of the language that have a name in every script. -/
def namedTypes : List TypeDescriptor :=
  [boolType, bytesType, dictType, floatType, intType, listType, objectType, setType, strType,
    tupleType, typeType]

/-- An empty script on top of the names of the language. -/
def standard : Namespace :=
  { empty with
    builtins := .ofList <|
      builtinFunctions.map (fun name ↦ (name, .function (.builtin name))) ++
      namedTypes.map (fun t ↦ (t.name, .type t)) ++
      [(hiddenName, .none), ("__name__", .str "__main__")] }

end Namespace

end LineCompletion
