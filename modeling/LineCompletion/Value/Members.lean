import LineCompletion.Value.Ancestry
import LineCompletion.Value.Bindings

/-!
# Members of values

Which members a value has and what they are. An instance has its own attributes, and what its type
and the ancestors of its type declare. A type has what it and its ancestors declare, and what the
type of types declares. Every value has a class.

There are two ways to ask, and they are kept apart. `Value.memberNames` and
`Value.ancestors` list names and types, from which the names of all members are collected;
`Value.member?` looks one name up. The chain of the type of types is joined to that of a type
without the types that are in it already (`Value.distinctTypes`), where looking up goes through the
one and then the other.

`Introspector` is what completion asks about members, so a host may answer in its own way;
`Introspector.standard` answers from the value itself.
-/

namespace LineCompletion

/-- The member that names the type of a value. -/
def className : String := "__class__"

namespace Value

/-- The names directly on a value: its own attributes, and what its type itself declares. For a type
they are what it declares. -/
def memberNames : Value → List String
  | .object o => sortedNames (Bindings.names o.attributes ++ Bindings.names o.type.members)
  | .type t => sortedNames (Bindings.names t.members)
  | v => sortedNames (Bindings.names v.typeOf.members)

/-- Types in order, each once. -/
def distinctTypes (seen : List TypeIdentity) : List TypeDescriptor → List TypeDescriptor
  | [] => []
  | t :: rest =>
    if seen.contains t.identity then distinctTypes seen rest
    else t :: distinctTypes (t.identity :: seen) rest

/-- The types whose members a value inherits, nearest first. -/
def ancestors : Value → List TypeDescriptor
  | .type t => distinctTypes [] (t.ancestors ++ typeType.ancestors)
  | v => v.typeOf.ancestors

/-- A member of a value. -/
def member? (v : Value) (name : String) : Option Value :=
  if name = className then some (.type v.typeOf)
  else match v with
    | .object o => Bindings.find? name o.attributes <|> o.type.findMember name
    | .type t => t.findMember name <|> typeType.findMember name
    | v => v.typeOf.findMember name

end Value

/-- What completion asks about the members of a value. -/
structure Introspector where
  /-- The names directly on the value. -/
  memberNames : Value → List String
  /-- The types whose members it inherits. -/
  ancestors : Value → List TypeDescriptor
  /-- One member. -/
  member? : Value → String → Option Value

/-- Answers from the value itself. -/
def Introspector.standard : Introspector := ⟨Value.memberNames, Value.ancestors, Value.member?⟩

end LineCompletion
