import LineCompletion.Number.Binary64

/-!
# Values

The values that completion looks into: a small object model standing for the live state of a script
interpreter. Types are values too, and an instance carries its type, so values, types and instances
are defined together.

What only a host program knows is named, not held: a host function and a subscript hook are known by
a number, and a `Host` says what they do. Identity is a number as well. Two functions, types or
instances are the same when their identities are equal.

**A limit of this.** An instance made by calling its type while an expression is evaluated has no
number: evaluating is a function of an expression and a namespace, and there is no supply of numbers
in it. In an interpreter two such instances are two, though nothing in them differs. Here they are
one value, so `Instance.same` takes the second for the first. This shows where both are keys, that
is in subscripts of mappings and in sets, and nowhere else. Instances that are bound in a namespace
have numbers and are told apart.
-/

namespace LineCompletion

/-- What tells a type apart from all others. -/
inductive TypeIdentity where
  /-- A type of the language itself. -/
  | builtin (name : String)
  /-- A type that a host declared. -/
  | declared (name : String) (serial : Nat)
  deriving DecidableEq, Repr

/-- The name of a type. -/
def TypeIdentity.name : TypeIdentity → String
  | .builtin name => name
  | .declared name _ => name

/-- A function, by what tells it apart from all others. -/
inductive Function where
  /-- A function that a host provides. -/
  | host (name : String) (serial : Nat)
  /-- A function of the language itself. -/
  | builtin (name : String)
  /-- A method of a type of the language itself. -/
  | method (owner name : String)
  deriving DecidableEq, Repr

/-- The name of a function. -/
def Function.name : Function → String
  | .host name _ => name
  | .builtin name => name
  | .method _ name => name

mutual

/-- A live value of the scripting language. -/
inductive Value where
  /-- The null value. -/
  | none
  /-- A truth value. -/
  | bool (b : Bool)
  /-- An integer. -/
  | int (i : Int64)
  /-- A floating-point number. -/
  | float (x : Binary64)
  /-- Text. -/
  | str (text : String)
  /-- A byte string. -/
  | bytes (data : List UInt8)
  /-- An ordered sequence that can change. -/
  | list (items : List Value)
  /-- An ordered sequence that cannot change. -/
  | tuple (items : List Value)
  /-- A mapping, in the order its keys were added. -/
  | dict (pairs : List (Value × Value))
  /-- A collection without positions. -/
  | set (members : List Value)
  /-- A function. -/
  | function (f : Function)
  /-- A type. -/
  | type (t : TypeDescriptor)
  /-- An instance of a type. -/
  | object (o : Instance)

/-- A type: its bases in order, its own members by name, and the hook that answers subscripts of its
instances. Bases are part of the descriptor, so no type is among its own ancestors. -/
inductive TypeDescriptor where
  /-- A type from its parts. -/
  | mk (identity : TypeIdentity) (bases : List TypeDescriptor) (members : List (String × Value))
    (hook : Option Nat)

/-- An instance: its type, and its own attributes by name. One made by calling its type has no
serial number, so that two of them are one value here, which in an interpreter they are not. -/
inductive Instance where
  /-- An instance from its parts. -/
  | mk (serial : Option Nat) (type : TypeDescriptor) (attributes : List (String × Value))

end

namespace TypeDescriptor

/-- What tells the type apart. -/
def identity : TypeDescriptor → TypeIdentity
  | mk identity _ _ _ => identity

/-- The types it derives from, in order. -/
def bases : TypeDescriptor → List TypeDescriptor
  | mk _ bases _ _ => bases

/-- What it declares itself. -/
def members : TypeDescriptor → List (String × Value)
  | mk _ _ members _ => members

/-- Its own subscript hook. -/
def hook : TypeDescriptor → Option Nat
  | mk _ _ _ hook => hook

/-- The name of the type. -/
def name (t : TypeDescriptor) : String := t.identity.name

/-- Whether the type belongs to the language itself. -/
def isBuiltin (t : TypeDescriptor) : Bool :=
  match t.identity with
  | .builtin _ => true
  | .declared _ _ => false

end TypeDescriptor

namespace Instance

/-- What tells the instance apart from others of its type. -/
def serial : Instance → Option Nat
  | mk serial _ _ => serial

/-- The type of the instance. -/
def type : Instance → TypeDescriptor
  | mk _ type _ => type

/-- The attributes set on the instance. -/
def attributes : Instance → List (String × Value)
  | mk _ _ attributes => attributes

/-- Whether two instances are one. Those without serial numbers are, if they are of one type: which
call made them is not known. -/
def same (a b : Instance) : Bool := a.serial == b.serial && a.type.identity == b.type.identity

end Instance

instance : Inhabited Value := ⟨.none⟩

end LineCompletion
