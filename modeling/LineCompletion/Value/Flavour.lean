import LineCompletion.Value.Access

/-!
# What a value is like under subscripts

A value is a mapping, a sequence, a set or none of these by how it behaves, not by the name of its
type. Containers of the language are recognised as they are. Anything else that takes subscripts is
probed: a mapping misses a key that no mapping has, and a sequence is too short for an index that no
sequence reaches. The hint shown after a completed name follows from that.
-/

namespace LineCompletion

/-- How a value behaves under subscripts. -/
inductive Flavour where
  /-- It is looked up by key. -/
  | mapping
  /-- It is looked up by position. -/
  | sequence
  /-- It has members but no subscripts. -/
  | set
  /-- None of these, or it cannot be told. -/
  | unknown
  deriving DecidableEq, Repr

/-- The name of a flavour. -/
def Flavour.name : Flavour → String
  | .mapping => "mapping"
  | .sequence => "sequence"
  | .set => "set"
  | .unknown => "unknown"

/-- A key that no mapping is expected to hold. -/
def probeKey : Value := .str "__Zz_Really-Unlykely-KeY_3.14159"

/-- An index that no sequence reaches. -/
def probeIndex : Value := .int 2305843009213693951

/-- The flavour that two bogus subscripts show. -/
def Flavour.probe (host : Host) (v : Value) : Flavour :=
  match v.lookup host probeKey with
  | .error (.keyNotFound _) => .mapping
  | _ =>
    match v.lookup host probeIndex with
    | .error (.indexOutOfRange _) => .sequence
    | _ => .unknown

/-- The flavour of a value. Only what takes subscripts is probed. -/
def Value.flavour (host : Host) (v : Value) : Flavour :=
  match v with
  | .dict _ => .mapping
  | .list _ | .tuple _ => .sequence
  | .set _ => .set
  | _ => if v.supportsLookup then Flavour.probe host v else .unknown

/-- How a name goes on once it is completed. -/
inductive Hint where
  /-- It is complete. -/
  | done
  /-- With a quoted key in brackets. -/
  | key
  /-- With an index in brackets. -/
  | index
  /-- With arguments. -/
  | call
  /-- With a member. -/
  | member
  deriving DecidableEq, Repr

/-- The hint for a value. -/
def Value.hint (host : Host) (v : Value) : Hint :=
  if v.isScalar then .done
  else match v.flavour host with
    | .mapping => .key
    | .sequence => .index
    | .set => .done
    | .unknown => if v.isCallable then .call else .member

/-- What a hint appends to a name, with the given quote for keys. -/
def Hint.suffix (quote : Char) : Hint → List Char
  | .done => []
  | .key => ['[', quote]
  | .index => ['[']
  | .call => ['(']
  | .member => ['.']

/-- A name with its hint. -/
def Hint.decorate (hint : Hint) (word : List Char) (quote : Char) : List Char :=
  word ++ hint.suffix quote

end LineCompletion
