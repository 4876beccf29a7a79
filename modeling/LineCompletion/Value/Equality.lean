import LineCompletion.Value.Builtin

/-!
# Equality of keys

When two values are the same key of a mapping or the same member of a set. Truth values equal the
integers zero and one, an integer equals the floating-point number nearest to it, tuples are
compared item by item, and what has an identity is equal to itself alone. Lists, mappings and sets
are never equal to anything; a mapping refuses them as keys.

`keyEq` compares values of two kinds only where there is a line for the two, and takes all others
for different. So a truth value and a floating-point number are never the same key, although both
may be the same key as an integer; and since an integer is rounded before it is compared with a
floating-point number, two integers may be the same key as one such number.

A set is built by adding its values one by one, each unless it equals one that is there
(`ofMembers`). Which of equal values stay is decided by their order, and where equality is not
transitive so is how many.
-/

namespace LineCompletion

namespace Value

mutual

/-- Whether two values are the same key. -/
def keyEq : Value → Value → Bool
  | none, none => true
  | bool a, bool b => a == b
  | int a, int b => a == b
  | float a, float b => a.equals b
  | int a, float b => (Binary64.ofInt a.toInt).equals b
  | float a, int b => (Binary64.ofInt b.toInt).equals a
  | bool a, int b => a.toInt == b.toInt
  | int a, bool b => b.toInt == a.toInt
  | str a, str b => a == b
  | bytes a, bytes b => a == b
  | tuple a, tuple b => keyEqAll a b
  | function a, function b => a == b
  | type a, type b => a.identity == b.identity
  | object a, object b => a.same b
  | _, _ => false

/-- Whether two sequences hold the same keys in the same places. -/
def keyEqAll : List Value → List Value → Bool
  | [], [] => true
  | a :: as, b :: bs => keyEq a b && keyEqAll as bs
  | _, _ => false

end

mutual

/-- Whether a value can be a key. -/
def isHashable : Value → Bool
  | list _ | dict _ | set _ => false
  | tuple items => isHashableAll items
  | _ => true

/-- Whether every one of some values can be a key. -/
def isHashableAll : List Value → Bool
  | [] => true
  | v :: rest => isHashable v && isHashableAll rest

end

/-- Adds a member to others, unless it equals one of them. -/
def addMember (members : List Value) (v : Value) : List Value :=
  if members.any (keyEq · v) then members else members ++ [v]

/-- The set of the given values. Of equal ones the first stays. -/
def ofMembers (values : List Value) : Value := set (values.foldl addMember [])

end Value

end LineCompletion
