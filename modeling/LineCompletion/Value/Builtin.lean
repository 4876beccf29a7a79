import LineCompletion.Value.Basic
import LineCompletion.Value.Bindings

/-!
# The types of the language

The types that values have without a host's help, with the names of their methods. The methods can
be seen but not run. Every method list is in the order of the names, as the members of a type are.
-/

namespace LineCompletion

/-! ### Methods -/

/-- Methods of every value. -/
def objectMethods : List String := [
  "__delattr__", "__dir__", "__eq__", "__format__", "__ge__", "__getattribute__", "__gt__",
  "__hash__", "__init__", "__init_subclass__", "__le__", "__lt__", "__ne__", "__new__",
  "__reduce__", "__reduce_ex__", "__repr__", "__setattr__", "__sizeof__", "__str__",
  "__subclasshook__"]

/-- Methods of the null value. -/
def nullMethods : List String := [
  "__bool__"]

/-- Methods of integers. -/
def intMethods : List String := [
  "__abs__", "__add__", "__index__", "__int__", "as_integer_ratio", "bit_count", "bit_length",
  "conjugate", "from_bytes", "to_bytes"]

/-- Methods of truth values. -/
def boolMethods : List String := [
  "__and__", "__or__", "__xor__"]

/-- Methods of floating-point numbers. -/
def floatMethods : List String := [
  "__abs__", "__add__", "__float__", "as_integer_ratio", "conjugate", "fromhex", "hex",
  "is_integer"]

/-- Methods of text. -/
def strMethods : List String := [
  "__contains__", "__getitem__", "__iter__", "__len__", "capitalize", "casefold", "center",
  "count", "encode", "endswith", "expandtabs", "find", "format", "index", "isalnum", "isalpha",
  "isdigit", "islower", "isnumeric", "isspace", "isupper", "join", "ljust", "lower", "lstrip",
  "partition", "replace", "rfind", "rindex", "rjust", "rsplit", "rstrip", "split", "splitlines",
  "startswith", "strip", "swapcase", "title", "upper", "zfill"]

/-- Methods of byte strings. -/
def bytesMethods : List String := [
  "__contains__", "__getitem__", "__iter__", "__len__", "count", "decode", "endswith", "find",
  "hex", "join", "replace", "split", "startswith", "strip"]

/-- Methods of lists. -/
def listMethods : List String := [
  "__contains__", "__getitem__", "__iter__", "__len__", "append", "clear", "copy", "count",
  "extend", "index", "insert", "pop", "remove", "reverse", "sort"]

/-- Methods of tuples. -/
def tupleMethods : List String := [
  "__contains__", "__getitem__", "__iter__", "__len__", "count", "index"]

/-- Methods of mappings. -/
def dictMethods : List String := [
  "__contains__", "__getitem__", "__iter__", "__len__", "clear", "copy", "fromkeys", "get",
  "items", "keys", "pop", "popitem", "setdefault", "update", "values"]

/-- Methods of sets. -/
def setMethods : List String := [
  "__contains__", "__iter__", "__len__", "add", "clear", "copy", "difference", "discard",
  "intersection", "isdisjoint", "issubset", "issuperset", "pop", "remove",
  "symmetric_difference", "union", "update"]

/-- Methods of functions. -/
def functionMethods : List String := [
  "__call__", "__get__"]

/-- Methods of types. -/
def typeMethods : List String := [
  "__call__", "__instancecheck__", "__prepare__", "__subclasscheck__", "__subclasses__", "mro"]

/-! ### Types -/

/-- A type of the language, with methods that can be seen but not run. -/
def TypeDescriptor.builtin (name : String) (bases : List TypeDescriptor) (methods : List String) :
    TypeDescriptor :=
  .mk (.builtin name) bases (methods.map fun m ↦ (m, .function (.method name m))) none

/-- What tells the type of all values apart. -/
def objectIdentity : TypeIdentity := .builtin "object"

/-- The type that all types derive from. It documents itself; no other type of the language does. -/
def objectType : TypeDescriptor :=
  .mk objectIdentity []
    (Bindings.insert "__doc__" (.str "The base class of the class hierarchy.")
      (objectMethods.map fun m ↦ (m, .function (.method "object" m))))
    none

/-- The type of the null value. -/
def nullType : TypeDescriptor := .builtin "NoneType" [] nullMethods

/-- The type of integers. -/
def intType : TypeDescriptor := .builtin "int" [] intMethods

/-- The type of truth values, which are integers too. -/
def boolType : TypeDescriptor := .builtin "bool" [intType] boolMethods

/-- The type of floating-point numbers. -/
def floatType : TypeDescriptor := .builtin "float" [] floatMethods

/-- The type of text. -/
def strType : TypeDescriptor := .builtin "str" [] strMethods

/-- The type of byte strings. -/
def bytesType : TypeDescriptor := .builtin "bytes" [] bytesMethods

/-- The type of lists. -/
def listType : TypeDescriptor := .builtin "list" [] listMethods

/-- The type of tuples. -/
def tupleType : TypeDescriptor := .builtin "tuple" [] tupleMethods

/-- The type of mappings. -/
def dictType : TypeDescriptor := .builtin "dict" [] dictMethods

/-- The type of sets. -/
def setType : TypeDescriptor := .builtin "set" [] setMethods

/-- The type of functions. -/
def functionType : TypeDescriptor := .builtin "function" [] functionMethods

/-- The type of types. -/
def typeType : TypeDescriptor := .builtin "type" [] typeMethods

/-- The type of modules. -/
def moduleType : TypeDescriptor := .builtin "module" [] []

/-- Every type of the language. -/
def builtinTypes : List TypeDescriptor :=
  [objectType, nullType, intType, boolType, floatType, strType, bytesType, listType, tupleType,
    dictType, setType, functionType, typeType, moduleType]

/-- The type of the language with a given name; any other name stands for the type of all values. -/
def builtinType (name : String) : TypeDescriptor :=
  (builtinTypes.find? (·.name == name)).getD objectType

/-- The type of a value. -/
def Value.typeOf : Value → TypeDescriptor
  | .none => nullType
  | .bool _ => boolType
  | .int _ => intType
  | .float _ => floatType
  | .str _ => strType
  | .bytes _ => bytesType
  | .list _ => listType
  | .tuple _ => tupleType
  | .dict _ => dictType
  | .set _ => setType
  | .function _ => functionType
  | .type _ => typeType
  | .object o => o.type

/-- The name of a value's type. -/
def Value.typeName (v : Value) : String := v.typeOf.name

/-- A module with the given attributes, beside its name and its missing documentation. -/
def Value.module (serial : Nat) (name : String) (attributes : List (String × Value)) : Value :=
  .object (.mk (some serial) moduleType
    (Bindings.ofList (("__name__", .str name) :: ("__doc__", .none) :: attributes)))

end LineCompletion
