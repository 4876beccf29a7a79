import LineCompletion.Json.Reader
import LineCompletion.Settings

/-!
# Stored settings

Settings are stored as a JSON object with one member for each. A stored object needs to name only
what it changes: a missing member has its default, and members of other names are passed over. No
member may be given twice, and each has one type. An array of the values, in the order of the
members and cut short where the rest have their defaults, is read as well.

The fields are one family (`Field`): what is written and read of each is a function of the field,
and the name of a field is the one place where it is spelled. A value of another type than its
field's makes the whole text unreadable; nothing is guessed or left out. A quote is a string of one
character, which may be written with an escape.

The text that is written has no white space and names every field, in the order of `Field.all`.
-/

namespace LineCompletion

namespace Settings

/-- The settings that are stored. -/
inductive Field where
  /-- Whether calls may be evaluated. -/
  | allowCalls
  /-- Whether import statements are completed. -/
  | completeImports
  /-- The quote for keys. -/
  | keyQuote
  deriving DecidableEq, Repr

namespace Field

/-- The fields in the order in which they are stored. -/
def all : List Field := [.allowCalls, .completeImports, .keyQuote]

/-- The name of a field in an object. -/
def name : Field → String
  | .allowCalls => "allow_eval_of_calls"
  | .completeImports => "complete_imports"
  | .keyQuote => "key_quote"

/-- The field of a name. -/
def ofName? (name : List Char) : Option Field := all.find? (·.name.toList == name)

/-- The value of a field as JSON text. -/
def text (settings : Settings) : Field → List Char
  | .allowCalls => (toString settings.allowCalls).toList
  | .completeImports => (toString settings.completeImports).toList
  | .keyQuote => '"' :: Json.encode [settings.rawQuote] ++ ['"']

/-- The settings with a field set, if the value has its type. -/
def set? (settings : Settings) : Field → Json → Option Settings
  | .allowCalls, .bool b => some { settings with allowCalls := b }
  | .completeImports, .bool b => some { settings with completeImports := b }
  | .keyQuote, .string body =>
    match Json.decode? body with
    | some [c] => some { settings with rawQuote := c }
    | _ => none
  | _, _ => none

end Field

/-! ### Writing -/

/-- The settings as JSON text, without white space. -/
def toJson (settings : Settings) : List Char :=
  '{' :: [','].intercalate (Field.all.map fun f ↦
    '"' :: f.name.toList ++ '"' :: ':' :: f.text settings) ++ ['}']

/-! ### Reading -/

/-- The settings with the members of an object set, none of the given fields once more. -/
def ofMembers? (settings : Settings) (taken : List Field) :
    List (List Char × Json) → Option Settings
  | [] => some settings
  | (body, value) :: rest =>
    match Json.decode? body with
    | none => none
    | some name =>
      match Field.ofName? name with
      | none => ofMembers? settings taken rest
      | some field =>
        if taken.contains field then none
        else match field.set? settings value with
          | none => none
          | some settings => ofMembers? settings (field :: taken) rest

/-- The settings with the elements of an array set, one for each of the given fields. -/
def ofElements? (settings : Settings) : List Field → List Json → Option Settings
  | _, [] => some settings
  | [], _ :: _ => none
  | field :: fields, value :: rest =>
    match field.set? settings value with
    | none => none
    | some settings => ofElements? settings fields rest

/-- The settings that a JSON value stores. -/
def ofJson? : Json → Option Settings
  | .object members => ofMembers? standard [] members
  | .array elements => ofElements? standard Field.all elements
  | _ => none

/-- The settings that a text stores. -/
def read? (s : List Char) : Option Settings := (Json.read? s).bind ofJson?

end Settings

end LineCompletion
