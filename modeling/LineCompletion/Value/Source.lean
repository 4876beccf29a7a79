import LineCompletion.Number.FloatText
import LineCompletion.Text.Quoted
import LineCompletion.Text.Utf8
import LineCompletion.Value.Builtin

/-!
# Values as source text

How a value is shown in messages and listings: as the expression that would give it, as far as there
is one. Functions, types and instances have no such expression and are shown between angle brackets.
-/

namespace LineCompletion

namespace Value

/-- Texts with a comma and a space between them. -/
def commaSeparated : List (List Char) → List Char
  | [] => []
  | [s] => s
  | s :: rest => s ++ ',' :: ' ' :: commaSeparated rest

mutual

/-- A value as source text. -/
def source : Value → List Char
  | none => "None".toList
  | bool true => "True".toList
  | bool false => "False".toList
  | int i => Number.signedDigits i.toInt
  | float x => x.text
  | str text => Text.quoted text.toList
  | bytes data => 'b' :: Text.quoted (Text.decodeLossy data)
  | list items => '[' :: commaSeparated (sources items) ++ [']']
  | tuple [item] => '(' :: source item ++ [',', ')']
  | tuple items => '(' :: commaSeparated (sources items) ++ [')']
  | dict pairs => '{' :: commaSeparated (pairSources pairs) ++ ['}']
  | set members => '{' :: commaSeparated (sources members) ++ ['}']
  | function f => "<function ".toList ++ f.name.toList ++ ['>']
  | type t => "<class '".toList ++ t.name.toList ++ ['\'', '>']
  | object o => '<' :: o.type.name.toList ++ " object>".toList

/-- Each of some values as source text. -/
def sources : List Value → List (List Char)
  | [] => []
  | v :: rest => source v :: sources rest

/-- Each pair of a mapping as source text. -/
def pairSources : List (Value × Value) → List (List Char)
  | [] => []
  | (k, v) :: rest => (source k ++ ':' :: ' ' :: source v) :: pairSources rest

end

theorem source_list (items : List Value) :
    (list items).source = '[' :: commaSeparated (sources items) ++ [']'] := rfl

theorem source_singleTuple (v : Value) : (tuple [v]).source = '(' :: v.source ++ [',', ')'] := rfl

/-- Only a single item has a comma after it in round brackets. -/
theorem source_tuple {items : List Value} (h : items.length ≠ 1) :
    (tuple items).source = '(' :: commaSeparated (sources items) ++ [')'] := by
  rcases items with - | ⟨v, - | ⟨w, rest⟩⟩
  · rfl
  · exact absurd rfl h
  · rfl

/-! ### Functions and types in full -/

/-- A function as it is shown among other parts of a program. -/
def functionSummary (f : Function) : List Char := (function f).source

/-- Names as a list of quoted texts. -/
def quotedNames (names : List String) : List Char :=
  '[' :: commaSeparated (names.map fun name ↦ Text.quoted name.toList) ++ [']']

/-- A type with its parts: name, bases, own members, and whether it has a hook of its own. -/
def typeSummary (t : TypeDescriptor) : List Char :=
  "TypeDescriptor \x7b name: ".toList ++ Text.quoted t.name.toList ++
    ", bases: ".toList ++ quotedNames (t.bases.map TypeDescriptor.name) ++
    ", members: ".toList ++ quotedNames (Bindings.names t.members) ++
    ", lookup: ".toList ++ (toString t.hook.isSome).toList ++ " \x7d".toList

end Value

end LineCompletion
