import LineCompletion.Completion.Import
import LineCompletion.Completion.Keyword
import LineCompletion.Expression.Evaluation
import LineCompletion.Line.Decomposition
import LineCompletion.Settings
import LineCompletion.Text.Order
import LineCompletion.Value.Flavour

/-!
# Completing lines

What a console offers for the line typed so far. The line is taken apart around the thing being
completed, and one of five ways gives the matches:

* module names in an import statement (`importSuggestions`);
* keys of a mapping (`Console.keyMatches`) and indices of a sequence (`Console.indexMatches`) behind
  an open bracket;
* members of a value behind a dot (`Console.memberMatches`);
* bare names otherwise (`Console.bareMatches`).

Every match becomes the whole line that it would give, so each suggestion replaces the line from its
beginning. Which parts of the typed line are kept in front of a match is decided by the way it is
found and not by the match.

**What may be evaluated.** An expression that seems to hold a call, by its round brackets alone, is
evaluated only when the settings allow calls (`hasCall`, `Console.resolve`). An expression without a
value offers nothing, and so does one that may not be evaluated; the two are not told apart.

**Names with a leading underscore** are left out of members as long as others are left, by a shading
that gives way when it would leave nothing (`Shading`).

A completion returns the buffer too, since one way of completing edits it: a set has no subscripts,
so a bracket typed behind one is replaced by a dot (`Console.mendSetLookup`). All others leave it
alone.
-/

namespace LineCompletion

open Text

/-- All that completion draws on. -/
structure Console where
  /-- What lies behind host functions and hooks. -/
  host : Host
  /-- The names that can be seen. -/
  ns : Namespace
  /-- What gives the value of an expression. -/
  evaluator : Evaluator
  /-- What answers questions about members. -/
  introspector : Introspector
  /-- The modules that can be imported. -/
  modules : Modules
  /-- The words of the language. -/
  keywords : List Keyword
  /-- The settings. -/
  settings : Settings

/-- Whether a text seems to hold a call: a closing round bracket, and an opening one for each that
closes. Brackets inside strings count as well. -/
def hasCall (s : List Char) : Bool := 0 < s.count ')' && s.count ')' ≤ s.count '('

/-! ### Names with a leading underscore -/

/-- Which names with a leading underscore are left out. -/
inductive Shading where
  /-- Those with one underscore or more. -/
  | oneUnderscore
  /-- Those with two underscores or more. -/
  | twoUnderscores
  /-- None. -/
  | off
  deriving DecidableEq, Repr

namespace Shading

/-- The shading for the beginning of a name. -/
def ofStart : List Char → Shading
  | [] => .oneUnderscore
  | ['_'] => .twoUnderscores
  | _ => .off

/-- Whether a name is left out. -/
def hides : Shading → List Char → Bool
  | .oneUnderscore, name => ['_'].isPrefixOf name
  | .twoUnderscores, name => ['_', '_'].isPrefixOf name
  | .off, _ => false

/-- A shading and those weaker than it, each weaker than the one before. -/
def weakenings : Shading → List Shading
  | .oneUnderscore => [.oneUnderscore, .twoUnderscores, .off]
  | .twoUnderscores => [.twoUnderscores, .off]
  | .off => [.off]

/-- The names that are shown: when a shading leaves none, the next weaker one is tried. -/
def visibleNames (shading : Shading) (names : List String) : List String :=
  let shown := shading.weakenings.map fun s ↦ names.filter fun name ↦ !s.hides name.toList
  (shown.find? (!·.isEmpty)).getD []

end Shading

namespace Console

/-- The value of an expression, if it has one and may be evaluated. -/
def resolve (console : Console) (expr : List Char) : Option Value :=
  if hasCall expr && !console.settings.allowCalls then none
  else (console.evaluator (String.ofList expr) console.ns).toOption

/-- A word with the hint for a value. -/
def decorate (console : Console) (word : List Char) (v : Value) : List Char :=
  (v.hint console.host).decorate word console.settings.keyQuote

/-! ### Matches -/

/-- The keywords that start with a text, then the names that can be seen and do. A name that is a
keyword too is offered as the keyword. -/
def bareMatches (console : Console) (start : List Char) : List (List Char) :=
  let keywords := Keyword.startingWith console.keywords start
  let names := console.ns.visible.filter fun (name, _) ↦
    start.isPrefixOf name.toList && !keywords.any (·.word == name)
  keywords.map Keyword.completed ++ names.map fun (name, v) ↦ console.decorate name.toList v

/-- An expression divided at its last dot. -/
def splitLastDot? (expr : List Char) : Option (List Char × List Char) :=
  match expr.reverse.span (· != '.') with
  | (partialName, _ :: base) => some (base.reverse, partialName.reverse)
  | _ => none

/-- The names of all members of a value but the hidden one. -/
def allMemberNames (console : Console) (v : Value) : List String :=
  (sortedNames (console.introspector.memberNames v ++ className ::
    (console.introspector.ancestors v).flatMap fun t ↦ Bindings.names t.members)).filter
    (· != hiddenName)

/-- The members of the value of everything before the last dot. -/
def memberMatches (console : Console) (expr : List Char) : List (List Char) :=
  match splitLastDot? expr with
  | none => []
  | some (base, start) =>
    match console.resolve base with
    | none => []
    | some v =>
      let names := (console.allMemberNames v).filter fun name ↦ start.isPrefixOf name.toList
      let shown := (Shading.ofStart start).visibleNames names
      let decorated := shown.map fun name ↦
        let word := base ++ '.' :: name.toList
        ((console.introspector.member? v name).map (console.decorate word)).getD word
      decorated.mergeSort precedes

/-- The keys of a mapping that are text and start with the fragment. -/
def keyMatches (console : Console) (v : Value) (fragment : List Char) : List (List Char) :=
  ((v.mappingKeys? console.host).getD []).filterMap fun
    | .str key => if fragment.isPrefixOf key.toList then some key.toList else none
    | _ => none

/-- The indices of a sequence whose digits start with the fragment. -/
def indexMatches (console : Console) (v : Value) (fragment : List Char) : List (List Char) :=
  ((List.range ((v.length? console.host).getD 0)).map Number.digits).filter fragment.isPrefixOf

/-! ### Suggestions -/

/-- Replaces what was typed of a lookup by the dot of a member: a set has no subscripts. -/
def mendSetLookup (parts : Decomposition) (buffer : LineBuffer) : LineBuffer :=
  let typed := parts.lookup.text ++ parts.padding ++ parts.fragment
  (buffer.deleteLeft (Grapheme.count typed)).insert ['.']

/-- The matches as suggestions for the whole line, with what comes before and after each. -/
def suggestions (line before : List Char) (found : List (List Char)) (after : List Char) :
    List Suggestion :=
  found.map fun s ↦ Suggestion.replacing line (before ++ s ++ after) s

/-- Completes a lookup in the value of an expression. -/
def completeLookup (console : Console) (line : List Char) (parts : Decomposition)
    (buffer : LineBuffer) : List Suggestion × LineBuffer :=
  match console.resolve parts.expr with
  | none => ([], buffer)
  | some v =>
    match v.flavour console.host with
    | .mapping =>
      -- Padding stays behind the bracket, so a quote that is added comes after it.
      let quote := parts.lookup.quote?.getD console.settings.keyQuote
      let before := parts.pretext ++ parts.expr ++ '[' :: parts.padding ++ [quote]
      (suggestions line before (console.keyMatches v parts.fragment) [quote, ']'], buffer)
    | .sequence =>
      let before := parts.pretext ++ parts.expr ++ parts.lookup.text ++ parts.padding
      (suggestions line before (console.indexMatches v parts.fragment) [']'], buffer)
    | .set => ([], mendSetLookup parts buffer)
    | .unknown => ([], buffer)

/-- Completes a member or a bare name. -/
def completeName (console : Console) (line : List Char) (parts : Decomposition) :
    List Suggestion :=
  let found :=
    -- With no expression left, a quote or a number has made a fragment of what was typed.
    if parts.expr.contains '.' then console.memberMatches parts.expr
    else console.bareMatches (if parts.expr.isEmpty then parts.fragment else parts.expr)
  suggestions line (parts.pretext ++ parts.padding) found []

/-- Completes the line typed so far. -/
def complete (console : Console) : Completer := fun line buffer ↦
  if console.settings.completeImports && isImportStatement (trim line) then
    (importSuggestions line console.modules, buffer)
  else
    let parts := decompose line
    if parts.lookup = .absent then (console.completeName line parts, buffer)
    else console.completeLookup line parts buffer

end Console

end LineCompletion
