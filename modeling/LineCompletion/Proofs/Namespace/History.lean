import LineCompletion.Proofs.Namespace.Visible
import Mathlib.Data.List.Induction

/-!
# Namespaces after a history of changes

A host binds names and unbinds them between two requests. After any such changes a scope holds what
the last change that speaks of a name says about it (`locals_run`, `globals_run`), and the names of
the language are as they were.

Names are hidden in two ways. Resolution asks the scopes one after another; `firstSeen` goes through
all bindings once and leaves out what it has seen. Both come to the same (`visible_eq_firstSeen`,
`mem_visible_iff`), whatever was bound, bound again and unbound before (`visible_run`).

**One step, then all.** A change says what it makes of a name, or nothing (`Change.onLocal`,
`Change.onGlobal`). What one change does to a scope is had from that (`locals_apply`,
`globals_apply`). For a run there is one lemma for anything that is read off a namespace, a local
name, a global one or the builtins (`read_run`): where each change says what it makes of something,
the last one that does has made it so. The two scopes are cases of it.

**Clearing.** When all local names are cleared that speaks of every local name at once, and
unbinding a global name speaks of that one. In both cases what is said of the name is that it is
unbound, which is not the same as nothing being said. This is why `Change.onLocal` and
`Change.onGlobal` have an option in an option.

**What is seen.** `ScopeByScope` says of the names that are seen which part of them comes from which
scope, and each part is ordered and has its members given. Such parts exist for every namespace
(`exists_scopeByScope`), with or without a history. A history adds what the scopes hold.
-/

namespace LineCompletion

namespace Namespace

/-! ### Changes -/

/-- What a host does to a namespace. -/
inductive Change where
  /-- It binds a global name. -/
  | setGlobal (name : String) (value : Value)
  /-- It binds a local name. -/
  | setLocal (name : String) (value : Value)
  /-- It leaves every local name unbound. -/
  | clearLocals
  /-- It leaves a global name unbound. -/
  | removeGlobal (name : String)

namespace Change

/-- The namespace after the change. -/
def apply (ns : Namespace) : Change → Namespace
  | setGlobal name value => ns.setGlobal name value
  | setLocal name value => ns.setLocal name value
  | clearLocals => ns.clearLocals
  | removeGlobal name => ns.removeGlobal name

/-- What the change makes of a local name, if it speaks of it. -/
def onLocal (name : String) : Change → Option (Option Value)
  | setLocal other value => if other = name then some (some value) else none
  | clearLocals => some none
  | _ => none

/-- What the change makes of a global name, if it speaks of it. -/
def onGlobal (name : String) : Change → Option (Option Value)
  | setGlobal other value => if other = name then some (some value) else none
  | removeGlobal other => if other = name then some none else none
  | _ => none

variable (ns : Namespace) (change : Change) (name : String)

/-- A change makes of a local name what it says of it, and otherwise leaves it. -/
theorem locals_apply :
    (change.apply ns).locals.get? name = (change.onLocal name).getD (ns.locals.get? name) := by
  cases change with
  | setLocal other value =>
    refine (Bindings.find?_insert ..).trans ?_
    rw [onLocal]
    split <;> rfl
  | clearLocals | setGlobal | removeGlobal => rfl

/-- A change makes of a global name what it says of it, and otherwise leaves it. -/
theorem globals_apply :
    (change.apply ns).globals.get? name = (change.onGlobal name).getD (ns.globals.get? name) := by
  cases change with
  | setGlobal other value =>
    refine (Bindings.find?_insert ..).trans ?_
    rw [onGlobal]
    split <;> rfl
  | removeGlobal other =>
    refine (Bindings.find?_erase ..).trans ?_
    rw [onGlobal]
    split <;> rfl
  | clearLocals | setLocal => rfl

/-- No change speaks of the names of the language. -/
theorem builtins_apply : (change.apply ns).builtins = ns.builtins := by
  cases change <;> rfl

end Change

/-! ### Histories -/

/-- The namespace after changes, one after another. -/
def run (ns : Namespace) (changes : List Change) : Namespace := changes.foldl Change.apply ns

/-- What the last change that speaks of a local name makes of it. -/
def lastLocal (changes : List Change) (name : String) : Option Value :=
  (changes.reverse.findSome? (·.onLocal name)).getD none

/-- What the last change that speaks of a global name makes of it. -/
def lastGlobal (changes : List Change) (name : String) : Option Value :=
  (changes.reverse.findSome? (·.onGlobal name)).getD none

/-- Where each change says what it makes of something, the last one that does has made it so. -/
theorem read_run {α : Type} (read : Namespace → α) (word : Change → Option α)
    (hstep : ∀ ns change, read (Change.apply ns change) = (word change).getD (read ns))
    (ns : Namespace) (changes : List Change) :
    read (ns.run changes) = (changes.reverse.findSome? word).getD (read ns) := by
  induction changes using List.reverseRecOn with
  | nil => rfl
  | append_singleton changes change ih =>
    rw [run, List.foldl_concat, hstep, List.reverse_concat, List.findSome?_cons]
    cases word change with
    | none => exact ih
    | some => rfl

section Scopes

variable (builtins : Scope) (changes : List Change) (name : String)

/-- **A local name is bound to what the last change that speaks of it says.** -/
theorem locals_run :
    (run ⟨.empty, .empty, builtins⟩ changes).locals.get? name = lastLocal changes name :=
  read_run (·.locals.get? name) (·.onLocal name) (fun ns change ↦ change.locals_apply ns name) ..

/-- **A global name is bound to what the last change that speaks of it says.** -/
theorem globals_run :
    (run ⟨.empty, .empty, builtins⟩ changes).globals.get? name = lastGlobal changes name :=
  read_run (·.globals.get? name) (·.onGlobal name) (fun ns change ↦ change.globals_apply ns name) ..

/-- The names of the language stay as they were. -/
theorem builtins_run : (run ⟨.empty, .empty, builtins⟩ changes).builtins = builtins := by
  have hread := read_run (·.builtins) (fun _ ↦ none)
    (fun ns change ↦ change.builtins_apply ns) ⟨.empty, .empty, builtins⟩ changes
  rwa [List.findSome?_eq_none_iff.2 fun _ _ ↦ rfl] at hread

end Scopes

/-! ### Hiding in one pass -/

/-- The bindings whose names were not seen before, neither among those given nor further ahead. -/
def firstSeen (seen : List String) : List (String × Value) → List (String × Value)
  | [] => []
  | (name, value) :: rest =>
    let others := firstSeen (seen ++ [name]) rest
    if seen.contains name then others else (name, value) :: others

/-- A pass over two lists goes over the second with the names of the first seen. -/
theorem firstSeen_append (seen : List String) (front back : List (String × Value)) :
    firstSeen seen (front ++ back) =
      firstSeen seen front ++ firstSeen (seen ++ Bindings.names front) back := by
  induction front generalizing seen with
  | nil => simp [firstSeen, Bindings.names]
  | cons head rest ih =>
    obtain ⟨name, value⟩ := head
    have hseen : seen ++ [name] ++ Bindings.names rest =
        seen ++ Bindings.names ((name, value) :: rest) := List.append_assoc ..
    rw [List.cons_append, firstSeen, firstSeen, ih, hseen]
    split <;> rfl

/-- Within a scope no name is seen twice, so that only those seen before it are left out. -/
theorem firstSeen_bindings (taken : List String) (scope : Scope) :
    firstSeen taken scope.bindings = unhidden taken scope := by
  rw [unhidden]
  have hnodup := scope.ordered.nodup_names
  generalize scope.bindings = bindings at hnodup
  induction bindings generalizing taken with
  | nil => rfl
  | cons head rest ih =>
    obtain ⟨name, value⟩ := head
    obtain ⟨hnot, hrest⟩ := List.nodup_cons.1 hnodup
    have hothers : (rest.filter fun other ↦ !(taken ++ [name]).contains other.1) =
        rest.filter fun other ↦ !taken.contains other.1 := List.filter_congr fun other hother ↦ by
      have hne : other.1 ≠ name := fun heq ↦ hnot (heq ▸ List.mem_map.2 ⟨other, hother, rfl⟩)
      simp [hne]
    rw [firstSeen, ih _ hrest]
    by_cases htaken : taken.contains name = true
    · rw [if_pos htaken, List.filter_cons_of_neg (by simpa using htaken)]
      exact hothers
    · rw [if_neg htaken, List.filter_cons_of_pos (by simpa using htaken)]
      exact congrArg _ hothers

/-- **One pass over all bindings finds what can be seen.** -/
theorem visible_eq_firstSeen (ns : Namespace) : ns.visible =
    firstSeen [hiddenName] (ns.locals.bindings ++ ns.globals.bindings ++ ns.builtins.bindings) := by
  have hnames : Bindings.names (ns.locals.bindings ++ ns.globals.bindings) =
      Bindings.names ns.locals.bindings ++ Bindings.names ns.globals.bindings := List.map_append
  rw [firstSeen_append, firstSeen_append, firstSeen_bindings, firstSeen_bindings,
    firstSeen_bindings, hnames]
  rfl

/-! ### What is seen after a history -/

/-- Three parts are what is seen of the scopes of a namespace: of each scope the names that no
earlier scope binds, in their order. -/
structure ScopeByScope (ns : Namespace) (locals globals builtins : List (String × Value)) :
    Prop where
  /-- The locals are in order. -/
  locals_ordered : Bindings.Ordered locals
  /-- The globals are in order. -/
  globals_ordered : Bindings.Ordered globals
  /-- The builtins are in order. -/
  builtins_ordered : Bindings.Ordered builtins
  /-- All locals are seen. -/
  mem_locals (name : String) (v : Value) : (name, v) ∈ locals ↔
    name ≠ hiddenName ∧ ns.locals.get? name = some v
  /-- Globals that are not bound locally are seen. -/
  mem_globals (name : String) (v : Value) : (name, v) ∈ globals ↔
    name ≠ hiddenName ∧ ns.locals.get? name = none ∧ ns.globals.get? name = some v
  /-- Builtins that are bound in neither are seen. -/
  mem_builtins (name : String) (v : Value) : (name, v) ∈ builtins ↔
    name ≠ hiddenName ∧ ns.locals.get? name = none ∧ ns.globals.get? name = none ∧
      ns.builtins.get? name = some v

/-- What can be seen comes in three parts, one for each scope. -/
theorem exists_scopeByScope (ns : Namespace) : ∃ locals globals builtins,
    ns.visible = locals ++ globals ++ builtins ∧ ns.ScopeByScope locals globals builtins := by
  have hfree {scope : Scope} {name : String} :
      name ∉ Bindings.names scope.bindings ↔ scope.get? name = none :=
    Bindings.find?_eq_none_iff.symm
  refine ⟨_, _, _, rfl, ?_⟩
  exact {
    locals_ordered := ns.locals.ordered.filter _
    globals_ordered := ns.globals.ordered.filter _
    builtins_ordered := ns.builtins.ordered.filter _
    mem_locals := fun name v ↦ by
      rw [mem_unhidden_iff, List.mem_singleton]
    mem_globals := fun name v ↦ by
      rw [mem_unhidden_iff, List.mem_cons, not_or, hfree, and_assoc]
    mem_builtins := fun name v ↦ by
      rw [mem_unhidden_iff, List.mem_append, List.mem_cons, not_or, not_or, hfree, hfree, and_assoc,
        and_assoc] }

/-- No name is seen twice. -/
theorem nodup_names_visible (ns : Namespace) : (Bindings.names ns.visible).Nodup :=
  List.pairwise_map.2 (ns.pairwise_visible.imp ComesBefore.ne)

/-- **After any history of changes** what is seen is what names resolve to, but for the hidden name:
each name once, scope by scope and in order, as one pass over the scopes finds it. Each scope holds
what the last change that speaks of a name made of it. -/
theorem visible_run (builtins : Scope) (changes : List Change) :
    let ns := run ⟨.empty, .empty, builtins⟩ changes
    (Bindings.names ns.visible).Nodup ∧
    (∀ name v, (name, v) ∈ ns.visible ↔ name ≠ hiddenName ∧ ns.get? name = some v) ∧
    (∃ locals globals rest, ns.visible = locals ++ globals ++ rest ∧
      ns.ScopeByScope locals globals rest) ∧
    ns.visible = firstSeen [hiddenName]
      (ns.locals.bindings ++ ns.globals.bindings ++ ns.builtins.bindings) ∧
    ∀ name, ns.locals.get? name = lastLocal changes name ∧
      ns.globals.get? name = lastGlobal changes name ∧
      ns.builtins.get? name = builtins.get? name := by
  intro ns
  refine ⟨ns.nodup_names_visible, fun _ _ ↦ mem_visible_iff, ns.exists_scopeByScope,
    ns.visible_eq_firstSeen, fun name ↦ ⟨locals_run .., globals_run .., ?_⟩⟩
  rw [show ns.builtins = builtins from builtins_run ..]

end Namespace

end LineCompletion
