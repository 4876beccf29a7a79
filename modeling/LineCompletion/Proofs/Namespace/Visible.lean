import LineCompletion.Namespace
import LineCompletion.Proofs.Value.Inheritance

/-!
# Names that can be seen

The names that a line can see are those that stand for something, but for the hidden one, each with
what it stands for (`mem_visible_iff`). They come scope by scope, and by name within a scope
(`pairwise_visible`). The two together leave no choice: a name that an earlier scope binds is not
seen again in a later one, and the order is strict, so each name is there once (`ComesBefore.ne`).

**Seen and resolved.** What can be seen is collected from the scopes in one way, and a name is
resolved in another: the collection goes through all three scopes and leaves out what is taken, and
resolution asks one scope after the other. `mem_visible_iff` says that the two agree on every name
and every value. So a name that is offered has the value that evaluating it finds.

**The order.** It is said by numbers and not by a procedure: `depth` counts the scopes in which a
name is looked for in vain, and of two names the one that is found earlier comes first, or the one
that is less if they are found in the same scope. A name is not found in two scopes, so this is a
strict order on what is seen. A list that is ordered in this way and has given members is one list
only.

**The hidden name.** One name of the language is never shown. It is left out here, and a lookup
finds it all the same.
-/

namespace LineCompletion

namespace Bindings

/-- In ordered bindings a name is bound to a value exactly if the pair is among them. -/
theorem find?_eq_some_iff {α : Type} {bindings : List (String × α)} (h : Ordered bindings)
    {name : String} {value : α} : find? name bindings = some value ↔ (name, value) ∈ bindings := by
  induction bindings with
  | nil => simp
  | cons head rest ih =>
    obtain ⟨other, bound⟩ := head
    obtain ⟨hhead, hrest⟩ := List.pairwise_cons.1 h
    rw [find?_cons, List.mem_cons, Prod.mk.injEq]
    split
    · rename_i heq
      subst heq
      -- A name that is bound further on comes after the first one.
      have hnot : (other, value) ∉ rest := fun hmem ↦
        absurd (hhead _ hmem) (String.lt_irrefl other)
      rw [or_iff_left hnot, Option.some.injEq, and_iff_right rfl, eq_comm]
    · rename_i hne
      rw [ih hrest, or_iff_right fun heq ↦ hne heq.1.symm]

end Bindings

namespace Namespace

variable {ns : Namespace} {name : String} {v : Value}

/-! ### Which names -/

/-- A scope shows the names it binds that are not taken. -/
theorem mem_unhidden_iff {taken : List String} {scope : Scope} :
    (name, v) ∈ unhidden taken scope ↔ name ∉ taken ∧ scope.get? name = some v := by
  rw [unhidden, List.mem_filter, Scope.get?, Bindings.find?_eq_some_iff scope.ordered, and_comm,
    Bool.not_eq_true', List.contains_eq_mem, decide_eq_false_iff_not]

/-- What can be seen is what stands for something, but for the hidden name. -/
theorem mem_visible_iff :
    (name, v) ∈ ns.visible ↔ name ≠ hiddenName ∧ ns.get? name = some v := by
  have hlocal : name ∈ Bindings.names ns.locals.bindings ↔ ns.locals.get? name ≠ none := by
    rw [ne_eq, Scope.get?, Bindings.find?_eq_none_iff, not_not]
  have hglobal : name ∈ Bindings.names ns.globals.bindings ↔ ns.globals.get? name ≠ none := by
    rw [ne_eq, Scope.get?, Bindings.find?_eq_none_iff, not_not]
  rw [visible, List.mem_append, List.mem_append, mem_unhidden_iff, mem_unhidden_iff,
    mem_unhidden_iff, get?]
  simp only [List.mem_append, List.mem_cons, List.not_mem_nil, or_false, not_or, hlocal, hglobal]
  -- The first scope that binds the name decides, and the later ones leave it out.
  rcases ns.locals.get? name with - | found
  · rcases ns.globals.get? name with - | found <;> simp
  · simp

/-! ### In which order -/

/-- The scopes in the order in which a name is looked for. -/
def scopes (ns : Namespace) : List Scope := [ns.locals, ns.globals, ns.builtins]

/-- How many scopes a name is looked for in vain before it is found. -/
def depth (ns : Namespace) (name : String) : Nat :=
  (ns.scopes.takeWhile fun scope ↦ (scope.get? name).isNone).length

/-- One name comes before another: it is found in an earlier scope, or in the same one and it is
less. -/
def ComesBefore (ns : Namespace) (a b : String × Value) : Prop :=
  ns.depth a.1 < ns.depth b.1 ∨ ns.depth a.1 = ns.depth b.1 ∧ a.1 < b.1

/-- Of two names in order the one is not the other. -/
theorem ComesBefore.ne {a b : String × Value} (h : ns.ComesBefore a b) : a.1 ≠ b.1 := by
  intro heq
  rcases h with hdepth | ⟨-, hname⟩
  · rw [heq] at hdepth
    exact absurd hdepth (Nat.lt_irrefl _)
  · rw [heq] at hname
    exact absurd hname (String.lt_irrefl _)

/-- Names of one scope keep their order. -/
theorem pairwise_unhidden {n : Nat} {taken : List String} {scope : Scope}
    (hdepth : ∀ b ∈ unhidden taken scope, ns.depth b.1 = n) :
    (unhidden taken scope).Pairwise ns.ComesBefore := by
  have hordered : (unhidden taken scope).Pairwise fun a b ↦ a.1 < b.1 := scope.ordered.filter _
  refine hordered.imp_of_mem fun ha hb hlt ↦ .inr ⟨?_, hlt⟩
  rw [hdepth _ ha, hdepth _ hb]

/-- **Names come scope by scope**, and by name within a scope. -/
theorem pairwise_visible (ns : Namespace) : ns.visible.Pairwise ns.ComesBefore := by
  have hnone {scope : Scope} {name : String} (h : name ∉ Bindings.names scope.bindings) :
      scope.get? name = none := Bindings.find?_eq_none_iff.2 h
  have hlocal : ∀ b ∈ unhidden [hiddenName] ns.locals, ns.depth b.1 = 0 := by
    rintro ⟨name, v⟩ hb
    rw [depth, scopes, List.takeWhile_cons, (mem_unhidden_iff.1 hb).2]
    rfl
  have hglobal : ∀ b ∈ unhidden (hiddenName :: Bindings.names ns.locals.bindings) ns.globals,
      ns.depth b.1 = 1 := by
    rintro ⟨name, v⟩ hb
    obtain ⟨hfree, hbound⟩ := mem_unhidden_iff.1 hb
    rw [List.mem_cons, not_or] at hfree
    rw [depth, scopes, List.takeWhile_cons, hnone hfree.2, List.takeWhile_cons, hbound]
    rfl
  have hbuiltin : ∀ b ∈ unhidden (hiddenName :: Bindings.names ns.locals.bindings ++
      Bindings.names ns.globals.bindings) ns.builtins, ns.depth b.1 = 2 := by
    rintro ⟨name, v⟩ hb
    obtain ⟨hfree, hbound⟩ := mem_unhidden_iff.1 hb
    rw [List.mem_append, List.mem_cons, not_or, not_or] at hfree
    rw [depth, scopes, List.takeWhile_cons, hnone hfree.1.2, List.takeWhile_cons, hnone hfree.2,
      List.takeWhile_cons, hbound]
    rfl
  rw [visible]
  refine List.pairwise_append.2 ⟨List.pairwise_append.2 ⟨pairwise_unhidden hlocal,
    pairwise_unhidden hglobal, fun a ha b hb ↦ .inl ?_⟩, pairwise_unhidden hbuiltin,
    fun a ha b hb ↦ .inl ?_⟩
  · rw [hlocal a ha, hglobal b hb]
    exact Nat.zero_lt_one
  · rw [hbuiltin b hb]
    rcases List.mem_append.1 ha with ha | ha
    · rw [hlocal a ha]
      exact Nat.zero_lt_two
    · rw [hglobal a ha]
      exact Nat.one_lt_two

end Namespace

end LineCompletion
