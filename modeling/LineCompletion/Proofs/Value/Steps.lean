import LineCompletion.Proofs.Value.Ancestors
import LineCompletion.Proofs.Value.Containers

/-!
# Where steps lead

An expression goes on from a value by members, subscripts and calls. A property that all three hand
on (`KeptBySteps`) is had by everything they lead to from a value that has it. It is a structure
with one field for each kind of step, so that evaluating a chain of steps needs one induction for
any property of that kind.

**From a text they lead to little**: to its characters, to the types of the language, to their
methods, which cannot be run, and to the documentation of the type of all values. Those are the
homely values (`Homely`), and no step leads away from them (`keptBySteps_homely`). In particular no
step from a text comes to a value of the host, nor to anything in a namespace.

That is used to say something of the texts that steps may lead to: what holds of the first text and
of that documentation, and of a character with the text that it comes from, holds of every text
among them. So `Homely` has a property of texts as its parameter. Which steps can be made is not
asked; most of them fail.

What types of the language declare is a closed table, and two lemmas say what matters of it: their
bases belong to the language (`mem_builtinTypes_of_mem_bases`), and what they declare is a method or
that documentation (`mem_members_of_mem_builtinTypes`). Nothing else here looks at the table.
-/

namespace LineCompletion

/-! ### Types of the language -/

namespace TypeDescriptor

/-- Truth values are integers; no other type of the language names a base. -/
theorem mem_builtinTypes_of_mem_bases {t b : TypeDescriptor} (h : t ∈ builtinTypes)
    (hb : b ∈ t.bases) : b ∈ builtinTypes := by
  have hbases : ∀ u ∈ builtinTypes, u.bases = [] ∨ u.bases = [intType] := by
    simp [builtinTypes, bases, objectType, nullType, intType, boolType, floatType, strType,
      bytesType, listType, tupleType, dictType, setType, functionType, typeType, moduleType,
      TypeDescriptor.builtin]
  rcases hbases t h with hnone | hint
  · exact absurd (hnone ▸ hb) List.not_mem_nil
  · obtain rfl := List.mem_singleton.1 (hint ▸ hb)
    simp [builtinTypes]

/-- The ancestors of a type of the language belong to it. -/
theorem mem_builtinTypes_of_mem_ancestors {t u : TypeDescriptor} (h : t ∈ builtinTypes)
    (hu : u ∈ t.ancestors) : u ∈ builtinTypes := by
  rcases List.mem_append.1 hu with hu | hu
  · refine mem_of_mem_walk (fun _ hs _ ↦ mem_builtinTypes_of_mem_bases hs) (fun s hs ↦ ?_) hu
    exact List.mem_singleton.1 hs ▸ h
  · exact List.mem_singleton.1 hu ▸ List.mem_cons_self

/-- What a type of the language declares: methods, and the documentation of the type of all
values. -/
theorem mem_members_of_mem_builtinTypes {t : TypeDescriptor} (h : t ∈ builtinTypes) {name : String}
    {v : Value} (hv : (name, v) ∈ t.members) :
    (∃ owner method, v = .function (.method owner method)) ∨
      v = .str "The base class of the class hierarchy." := by
  have hmethods : ∀ {owner : String} {methods : List String},
      (name, v) ∈ methods.map (fun m ↦ (m, Value.function (.method owner m))) →
      ∃ owner method, v = .function (.method owner method) := by
    intro owner methods hmem
    obtain ⟨m, -, heq⟩ := List.mem_map.1 hmem
    exact ⟨owner, m, (Prod.mk.inj heq).2.symm⟩
  rcases List.mem_cons.1 h with rfl | h
  · rcases Bindings.mem_insert hv with heq | hmem
    · exact .inr (Prod.mk.inj heq).2
    · exact .inl (hmethods hmem)
  · simp only [List.mem_cons, List.not_mem_nil, or_false] at h
    rcases h with rfl | rfl | rfl | rfl | rfl | rfl | rfl | rfl | rfl | rfl | rfl | rfl | rfl
    all_goals exact .inl (hmethods hv)

/-- What is found for a type of the language, along its ancestors too. -/
theorem findMember_of_mem_builtinTypes {t : TypeDescriptor} (h : t ∈ builtinTypes) {name : String}
    {v : Value} (hv : t.findMember name = some v) :
    (∃ owner method, v = .function (.method owner method)) ∨
      v = .str "The base class of the class hierarchy." := by
  obtain ⟨u, hu, hfind⟩ := List.exists_of_findSome?_eq_some hv
  obtain ⟨⟨n, w⟩, hmem, rfl⟩ := Option.map_eq_some_iff.1 hfind
  exact mem_members_of_mem_builtinTypes (mem_builtinTypes_of_mem_ancestors h hu)
    (List.mem_of_find?_eq_some hmem)

end TypeDescriptor

/-! ### Steps -/

namespace Value

/-- A property of values that no step leads away from. -/
structure KeptBySteps (host : Host) (P : Value → Prop) : Prop where
  /-- Members have it. -/
  member {v found : Value} {name : String} : P v → v.member? name = some found → P found
  /-- What is looked up has it. -/
  lookup {v key found : Value} : P v → v.lookup host key = .ok found → P found
  /-- What a call gives has it. -/
  call {v found : Value} {args : List Value} : P v → v.call host args = .ok found → P found

/-- What steps from a text may lead to, with a property of the texts among it. -/
def Homely (P : String → Prop) : Value → Prop
  | .str t => P t
  | .function (.method _ _) => True
  | .type t => t ∈ builtinTypes
  | _ => False

section Homely

variable {P : String → Prop}

/-- What is found for a type of the language is homely. -/
theorem homely_findMember (hdoc : P "The base class of the class hierarchy.") {t : TypeDescriptor}
    (h : t ∈ builtinTypes) {name : String} {v : Value} (hv : t.findMember name = some v) :
    v.Homely P := by
  rcases TypeDescriptor.findMember_of_mem_builtinTypes h hv with ⟨owner, method, rfl⟩ | rfl
  · trivial
  · exact hdoc

/-- **No step leads away from the homely values.** -/
theorem keptBySteps_homely (hdoc : P "The base class of the class hierarchy.")
    (hchar : ∀ t c, P t → c ∈ t.toList → P (String.singleton c)) (host : Host) :
    KeptBySteps host (Homely P) where
  member {v found name} hv hfound := by
    rw [member?.eq_def] at hfound
    split at hfound
    · obtain rfl := Option.some.inj hfound
      cases v with
      | str | function | type => simp [Homely, typeOf, builtinTypes]
      | _ => exact hv.elim
    · cases v with
      | str t => exact homely_findMember hdoc (by simp [builtinTypes, typeOf]) hfound
      | function f => exact homely_findMember hdoc (by simp [builtinTypes, typeOf]) hfound
      | type t =>
        rcases Option.or_eq_some_iff.1 (Option.orElse_eq_or.symm.trans hfound) with
          hfound | ⟨-, hfound⟩
        · exact homely_findMember hdoc hv hfound
        · exact homely_findMember hdoc (by simp [builtinTypes]) hfound
      | _ => exact hv.elim
  lookup {v key found} hv hfound := by
    cases v with
    | str t =>
      obtain ⟨c, hc, rfl⟩ := List.mem_map.1 (mem_of_itemAt hfound)
      exact hchar t c hv hc
    | function | type => exact absurd hfound (by simp [lookup])
    | _ => exact hv.elim
  call {v found args} hv hfound := by
    cases v with
    | str => exact absurd hfound (by simp [call])
    | function f =>
      cases f with
      | method => exact absurd hfound (by simp [call, Function.call])
      | _ => exact hv.elim
    | type t =>
      have hbuiltin : ∀ u ∈ builtinTypes, u.isBuiltin = true := by decide
      rw [call, if_pos (hbuiltin t hv)] at hfound
      exact absurd hfound (by simp)
    | _ => exact hv.elim

end Homely

end Value

end LineCompletion
