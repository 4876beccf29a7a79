import LineCompletion.Value.Members
import Mathlib.Data.List.Nodup

/-!
# What a value inherits

The members of a value are found along its ancestors, and every ancestor is met once: those of a
type because the walk keeps what it has seen (`pairwise_ancestors`), those of a type as a value
because the chain of the type of types is joined to its own without the ancestors that it has
already.

**Joining two chains loses nothing that can be found** (`findSome?_distinctTypes`,
`findSome?_ancestors_type`). A type is left out of the second chain only if one of its identity was
in the first, and what it declares was looked through there. This needs types of one identity to be
one type, or something declared by the one that is left out would be lost.

**Two types of one identity are one type** if they are types of the language, by what they are; and
among the others there are no two in one chain, because the walk takes each identity once. So what
is left to ask for is that nothing passes for a type of the language which is none (`Genuine`, and
`GenuineKin` for all that a value is, has or inherits from). A host that declares its types cannot
build any other value (`genuine_mk_declared`), so this is no restriction on what a program meets,
but the type of values would allow it.

Then looking for a member is a matter of its name alone (`member?_eq_some_iff`): the class, an
attribute of the value itself, or what the first ancestor to declare the name declares
(`HasMember`). The relation says which ancestor that is, by what stands before it in the chain.

The names that stand directly on a value are fewer than those it has members of. Both directions of
what is needed to compare the two are here: a name directly on a value is one that it has
(`exists_of_mem_memberNames`), and an attribute of its own has its name there
(`mem_memberNames_of_attribute?`).
-/

namespace LineCompletion

/-! ### Names that are bound -/

namespace Bindings

/-- A name is not found exactly if it is not among the names that are bound. -/
theorem find?_eq_none_iff {α : Type} {name : String} {bindings : List (String × α)} :
    find? name bindings = none ↔ name ∉ names bindings := by
  rw [find?, Option.map_eq_none_iff, List.find?_eq_none, names, List.mem_map]
  simp only [beq_iff_eq, not_exists, not_and]

end Bindings

/-! ### Types of the language -/

namespace TypeDescriptor

/-- What passes for a type of the language is one. -/
def Genuine (t : TypeDescriptor) : Prop := t.isBuiltin = true → t ∈ builtinTypes

/-- A type of the language passes for one rightly. -/
theorem genuine_of_mem_builtinTypes {t : TypeDescriptor} (h : t ∈ builtinTypes) : t.Genuine :=
  fun _ ↦ h

/-- What a host declared does not pass for a type of the language. -/
theorem genuine_mk_declared (name : String) (serial : Nat) (bases : List TypeDescriptor)
    (members : List (String × Value)) (hook : Option Nat) :
    (mk (.declared name serial) bases members hook).Genuine :=
  fun h ↦ absurd h (by simp [isBuiltin, identity])

/-- A type of the language is told apart from all others by its identity. -/
theorem Genuine.eq_of_identity_eq {t b : TypeDescriptor} (h : t.Genuine) (hb : b ∈ builtinTypes)
    (hidentity : t.identity = b.identity) : t = b := by
  have hbuiltin : ∀ u ∈ builtinTypes, u.isBuiltin = true := by decide
  have hnodup : (builtinTypes.map identity).Nodup := by decide
  have ht : t ∈ builtinTypes := h (by
    have hbb := hbuiltin b hb
    rw [isBuiltin] at hbb ⊢
    rwa [hidentity])
  exact List.inj_on_of_nodup_map hnodup ht hb hidentity

/-! ### Each ancestor once -/

/-- The walk visits only types that were not seen before, and never the type of all values. -/
theorem identity_of_mem_walk {seen : List TypeIdentity} {pending : List TypeDescriptor}
    {t : TypeDescriptor} (h : t ∈ walk seen pending) :
    t.identity ∉ seen ∧ t.identity ≠ objectIdentity := by
  fun_induction walk seen pending with
  | case1 => exact absurd h List.not_mem_nil
  | case2 seen u pending hskip ih => exact ih h
  | case3 seen u pending hfresh ih =>
    rcases List.mem_cons.1 h with rfl | h
    · simpa using hfresh
    · exact ⟨fun hseen ↦ (ih h).1 (List.mem_cons_of_mem _ hseen), (ih h).2⟩

/-- **The walk takes each identity once.** -/
theorem pairwise_walk (seen : List TypeIdentity) (pending : List TypeDescriptor) :
    (walk seen pending).Pairwise fun a b ↦ a.identity ≠ b.identity := by
  fun_induction walk seen pending with
  | case1 => exact .nil
  | case2 seen u pending hskip ih => exact ih
  | case3 seen u pending hfresh ih =>
    refine .cons (fun t ht hsame ↦ ?_) ih
    -- What comes later was not seen before, and by then `u` has been.
    exact (identity_of_mem_walk ht).1 (hsame ▸ List.mem_cons_self)

/-- No two ancestors of a type are one. -/
theorem pairwise_ancestors (t : TypeDescriptor) :
    t.ancestors.Pairwise fun a b ↦ a.identity ≠ b.identity := by
  refine List.pairwise_append.2 ⟨pairwise_walk _ _, List.pairwise_singleton _ _, ?_⟩
  intro a ha b hb
  obtain rfl := List.mem_singleton.1 hb
  exact (identity_of_mem_walk ha).2

/-- A type is the first of its ancestors. -/
theorem exists_ancestors_eq_cons {t : TypeDescriptor}
    (h : t.identity = objectIdentity → t = objectType) : ∃ further, t.ancestors = t :: further := by
  by_cases hobject : t.identity = objectIdentity
  · obtain rfl := h hobject
    exact ⟨[], by rw [ancestors, walk, if_pos (by simp [hobject]), walk, List.nil_append]⟩
  · refine ⟨walk [t.identity] (t.bases ++ []) ++ [objectType], ?_⟩
    rw [ancestors, walk, if_neg (by simpa using hobject), List.cons_append]

end TypeDescriptor

/-! ### Chains joined -/

namespace Value

/-- Leaving out a type that came before changes nothing that is looked for along a list of types, if
types of one identity are one type. -/
theorem findSome?_distinctTypes {α : Type} (f : TypeDescriptor → Option α)
    {seen : List TypeIdentity} {ts : List TypeDescriptor}
    (hsame : ts.Pairwise fun a b ↦ a.identity = b.identity → a = b)
    (hseen : ∀ t ∈ ts, t.identity ∈ seen → f t = Option.none) :
    (distinctTypes seen ts).findSome? f = ts.findSome? f := by
  fun_induction distinctTypes seen ts with
  | case1 => rfl
  | case2 seen t rest hskip ih =>
    obtain ⟨-, hrest⟩ := List.pairwise_cons.1 hsame
    rw [ih hrest fun u hu ↦ hseen u (List.mem_cons_of_mem _ hu), List.findSome?_cons,
      hseen t List.mem_cons_self (List.contains_iff_mem.1 hskip)]
  | case3 seen t rest hfresh ih =>
    obtain ⟨hhead, hrest⟩ := List.pairwise_cons.1 hsame
    rw [List.findSome?_cons, List.findSome?_cons]
    cases hf : f t with
    | some found => rfl
    | none =>
      refine ih hrest fun u hu hmem ↦ ?_
      rcases List.mem_cons.1 hmem with heq | hmem
      · exact hhead u hu heq.symm ▸ hf
      · exact hseen u (List.mem_cons_of_mem _ hu) hmem

/-- The type that a value is, or else the one that it has. -/
def nearestType : Value → TypeDescriptor
  | .type t => t
  | v => v.typeOf

/-- No type that a value is, has or inherits from passes for a type of the language without being
one. -/
def GenuineKin (v : Value) : Prop := ∀ t ∈ v.nearestType :: v.nearestType.ancestors, t.Genuine

/-- What is found along the chain of a type, and then along that of the type of types, is found
along the two joined. -/
theorem findSome?_ancestors_type {α : Type} (f : TypeDescriptor → Option α) {t : TypeDescriptor}
    (h : (Value.type t).GenuineKin) :
    (Value.type t).ancestors.findSome? f =
      (t.ancestors.findSome? f).or (typeType.ancestors.findSome? f) := by
  have htypes : ∀ b ∈ typeType.ancestors, b ∈ builtinTypes := by
    intro b hb
    rw [show typeType.ancestors = [typeType, objectType] by
      simp [TypeDescriptor.ancestors, TypeDescriptor.walk, typeType, TypeDescriptor.builtin,
        TypeDescriptor.identity, TypeDescriptor.bases, objectIdentity]] at hb
    simp only [List.mem_cons, List.not_mem_nil, or_false] at hb
    rcases hb with rfl | rfl <;> simp [builtinTypes]
  have hsame : (t.ancestors ++ typeType.ancestors).Pairwise fun a b ↦
      a.identity = b.identity → a = b := by
    refine List.pairwise_append.2 ⟨?_, ?_, fun a ha b hb hidentity ↦ ?_⟩
    · exact t.pairwise_ancestors.imp fun hne heq ↦ absurd heq hne
    · exact typeType.pairwise_ancestors.imp fun hne heq ↦ absurd heq hne
    · exact (h a (List.mem_cons_of_mem _ ha)).eq_of_identity_eq (htypes b hb) hidentity
  show (distinctTypes [] (t.ancestors ++ typeType.ancestors)).findSome? f = _
  rw [findSome?_distinctTypes f hsame fun _ _ hmem ↦ absurd hmem List.not_mem_nil,
    List.findSome?_append]

/-! ### Members -/

/-- An attribute set on the value itself. Only instances have such. -/
def attribute? : Value → String → Option Value
  | .object o, name => Bindings.find? name o.attributes
  | _, _ => Option.none

/-- What a value has under the name of a member. -/
inductive HasMember (v : Value) (name : String) : Value → Prop
  /-- Every value has a class. -/
  | ofClass (h : name = className) : HasMember v name (.type v.typeOf)
  /-- An attribute of its own. -/
  | own {found : Value} (hclass : name ≠ className) (h : v.attribute? name = some found) :
      HasMember v name found
  /-- What the first ancestor to declare the name declares. -/
  | inherited {found : Value} {nearer further : List TypeDescriptor} {t : TypeDescriptor}
      (hclass : name ≠ className) (hown : v.attribute? name = Option.none)
      (hancestors : v.ancestors = nearer ++ t :: further)
      (hnearer : ∀ u ∈ nearer, name ∉ Bindings.names u.members)
      (h : Bindings.find? name t.members = some found) : HasMember v name found

/-- Every value has its class as a member. -/
theorem member?_className (v : Value) : v.member? className = some (.type v.typeOf) := by
  rw [member?.eq_def, if_pos rfl]

/-- Any other member is an attribute of the value itself, or else found along its ancestors. -/
theorem member?_eq {v : Value} (h : v.GenuineKin) {name : String} (hclass : name ≠ className) :
    v.member? name = (v.attribute? name).or
      (v.ancestors.findSome? fun t ↦ Bindings.find? name t.members) := by
  rw [member?.eq_def, if_neg hclass]
  cases v with
  | object o => exact Option.orElse_eq_or
  | type t => exact Option.orElse_eq_or.trans (findSome?_ancestors_type _ h).symm
  | _ => rfl

/-- **Looking for a member finds what the value has.** -/
theorem member?_eq_some_iff {v : Value} (h : v.GenuineKin) {name : String} {found : Value} :
    v.member? name = some found ↔ v.HasMember name found := by
  constructor
  · intro hfound
    by_cases hclass : name = className
    · subst hclass
      obtain rfl := Option.some.inj ((member?_className v).symm.trans hfound)
      exact .ofClass rfl
    rw [member?_eq h hclass] at hfound
    cases hown : v.attribute? name with
    | some own =>
      rw [hown, Option.some_or] at hfound
      exact .own hclass (hown.trans hfound)
    | none =>
      rw [hown, Option.none_or, List.findSome?_eq_some_iff] at hfound
      obtain ⟨nearer, t, further, hancestors, ht, hnearer⟩ := hfound
      exact .inherited hclass hown hancestors
        (fun u hu ↦ Bindings.find?_eq_none_iff.1 (hnearer u hu)) ht
  · rintro (hclass | ⟨hclass, hown⟩ | ⟨hclass, hown, hancestors, hnearer, ht⟩)
    · rw [hclass, member?_className]
    · rw [member?_eq h hclass, hown, Option.some_or]
    · rw [member?_eq h hclass, hown, Option.none_or, List.findSome?_eq_some_iff]
      exact ⟨_, _, _, hancestors, ht, fun u hu ↦ Bindings.find?_eq_none_iff.2 (hnearer u hu)⟩

/-- Which names a value has members of. -/
theorem isSome_member?_iff {v : Value} (h : v.GenuineKin) {name : String} :
    (v.member? name).isSome = true ↔ name = className ∨ v.attribute? name ≠ Option.none ∨
      ∃ t ∈ v.ancestors, name ∈ Bindings.names t.members := by
  by_cases hclass : name = className
  · subst hclass
    simp [member?_className]
  · rw [member?_eq h hclass, or_iff_right hclass, Option.isSome_or, Bool.or_eq_true,
      List.findSome?_isSome_iff]
    simp only [Option.isSome_iff_ne_none, ne_eq, Bindings.find?_eq_none_iff, Classical.not_not]

/-- The type that a value is or has is the first that it inherits from. -/
theorem nearestType_mem_ancestors {v : Value} (h : v.GenuineKin) : v.nearestType ∈ v.ancestors := by
  obtain ⟨further, hancestors⟩ := TypeDescriptor.exists_ancestors_eq_cons
    ((h _ List.mem_cons_self).eq_of_identity_eq (b := objectType) List.mem_cons_self)
  cases v with
  | type t =>
    show t ∈ distinctTypes [] (t.ancestors ++ typeType.ancestors)
    rw [show t.ancestors = t :: further from hancestors, List.cons_append, distinctTypes, if_neg]
    · exact List.mem_cons_self
    · exact Bool.false_ne_true
  | _ =>
    have hmem := hancestors ▸ List.mem_cons_self
    exact hmem

/-- The names directly on a value are attributes of its own, or declared by an ancestor. -/
theorem exists_of_mem_memberNames {v : Value} (h : v.GenuineKin) {name : String}
    (hname : name ∈ v.memberNames) : v.attribute? name ≠ Option.none ∨
      ∃ t ∈ v.ancestors, name ∈ Bindings.names t.members := by
  have hnearest : name ∈ Bindings.names v.nearestType.members →
      ∃ t ∈ v.ancestors, name ∈ Bindings.names t.members :=
    fun hmem ↦ ⟨_, nearestType_mem_ancestors h, hmem⟩
  cases v with
  | object o =>
    rcases List.mem_append.1 (mem_sortedNames.1 hname) with hown | hmem
    · exact .inl fun hnone ↦ Bindings.find?_eq_none_iff.1 hnone hown
    · exact .inr (hnearest hmem)
  | _ => exact .inr (hnearest (mem_sortedNames.1 hname))

/-- An attribute of its own has its name directly on a value. -/
theorem mem_memberNames_of_attribute? {v : Value} {name : String}
    (h : v.attribute? name ≠ Option.none) : name ∈ v.memberNames := by
  cases v with
  | object o =>
    refine mem_sortedNames.2 (List.mem_append_left _ (Classical.byContradiction fun hname ↦ ?_))
    exact h (Bindings.find?_eq_none_iff.2 hname)
  | _ => exact absurd rfl h

end Value

end LineCompletion
