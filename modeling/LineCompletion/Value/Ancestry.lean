import LineCompletion.Value.Builtin

/-!
# Ancestors and inherited members

The ancestors of a type in the order in which members are looked for: the type itself, then its
bases depth first from left to right, each type once, and the type of all values at the end. The
walk keeps the types still to visit and the identities of those visited; it ends because the pending
descriptors grow smaller.

The type of all values is skipped wherever the walk meets it and put at the end, so what it declares
is found only if nothing else declares it. A type that is met again is skipped with its bases, which
have been met too.

Members and the subscript hook are looked for along this list, and the first type to have one
decides (`findMember`, `findHook`). What a type declares is smaller than the type, and so is what is
found for it along its ancestors (`exists_sizeOf_le_of_mem_walk`, `sizeOf_lt_of_find?`); functions
that follow members from value to value end by that.
-/

namespace LineCompletion

namespace TypeDescriptor

/-- A list of types joined to another is no larger than the two. -/
theorem sizeOf_append_bases (bases pending : List TypeDescriptor) :
    sizeOf (bases ++ pending) + 1 = sizeOf bases + sizeOf pending := by
  induction bases with
  | nil => simp; omega
  | cons t rest ih => simp only [List.cons_append, List.cons.sizeOf_spec]; omega

/-- The bases of a type are smaller than the type. -/
theorem sizeOf_bases_lt (t : TypeDescriptor) : sizeOf t.bases < sizeOf t := by
  cases t; simp only [bases, mk.sizeOf_spec]; omega

/-- The types met on the way through the pending ones, without those seen before and without the
type of all values. -/
def walk (seen : List TypeIdentity) : List TypeDescriptor → List TypeDescriptor
  | [] => []
  | t :: pending =>
    if seen.contains t.identity || t.identity == objectIdentity then walk seen pending
    else t :: walk (t.identity :: seen) (t.bases ++ pending)
termination_by pending => sizeOf pending
decreasing_by
  · simp only [List.cons.sizeOf_spec]; omega
  · have := sizeOf_append_bases t.bases pending
    have := sizeOf_bases_lt t
    simp only [List.cons.sizeOf_spec]; omega

/-- The type followed by its ancestors, the type of all values last. -/
def ancestors (t : TypeDescriptor) : List TypeDescriptor := walk [] [t] ++ [objectType]

/-- A member that the type or the first of its ancestors to declare it declares. -/
def findMember (t : TypeDescriptor) (name : String) : Option Value :=
  t.ancestors.findSome? fun ancestor ↦ Bindings.find? name ancestor.members

/-- The first subscript hook among the type and its ancestors. -/
def findHook (t : TypeDescriptor) : Option Nat := t.ancestors.findSome? hook

/-! ### Members are smaller than the type that holds them -/

/-- What the walk meets is no larger than what it started from. -/
theorem exists_sizeOf_le_of_mem_walk {seen : List TypeIdentity} {pending : List TypeDescriptor}
    {t : TypeDescriptor} (h : t ∈ walk seen pending) : ∃ u ∈ pending, sizeOf t ≤ sizeOf u := by
  fun_induction walk seen pending with
  | case1 => simp at h
  | case2 seen u pending _ ih =>
    obtain ⟨w, mem, le⟩ := ih h
    exact ⟨w, List.mem_cons_of_mem _ mem, le⟩
  | case3 seen u pending _ ih =>
    rcases List.mem_cons.1 h with rfl | h
    · exact ⟨t, List.mem_cons_self, Nat.le_refl _⟩
    · obtain ⟨w, mem, le⟩ := ih h
      rcases List.mem_append.1 mem with mem | mem
      · have := List.sizeOf_lt_of_mem mem
        have := sizeOf_bases_lt u
        exact ⟨u, List.mem_cons_self, by omega⟩
      · exact ⟨w, List.mem_cons_of_mem _ mem, le⟩

/-- What a type declares is smaller than the type. -/
theorem sizeOf_lt_of_find? {name : String} {v : Value} {t : TypeDescriptor}
    (h : Bindings.find? name t.members = some v) : sizeOf v < sizeOf t := by
  obtain ⟨⟨n, w⟩, found, rfl⟩ := Option.map_eq_some_iff.1 h
  have := List.sizeOf_lt_of_mem (List.mem_of_find?_eq_some found)
  cases t
  simp only [members, mk.sizeOf_spec, Prod.mk.sizeOf_spec] at *
  omega

end TypeDescriptor

end LineCompletion
