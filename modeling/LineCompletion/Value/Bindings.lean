/-!
# Names bound to things

Bindings are a list of names with what they are bound to, kept in the order of the names. `insert`
keeps that order and replaces an earlier binding of the same name (`ordered_insert`), so a name that
is bound is bound once. `find?` is the view: `find?_insert` and `find?_erase` say what each
operation does to it.
-/

namespace LineCompletion

namespace Bindings

variable {α : Type}

/-- Binds a name, in the place its order gives it. -/
def insert (name : String) (value : α) : List (String × α) → List (String × α)
  | [] => [(name, value)]
  | (other, bound) :: rest =>
    if name < other then (name, value) :: (other, bound) :: rest
    else if name = other then (name, value) :: rest
    else (other, bound) :: insert name value rest

/-- What a name is bound to. -/
def find? (name : String) (bindings : List (String × α)) : Option α :=
  (bindings.find? (·.1 == name)).map (·.2)

/-- The bindings without those of a name. -/
def erase (name : String) (bindings : List (String × α)) : List (String × α) :=
  bindings.filter (·.1 != name)

/-- The bindings made in the order given, a later one replacing an earlier one of the same name. -/
def ofList (bindings : List (String × α)) : List (String × α) :=
  bindings.foldl (fun done binding ↦ insert binding.1 binding.2 done) []

/-- The names that are bound. -/
def names (bindings : List (String × α)) : List String := bindings.map (·.1)

/-- The names are in ascending order. -/
def Ordered (bindings : List (String × α)) : Prop := bindings.Pairwise fun a b ↦ a.1 < b.1

/-! ### What a name is bound to -/

@[simp] theorem find?_nil (name : String) : find? name ([] : List (String × α)) = none := rfl

theorem find?_cons (name other : String) (value : α) (rest : List (String × α)) :
    find? name ((other, value) :: rest) = if other = name then some value else find? name rest := by
  by_cases h : other = name <;> simp [find?, h]

theorem find?_insert (bindings : List (String × α)) (name other : String) (value : α) :
    find? other (insert name value bindings) =
      if name = other then some value else find? other bindings := by
  induction bindings with
  | nil => simp [insert, find?_cons]
  | cons head rest ih =>
    obtain ⟨bound, old⟩ := head
    simp only [insert]
    split
    · rw [find?_cons]
    · split
      · rename_i eq
        subst eq
        rw [find?_cons, find?_cons]
        split <;> rfl
      · rename_i ne
        rw [find?_cons, find?_cons, ih]
        by_cases h : bound = other
        · subst h
          simp [ne]
        · simp [h]

theorem find?_erase (bindings : List (String × α)) (name other : String) :
    find? other (erase name bindings) = if name = other then none else find? other bindings := by
  induction bindings with
  | nil => simp [erase]
  | cons head rest ih =>
    obtain ⟨bound, old⟩ := head
    by_cases h : bound = name
    · subst h
      rw [show erase bound ((bound, old) :: rest) = erase bound rest by simp [erase], ih,
        find?_cons]
      split <;> rfl
    · rw [show erase name ((bound, old) :: rest) = (bound, old) :: erase name rest by
        simp [erase, h], find?_cons, find?_cons, ih]
      by_cases eq : bound = other
      · subst eq
        simp [Ne.symm h]
      · simp [eq]

/-! ### The order of names -/

theorem mem_insert {name : String} {value : α} {bindings : List (String × α)} {b : String × α}
    (h : b ∈ insert name value bindings) : b = (name, value) ∨ b ∈ bindings := by
  induction bindings with
  | nil => simpa [insert] using h
  | cons head rest ih =>
    obtain ⟨other, bound⟩ := head
    simp only [insert] at h
    split at h
    · simpa using h
    · split at h
      · rcases List.mem_cons.1 h with rfl | h
        · exact .inl rfl
        · exact .inr (List.mem_cons_of_mem _ h)
      · rcases List.mem_cons.1 h with rfl | h
        · exact .inr List.mem_cons_self
        · exact (ih h).imp_right (List.mem_cons_of_mem _)

theorem ordered_insert {bindings : List (String × α)} (h : Ordered bindings) (name : String)
    (value : α) : Ordered (insert name value bindings) := by
  induction bindings with
  | nil => simp [insert, Ordered]
  | cons head rest ih =>
    obtain ⟨other, bound⟩ := head
    obtain ⟨head_lt, rest_ordered⟩ := List.pairwise_cons.1 h
    simp only [insert]
    split
    · rename_i lt
      refine List.pairwise_cons.2 ⟨fun b hb ↦ ?_, h⟩
      rcases List.mem_cons.1 hb with rfl | hb
      · exact lt
      · exact String.lt_trans lt (head_lt b hb)
    · rename_i not_lt
      split
      · rename_i eq
        subst eq
        exact List.pairwise_cons.2 ⟨head_lt, rest_ordered⟩
      · rename_i ne
        refine List.pairwise_cons.2 ⟨fun b hb ↦ ?_, ih rest_ordered⟩
        rcases mem_insert hb with rfl | hb
        · exact Std.lt_of_le_of_ne (String.not_lt.1 not_lt) (Ne.symm ne)
        · exact head_lt b hb

theorem ordered_erase {bindings : List (String × α)} (h : Ordered bindings) (name : String) :
    Ordered (erase name bindings) :=
  h.filter _

theorem ordered_ofList (bindings : List (String × α)) : Ordered (ofList bindings) := by
  have hfold (done : List (String × α)) (h : Ordered done) :
      Ordered (bindings.foldl (fun done binding ↦ insert binding.1 binding.2 done) done) := by
    induction bindings generalizing done with
    | nil => exact h
    | cons head rest ih => exact ih _ (ordered_insert h _ _)
  exact hfold [] .nil

theorem Ordered.nodup_names {bindings : List (String × α)} (h : Ordered bindings) :
    (names bindings).Nodup :=
  List.pairwise_map.2 <| h.imp fun hlt heq ↦ by
    rw [heq] at hlt
    exact String.lt_irrefl _ hlt

theorem mem_names_insert {name other : String} {value : α} {bindings : List (String × α)} :
    other ∈ names (insert name value bindings) ↔ other = name ∨ other ∈ names bindings := by
  induction bindings with
  | nil => simp [insert, names]
  | cons head rest ih =>
    obtain ⟨bound, old⟩ := head
    simp only [names, insert, List.map_cons, List.mem_cons] at *
    split
    · simp
    · split
      · rename_i eq
        subst eq
        simp
      · rw [List.map_cons, List.mem_cons, ih, or_left_comm]

end Bindings

/-- Names in ascending order, each once. -/
def sortedNames (names : List String) : List String :=
  Bindings.names (Bindings.ofList (names.map fun name ↦ (name, ())))

theorem mem_sortedNames {name : String} {names : List String} :
    name ∈ sortedNames names ↔ name ∈ names := by
  have hfold : ∀ done : List (String × Unit),
      name ∈ Bindings.names ((names.map fun n ↦ (n, ())).foldl
        (fun done binding ↦ Bindings.insert binding.1 binding.2 done) done) ↔
      name ∈ names ∨ name ∈ Bindings.names done := by
    induction names with
    | nil => simp
    | cons head rest ih =>
      intro done
      rw [List.map_cons, List.foldl_cons, ih, Bindings.mem_names_insert, List.mem_cons,
        or_left_comm, or_assoc]
  exact (hfold []).trans (or_iff_left (by simp [Bindings.names]))

theorem nodup_sortedNames (names : List String) : (sortedNames names).Nodup :=
  (Bindings.ordered_ofList _).nodup_names

end LineCompletion
