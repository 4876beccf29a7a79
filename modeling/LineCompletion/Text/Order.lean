/-!
# The order of texts

Texts are sorted by the code points of their characters, the shorter of two texts first where one
continues the other. The order is total (`precedes_total`, `precedes_trans`) and has no ties but
between equal texts (`precedes_antisymm`), so sorting by it gives one result for every arrangement
of the same texts.
-/

namespace LineCompletion.Text

/-- Whether a text comes before another in the order of code points, or is the same. -/
def precedes : List Char → List Char → Bool
  | [], _ => true
  | _ :: _, [] => false
  | a :: s, b :: t => a.toNat < b.toNat || (a == b && precedes s t)

/-- Of two texts one comes before the other or is the same. -/
theorem precedes_total (s t : List Char) : precedes s t || precedes t s := by
  induction s generalizing t with
  | nil => simp [precedes]
  | cons a s ih =>
    cases t with
    | nil => simp [precedes]
    | cons b t =>
      have := ih t
      simp only [precedes, Bool.or_eq_true, Bool.and_eq_true, beq_iff_eq, decide_eq_true_eq] at *
      rcases Nat.lt_trichotomy a.toNat b.toNat with lt | eq | gt
      · exact .inl (.inl lt)
      · obtain rfl := Char.toNat_inj.1 eq
        exact this.imp (fun h ↦ .inr ⟨rfl, h⟩) (fun h ↦ .inr ⟨rfl, h⟩)
      · exact .inr (.inl gt)

/-- The order goes on from one text to the next. -/
theorem precedes_trans {s t u : List Char} (h : precedes s t = true) (h' : precedes t u = true) :
    precedes s u = true := by
  induction s generalizing t u with
  | nil => rfl
  | cons a s ih =>
    cases t with
    | nil => simp [precedes] at h
    | cons b t =>
      cases u with
      | nil => simp [precedes] at h'
      | cons c u =>
        simp only [precedes, Bool.or_eq_true, Bool.and_eq_true, beq_iff_eq,
          decide_eq_true_eq] at *
        rcases h with lt | ⟨rfl, h⟩ <;> rcases h' with lt' | ⟨rfl, h'⟩
        · exact .inl (Nat.lt_trans lt lt')
        · exact .inl lt
        · exact .inl lt'
        · exact .inr ⟨rfl, ih h h'⟩

/-- Only equal texts come before each other. -/
theorem precedes_antisymm {s t : List Char} (h : precedes s t = true) (h' : precedes t s = true) :
    s = t := by
  induction s generalizing t with
  | nil =>
    cases t with
    | nil => rfl
    | cons b t => exact absurd h' (by simp [precedes])
  | cons a s ih =>
    cases t with
    | nil => exact absurd h (by simp [precedes])
    | cons b t =>
      simp only [precedes, Bool.or_eq_true, Bool.and_eq_true, beq_iff_eq, decide_eq_true_eq] at h h'
      rcases h with hlt | ⟨rfl, h⟩ <;> rcases h' with hlt' | ⟨heq, h'⟩
      · omega
      · subst heq
        omega
      · omega
      · rw [ih h h']

/-- Sorted texts are in this order throughout. -/
theorem pairwise_mergeSort_precedes (texts : List (List Char)) :
    (texts.mergeSort precedes).Pairwise fun s t ↦ precedes s t = true :=
  have htrans (s t u : List Char) : precedes s t = true → precedes t u = true →
      precedes s u = true := precedes_trans
  List.pairwise_mergeSort htrans precedes_total texts

end LineCompletion.Text
