import LineCompletion.Completion.Console
import Mathlib.Logic.Basic
import Mathlib.Logic.Relation

/-!
# Names with a leading underscore

Which members are offered when some of them have a leading underscore. A shading leaves names out,
and where it would leave nothing the next weaker one is tried, round after round (`Widens`). The
rounds end, since a shading has fewer weakenings than the one before it (`wellFounded_widens`), and
what is shown is what the last one leaves (`exists_widensTo_visibleNames`).

**A name is left out in the end just when some shading on the way leaves it out but not all**
(`mem_visibleNames_iff`). This needs shadings to be nested: a weaker one leaves out no more
(`hides_of_mem_weakenings`), so a name that the last one leaves is left by all that might come after
it, and what an earlier one leaves out stays out only if the earlier one left something.

Behind the beginning of a name this comes to a rule about leading underscores alone (`Admitted`,
`mem_visibleNames_ofStart_iff`), which knows of no rounds:

* behind nothing, names without a leading underscore take the place of all others if there are any;
* behind nothing or one underscore, names without two take the place of those with two;
* behind anything else all names are admitted.

The rule is about which of some names are shown, so it is a condition on the names as a whole: one
more name may take the place of others. It says nothing about their order, which is that of the
names given. Something is shown whenever there is anything to show (`visibleNames_eq_nil_iff`).
-/

namespace LineCompletion

/-! ### Rounds of widening -/

namespace Shading

/-- The names that a shading leaves. -/
def left (shading : Shading) (names : List String) : List String :=
  names.filter fun name ↦ !shading.hides name.toList

/-- The next weaker shading, if there is one. -/
def weaker? : Shading → Option Shading
  | .oneUnderscore => some .twoUnderscores
  | .twoUnderscores => some .off
  | .off => none

/-- One round of widening: a shading leaves none of the names, and the next weaker one is tried. -/
def Widens (names : List String) (shading next : Shading) : Prop :=
  shading.left names = [] ∧ shading.weaker? = some next

/-- Widening goes on from one shading to another, and no further. -/
def WidensTo (names : List String) (shading last : Shading) : Prop :=
  Relation.ReflTransGen (Widens names) shading last ∧ ∀ next, ¬ Widens names last next

variable {names : List String} {shading next : Shading}

/-- The weakenings of a shading are itself and those of the next weaker one. -/
theorem weakenings_of_weaker? (h : shading.weaker? = some next) :
    shading.weakenings = shading :: next.weakenings := by
  cases shading <;> cases h <;> rfl

/-- Widening ends: every shading has fewer weakenings than the one before. -/
theorem wellFounded_widens (names : List String) :
    WellFounded fun next shading ↦ Widens names shading next := by
  refine Subrelation.wf (fun {next shading} h ↦ ?_)
    (measure fun s : Shading ↦ s.weakenings.length).wf
  show next.weakenings.length < shading.weakenings.length
  rw [weakenings_of_weaker? h.2, List.length_cons]
  exact Nat.lt_succ_self _

/-- Without shading no name is left out. -/
theorem left_off (names : List String) : off.left names = names :=
  List.filter_eq_self.2 fun _ _ ↦ rfl

/-- A shading leaves the names that it does not hide. -/
theorem mem_left_iff {name : String} :
    name ∈ shading.left names ↔ name ∈ names ∧ shading.hides name.toList = false := by
  rw [left, List.mem_filter, Bool.not_eq_true']

/-- What is shown is what the first weakening leaves that leaves anything. -/
theorem visibleNames_eq (shading : Shading) (names : List String) : shading.visibleNames names =
    ((shading.weakenings.map (·.left names)).find? (!·.isEmpty)).getD [] := rfl

/-- What a shading leaves is shown, if it leaves anything. -/
theorem visibleNames_of_left_ne_nil (h : shading.left names ≠ []) :
    shading.visibleNames names = shading.left names := by
  obtain ⟨weaker, hweaker⟩ : ∃ weaker, shading.weakenings = shading :: weaker := by
    cases shading <;> exact ⟨_, rfl⟩
  rw [visibleNames_eq, hweaker, List.map_cons, List.find?_cons_of_pos (by simpa using h),
    Option.getD_some]

/-- What the shading itself leaves is shown. -/
theorem mem_visibleNames_of_mem_left {name : String} (h : name ∈ shading.left names) :
    name ∈ shading.visibleNames names := by
  rw [visibleNames_of_left_ne_nil (List.ne_nil_of_mem h)]
  exact h

/-- A round of widening does not change what is shown in the end. -/
theorem Widens.visibleNames_eq (h : Widens names shading next) :
    shading.visibleNames names = next.visibleNames names := by
  rw [Shading.visibleNames_eq, weakenings_of_weaker? h.2, List.map_cons,
    List.find?_cons_of_neg (by simp [h.1]), Shading.visibleNames_eq]

/-- A shading is the last one if it leaves something, or if it leaves everything. -/
theorem not_widens_iff :
    (∀ next, ¬ Widens names shading next) ↔ shading.left names ≠ [] ∨ shading = off := by
  constructor
  · intro h
    rw [or_iff_not_imp_left, not_not]
    intro hnil
    cases shading with
    | oneUnderscore => exact absurd ⟨hnil, rfl⟩ (h .twoUnderscores)
    | twoUnderscores => exact absurd ⟨hnil, rfl⟩ (h .off)
    | off => rfl
  · rintro (hsome | rfl) next ⟨hnil, hnext⟩
    · exact hsome hnil
    · exact absurd hnext (by simp [weaker?])

/-- The last shading shows what it leaves. -/
theorem visibleNames_of_not_widens (h : ∀ next, ¬ Widens names shading next) :
    shading.visibleNames names = shading.left names := by
  by_cases hsome : shading.left names = []
  · obtain rfl := (not_widens_iff.1 h).resolve_left (not_not_intro hsome)
    rw [left_off] at hsome ⊢
    rw [hsome]
    rfl
  · exact visibleNames_of_left_ne_nil hsome

/-- **Widening ends with a shading that shows what it leaves.** -/
theorem exists_widensTo_visibleNames (shading : Shading) (names : List String) :
    ∃ last, WidensTo names shading last ∧ shading.visibleNames names = last.left names := by
  induction shading using (wellFounded_widens names).induction with
  | _ shading ih =>
    by_cases hround : ∃ next, Widens names shading next
    · obtain ⟨next, hnext⟩ := hround
      obtain ⟨last, ⟨hrun, hlast⟩, hshown⟩ := ih next hnext
      exact ⟨last, ⟨.head hnext hrun, hlast⟩, hnext.visibleNames_eq.trans hshown⟩
    · rw [not_exists] at hround
      exact ⟨shading, ⟨.refl, hround⟩, visibleNames_of_not_widens hround⟩

/-! ### Which names are shown -/

/-- A weaker shading leaves out no more. -/
theorem hides_of_mem_weakenings {weaker : Shading} (h : weaker ∈ shading.weakenings)
    {name : List Char} (hname : shading.hides name = false) : weaker.hides name = false := by
  have htwo (h : ['_'].isPrefixOf name = false) : ['_', '_'].isPrefixOf name = false := by
    rw [Bool.eq_false_iff, ne_eq, List.isPrefixOf_iff_prefix] at h ⊢
    exact fun hpre ↦ h ((List.prefix_append ['_'] ['_']).trans hpre)
  cases shading <;> simp only [weakenings, List.mem_cons, List.not_mem_nil, or_false] at h
  · rcases h with rfl | rfl | rfl
    · exact hname
    · exact htwo hname
    · rfl
  · rcases h with rfl | rfl
    · exact hname
    · rfl
  · subst h
    rfl

/-- A name is shown unless some shading on the way leaves it out and not all others with it. -/
theorem mem_visibleNames_iff {name : String} :
    name ∈ shading.visibleNames names ↔ name ∈ names ∧
      ∀ weaker ∈ shading.weakenings, weaker.left names ≠ [] → weaker.hides name.toList = false := by
  induction shading using (wellFounded_widens names).induction with
  | _ shading ih =>
    by_cases hround : ∃ next, Widens names shading next
    · obtain ⟨next, hnext⟩ := hround
      rw [hnext.visibleNames_eq, ih next hnext, weakenings_of_weaker? hnext.2, List.forall_mem_cons,
        and_iff_right fun hsome ↦ absurd hnext.1 hsome]
    · rw [not_exists] at hround
      rw [visibleNames_of_not_widens hround, mem_left_iff]
      refine and_congr_right fun hname ↦ ⟨fun hshown _ hweaker _ ↦
        hides_of_mem_weakenings hweaker hshown, fun h ↦ ?_⟩
      rcases not_widens_iff.1 hround with hsome | rfl
      · have hself : shading ∈ shading.weakenings := by cases shading <;> exact List.mem_cons_self
        exact h shading hself hsome
      · rfl

/-- A shading leaves something if it does not hide all names. -/
theorem left_ne_nil_iff :
    shading.left names ≠ [] ↔ ∃ name ∈ names, shading.hides name.toList = false := by
  constructor
  · intro h
    obtain ⟨name, hname⟩ := List.exists_mem_of_ne_nil _ h
    exact ⟨name, mem_left_iff.1 hname⟩
  · rintro ⟨name, hname⟩
    exact List.ne_nil_of_mem (mem_left_iff.2 hname)

end Shading

/-! ### Names that are admitted -/

/-- Which of some names are admitted behind the beginning of a name. Behind nothing, those without a
leading underscore take the place of all others if there are any; behind nothing or an underscore,
those without two take the place of those with two. -/
structure Admitted (Named : String → Prop) (start : List Char) (name : String) : Prop where
  /-- It is one of the names. -/
  named : Named name
  /-- It has no leading underscore, if that can be asked for. -/
  plain : start = [] → (∃ other, Named other ∧ ¬ ['_'] <+: other.toList) → ¬ ['_'] <+: name.toList
  /-- It does not have two, if that can be asked for. -/
  single : start = [] ∨ start = ['_'] →
    (∃ other, Named other ∧ ¬ ['_', '_'] <+: other.toList) → ¬ ['_', '_'] <+: name.toList

namespace Shading

/-- Names with one underscore are left out only behind nothing. -/
theorem oneUnderscore_mem_weakenings_iff {start : List Char} :
    oneUnderscore ∈ (ofStart start).weakenings ↔ start = [] := by
  rw [ofStart.eq_def]
  split
  · simp [weakenings]
  · simp [weakenings]
  · rename_i hnil _
    simpa [weakenings] using hnil

/-- Names with two are left out behind nothing or one. -/
theorem twoUnderscores_mem_weakenings_iff {start : List Char} :
    twoUnderscores ∈ (ofStart start).weakenings ↔ start = [] ∨ start = ['_'] := by
  rw [ofStart.eq_def]
  split
  · simp [weakenings]
  · simp [weakenings]
  · rename_i hnil hone
    simpa [weakenings] using ⟨hnil, hone⟩

/-- **The names shown behind the beginning of a name are those admitted.** -/
theorem mem_visibleNames_ofStart_iff {start : List Char} {names : List String} {name : String} :
    name ∈ (ofStart start).visibleNames names ↔ Admitted (· ∈ names) start name := by
  have hprefix (p s : List Char) : p.isPrefixOf s = false ↔ ¬ p <+: s := by
    rw [Bool.eq_false_iff, ne_eq, List.isPrefixOf_iff_prefix]
  simp only [mem_visibleNames_iff, left_ne_nil_iff]
  constructor
  · rintro ⟨hname, hshown⟩
    refine ⟨hname, fun hstart hplain ↦ ?_, fun hstart hsingle ↦ ?_⟩
    · simp only [← hprefix] at hplain ⊢
      exact hshown .oneUnderscore (oneUnderscore_mem_weakenings_iff.2 hstart) hplain
    · simp only [← hprefix] at hsingle ⊢
      exact hshown .twoUnderscores (twoUnderscores_mem_weakenings_iff.2 hstart) hsingle
  · rintro ⟨hname, hplain, hsingle⟩
    simp only [← hprefix] at hplain hsingle
    refine ⟨hname, fun weaker hweaker hsome ↦ ?_⟩
    cases weaker with
    | oneUnderscore => exact hplain (oneUnderscore_mem_weakenings_iff.1 hweaker) hsome
    | twoUnderscores => exact hsingle (twoUnderscores_mem_weakenings_iff.1 hweaker) hsome
    | off => rfl

/-- Some name is admitted, if there is any. -/
theorem visibleNames_eq_nil_iff {shading : Shading} {names : List String} :
    shading.visibleNames names = [] ↔ names = [] := by
  obtain ⟨last, ⟨-, hlast⟩, hshown⟩ := exists_widensTo_visibleNames shading names
  rw [hshown]
  constructor
  · intro hnil
    obtain rfl := (not_widens_iff.1 hlast).resolve_left (not_not_intro hnil)
    rwa [left_off] at hnil
  · rintro rfl
    rfl

end Shading

end LineCompletion
