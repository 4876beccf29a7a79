import LineCompletion.Text.Grapheme

/-!
# Text cut between clusters

A text cut between two of its grapheme clusters is divided as before on both sides
(`clusters_flatten_left`, `clusters_flatten_of_append`). The left side is no question, since the
division never looks ahead; so clusters deleted in two steps are those deleted in one
(`dropLast_dropLast`). On the right side it begins anew, with no context at all, where the whole
text has the context of what comes before; and a boundary is just where that makes no difference
(`Context.after_some_eq`). A character that goes on with what is under way before it is joined to
it, except behind a control, and behind a control nothing is under way (`quiet_after`).

That last fact is one about the tables: no control is a pictograph, or plays a part in a conjunct.

**Why contexts are compared.** The rules for boundaries are local for most characters: two classes
decide. Three of them look further back. A pictograph is joined to another one across marks and a
joiner, a regional indicator to one more but not to two, and a consonant to the one that a conjunct
begins with. The division carries what they need in a `Context`. To cut a text in two is to drop
that context, so what has to be shown is that no rule would have used it, and this is where a
character that is not joined helps: had the context mattered for what comes behind it, the character
would have been joined itself.

**From characters to texts.** `Context.after_some_eq` is about one character. The inductions
`divide_append_flatten` and `clusters_flatten_of_divide` carry it over a text, cluster by cluster,
for the left and for the right side. `Quiet` is the invariant of the second one.

**Tables.** What is needed of the tables of characters comes to a comparison of their ranges, which
is evaluated once for each pair of tables (`isControl_breakClass_of_contains`). No lemma further on
looks into a table.
-/

namespace LineCompletion.Text.Grapheme

/-! ### Controls -/

/-- The classes that join nothing behind them but a line feed. -/
def BreakClass.isControl : BreakClass → Bool
  | .carriageReturn | .lineFeed | .control => true
  | _ => false

/-- A class chosen between two that are not control is not control. -/
theorem isControl_ite {p : Prop} [Decidable p] {a b : BreakClass} (ha : a.isControl = false)
    (hb : b.isControl = false) : (if p then a else b).isControl = false := by
  split <;> assumption

/-- The class of a character is control only for line breaks and for characters in the table of
controls. -/
theorem of_isControl_breakClass {c : Char} (h : (breakClass c).isControl = true) :
    c = '\r' ∨ c = '\n' ∨ controls.contains c = true := by
  by_cases hreturn : c = '\r'
  · exact .inl hreturn
  by_cases hfeed : c = '\n'
  · exact .inr (.inl hfeed)
  by_cases hcontrol : controls.contains c = true
  · exact .inr (.inr hcontrol)
  -- All classes that come later in the list are those of other characters.
  have hother : (breakClass c).isControl = false := by
    rw [breakClass, if_neg (by simpa using hreturn), if_neg (by simpa using hfeed),
      if_neg hcontrol]
    repeat' refine isControl_ite ?_ ?_
    all_goals rfl
  rw [hother] at h
  exact absurd h (by simp)

/-- A set without controls in it. -/
theorem isControl_breakClass_of_contains {s : CharSet} (hreturn : s.contains '\r' = false)
    (hfeed : s.contains '\n' = false)
    (hcontrols : ∀ r ∈ s.ranges, ∀ q ∈ controls.ranges, r.2 < q.1 ∨ q.2 < r.1) {c : Char}
    (h : s.contains c = true) : (breakClass c).isControl = false := by
  refine Bool.eq_false_iff.2 fun hcontrol ↦ ?_
  rcases of_isControl_breakClass hcontrol with rfl | rfl | hc
  · exact absurd h (by rw [hreturn]; simp)
  · exact absurd h (by rw [hfeed]; simp)
  · exact absurd hc (by rw [CharSet.contains_eq_false hcontrols h]; simp)

/-- No pictograph is a control. -/
theorem isControl_of_isPictograph {c : Char} (h : isPictograph c = true) :
    (breakClass c).isControl = false :=
  isControl_breakClass_of_contains (by decide) (by decide) (by decide +kernel) h

/-- No consonant of a conjunct is a control. -/
theorem isControl_of_isConjunctConsonant {c : Char} (h : isConjunctConsonant c = true) :
    (breakClass c).isControl = false :=
  isControl_breakClass_of_contains (by decide) (by decide) (by decide +kernel) h

/-- A linker is a mark that extends the character before it. -/
theorem breakClass_of_isConjunctLinker {c : Char} (h : isConjunctLinker c = true) :
    breakClass c = .extend := by
  have hsingle : ∀ r ∈ conjunctLinkers.ranges,
      r.1 = r.2 ∧ breakClass (Char.ofNat r.1) = .extend := by
    decide +kernel
  obtain ⟨r, hr, hfirst, hlast⟩ := CharSet.contains_iff.1 h
  obtain ⟨heq, hclass⟩ := hsingle r hr
  have hcode : r.1 = c.toNat := by omega
  rwa [hcode, Char.ofNat_toNat] at hclass

/-! ### What is under way -/

/-- Behind a control nothing is under way that a character could go on with. -/
def Context.Quiet (context : Context) : Prop :=
  context.last.isControl = true → context.picture = .none ∧ context.conjunct = .none

theorem not_of_isControl {p : Char → Bool} {c : Char}
    (hp : p c = true → (breakClass c).isControl = false) (h : (breakClass c).isControl = true) :
    p c = false :=
  Bool.eq_false_iff.2 fun hc ↦ by
    rw [hp hc] at h
    exact absurd h (by simp)

/-- **Behind a control nothing is under way**, whatever came before it. -/
theorem quiet_after (before : Option Context) (c : Char) : (Context.after before c).Quiet := by
  intro hcontrol
  have hcontrol : (breakClass c).isControl = true := hcontrol
  have hpictograph : isPictograph c = false := not_of_isControl isControl_of_isPictograph hcontrol
  have hconsonant : isConjunctConsonant c = false :=
    not_of_isControl isControl_of_isConjunctConsonant hcontrol
  have hlinker : isConjunctLinker c = false := not_of_isControl
    (fun h ↦ by rw [breakClass_of_isConjunctLinker h]; rfl) hcontrol
  have hclass : breakClass c ≠ .extend ∧ breakClass c ≠ .joiner := by
    constructor <;> intro h <;> rw [h] at hcontrol <;> exact absurd hcontrol (by decide)
  have hextends : Context.after.extendsConjunct c = false := by
    simp [Context.after.extendsConjunct, hclass]
  constructor
  · simp only [Context.after, hpictograph, Bool.false_eq_true, if_false]
    split
    · exact absurd ‹breakClass c = .extend› hclass.1
    · exact absurd ‹breakClass c = .joiner› hclass.2
    · rfl
  · simp only [Context.after, hconsonant, hlinker, hextends, Bool.false_eq_true, if_false,
      Bool.or_self]
    split <;> rfl

/-- Marks and joiners are joined to everything but controls. -/
theorem joins_of_extend {context : Context} (hcontrol : context.last.isControl = false) {c : Char}
    (hc : breakClass c = .extend ∨ breakClass c = .joiner) : context.joins c = true := by
  have hjoins : joinsClasses context.last (breakClass c) = true := by
    rcases hc with hc | hc <;> rw [hc] <;> cases hlast : context.last <;> rw [hlast] at hcontrol <;>
      first | rfl | exact absurd hcontrol (by decide)
  rw [Context.joins, hjoins]
  rfl

/-- **A boundary is where the text before does not matter.** -/
theorem Context.after_some_eq {context : Context} (hquiet : context.Quiet) {c : Char}
    (h : context.joins c = false) : Context.after (some context) c = Context.after none c := by
  -- A mark that extends something is joined, but for one behind a control.
  have hmark : breakClass c = .extend ∨ breakClass c = .joiner →
      context.picture = .none ∧ context.conjunct = .none := by
    intro hc
    refine hquiet ?_
    cases hcontrol : context.last.isControl with
    | true => rfl
    | false =>
      rw [joins_of_extend hcontrol hc] at h
      exact absurd h (by simp)
  have hextends : Context.after.extendsConjunct c = true → context.conjunct = .none := by
    intro hc
    simp only [Context.after.extendsConjunct, Bool.and_eq_true, Bool.or_eq_true,
      decide_eq_true_eq] at hc
    exact (hmark hc.1).2
  have hlinker : isConjunctLinker c = true → context.conjunct = .none := fun hc ↦
    (hmark (.inl (breakClass_of_isConjunctLinker hc))).2
  have hflag : breakClass c = .regional → context.halfFlag = false := by
    intro hc
    simp only [Context.joins, hc, Bool.or_eq_false_iff] at h
    simpa using h.2
  rw [Context.after, Context.after, Context.mk.injEq]
  refine ⟨rfl, ?_, ?_, ?_⟩
  · cases hclass : breakClass c with
    | extend => simp [(hmark (.inl hclass)).1]
    | joiner => simp [(hmark (.inr hclass)).1]
    | _ => rfl
  · cases hconjunct : context.conjunct with
    | none => simp [hconjunct]
    | _ =>
      have hplain : isConjunctLinker c = false ∧ Context.after.extendsConjunct c = false := by
        rw [hconjunct] at hlinker hextends
        exact ⟨Bool.eq_false_iff.2 fun hc ↦ absurd (hlinker hc) (by simp),
          Bool.eq_false_iff.2 fun hc ↦ absurd (hextends hc) (by simp)⟩
      simp [hconjunct, hplain]
  · by_cases hc : breakClass c = .regional
    · simp [hflag hc]
    · simp [hc]

/-! ### Clusters on the left -/

/-- The clusters up to any of them are those of their own text. -/
theorem divide_append_flatten {context : Context} {s : List Char} {left right : List (List Char)}
    (h : (divide context s).2 = left ++ right) :
    divide context ((divide context s).1 ++ left.flatten) = ((divide context s).1, left) := by
  induction s generalizing context left with
  | nil =>
    obtain ⟨rfl, -⟩ := List.append_eq_nil_iff.1 h.symm
    rfl
  | cons c rest ih =>
    have ih {left : List (List Char)}
        (h : (divide (.after (some context) c) rest).2 = left ++ right) := ih h
    rw [divide] at h ⊢
    cases hjoins : context.joins c with
    | true =>
      rw [hjoins] at h
      show divide context (c :: (_ ++ left.flatten)) = _
      rw [divide, ih h, hjoins]
      rfl
    | false =>
      rw [hjoins] at h
      cases left with
      | nil => rfl
      | cons cluster left =>
        -- The first cluster on the left is the one that `c` begins.
        obtain ⟨rfl, hothers⟩ := List.cons.inj h
        show divide context (c :: (_ ++ left.flatten)) = _
        rw [divide, ih hothers, hjoins]
        rfl

/-- **Text cut between clusters keeps those before the cut.** -/
theorem clusters_flatten_left {s : List Char} {left right : List (List Char)}
    (h : clusters s = left ++ right) : clusters left.flatten = left := by
  cases s with
  | nil =>
    obtain ⟨rfl, -⟩ := List.append_eq_nil_iff.1 h.symm
    rfl
  | cons c rest =>
    cases left with
    | nil => rfl
    | cons cluster left =>
      obtain ⟨rfl, hothers⟩ := List.cons.inj h
      show clusters (c :: (_ ++ left.flatten)) = _
      rw [clusters, divide_append_flatten hothers]

/-- The clusters of what is left after deleting some are the others. -/
theorem clusters_dropLast (n : Nat) (s : List Char) :
    clusters (dropLast n s) = (clusters s).take ((clusters s).length - n) :=
  clusters_flatten_left (List.take_append_drop ..).symm

/-- Clusters deleted in two steps are those deleted in one. -/
theorem dropLast_dropLast (m n : Nat) (s : List Char) :
    dropLast n (dropLast m s) = dropLast (m + n) s := by
  rw [dropLast, clusters_dropLast, List.length_take, List.take_take, dropLast]
  congr 2
  omega

/-! ### Clusters on the right -/

/-- The clusters that follow a context are those of their own text, from any of them on. -/
theorem clusters_flatten_of_divide {context : Context} (hquiet : context.Quiet) {s : List Char}
    {left right : List (List Char)} (h : (divide context s).2 = left ++ right) :
    clusters right.flatten = right := by
  induction s generalizing context left with
  | nil =>
    obtain ⟨-, rfl⟩ := List.append_eq_nil_iff.1 h.symm
    rfl
  | cons c rest ih =>
    have hdivide := divide_flatten (.after (some context) c) rest
    have ih {left : List (List Char)}
        (h : (divide (.after (some context) c) rest).2 = left ++ right) :
        clusters right.flatten = right := ih (quiet_after (some context) c) h
    rw [divide] at h
    cases hjoins : context.joins c with
    | true =>
      rw [hjoins] at h
      exact ih h
    | false =>
      rw [hjoins] at h
      cases left with
      | cons cluster left => exact ih (List.cons.inj h).2
      | nil =>
        -- Here `c` begins the text on the right, and is read as it was before.
        have h : (c :: (divide (.after (some context) c) rest).1) ::
            (divide (.after (some context) c) rest).2 = right := h
        rw [← h, List.flatten_cons, List.cons_append, hdivide, clusters,
          ← Context.after_some_eq hquiet hjoins]

/-- **Text cut between clusters keeps them.** -/
theorem clusters_flatten_of_append {s : List Char} {left right : List (List Char)}
    (h : clusters s = left ++ right) : clusters right.flatten = right := by
  cases s with
  | nil =>
    obtain ⟨-, rfl⟩ := List.append_eq_nil_iff.1 h.symm
    rfl
  | cons c rest =>
    cases left with
    | nil =>
      rw [List.nil_append] at h
      rw [← h, clusters_flatten]
    | cons cluster left =>
      exact clusters_flatten_of_divide (quiet_after none c) (List.cons.inj h).2

/-- Deleting as many clusters as a text has deletes the text, if it begins between two of them. -/
theorem dropLast_count {s : List Char} {left right : List (List Char)}
    (h : clusters s = left ++ right) : dropLast (count right.flatten) s = left.flatten := by
  rw [dropLast, count, clusters_flatten_of_append h, h, List.length_append, Nat.add_sub_cancel,
    List.take_left']
  rfl

end LineCompletion.Text.Grapheme
