import LineCompletion.Proofs.Text.Boundaries
import LineCompletion.Text.Blank
import LineCompletion.Text.Numeric
import Mathlib.Data.List.Chain
import Mathlib.Data.List.TakeWhile

/-!
# Clusters counted across a seam

How many clusters two texts have when the one stands behind the other, and when the second of them
can be deleted by deleting as many clusters as it has. Both are a question about the seam. No
boundary falls on it when its second character is joined to the text before (`joinsTo`), and where
one does fall, clusters are counted as they are on both sides (`count_append`), and deleting the
clusters of the second text leaves the first (`dropLast_append_eq_iff`).

Most characters start nothing that goes on behind them: they are `Inert`. Behind one of those, what
is joined depends on the two classes at the seam alone, and a seam without a boundary costs just one
cluster (`count_concat_append`).

**Why this is asked.** A text that was typed in one order is deleted by the number of clusters that
it has in another order. Whether the right number is deleted, and whether the place where deleting
stops is the right one, hangs on the seams between the parts. So counts are compared seam by seam,
and an iff says at each of them what goes wrong: a cluster too few is counted exactly where two
characters are joined that were not typed side by side.

**How clusters are counted.** `beginnings` counts the clusters that begin in a text behind a
context. It adds up over two texts without any condition (`beginnings_append`), since a cluster
begins where a character is not joined to the context before it. A text on its own is the case of no
context. What is left for `count_append_add` is to compare the second text behind the first with the
second text alone, and these differ in their first character at most, if the seam makes no
difference further on.

**Tables side by side.** That white space, digits and quotes are inert is a statement about tables
with many ranges. Comparing every range of one with every range of another takes too long, so both
are walked along at once (`apart`), which is right for tables in ascending order
(`contains_eq_false_of_apart`).
-/

namespace LineCompletion.Text.Grapheme

/-! ### The context at the end of a text -/

/-- The context at the end of a text, which stands behind another context if there is one. -/
def contextAfter (before : Option Context) (s : List Char) : Option Context :=
  s.foldl (fun before c ↦ some (.after before c)) before

/-- The context behind one character more. -/
theorem contextAfter_concat (before : Option Context) (s : List Char) (c : Char) :
    contextAfter before (s ++ [c]) = some (.after (contextAfter before s) c) := by
  rw [contextAfter, List.foldl_append]
  rfl

/-- Whether a character that comes behind a text belongs to its last cluster. -/
def joinsTo (s : List Char) (c : Char) : Bool := (contextAfter none s).any (·.joins c)

/-! ### Boundaries at a seam -/

/-- The text up to a place is some of the clusters exactly if the character at that place is not
joined. -/
theorem exists_divide_append_iff {context : Context} {s : List Char} {c : Char} (rest : List Char) :
    (∃ left right, (divide context (s ++ c :: rest)).2 = left ++ right ∧
      (divide context (s ++ c :: rest)).1 ++ left.flatten = s) ↔
      (contextAfter (some context) s).any (·.joins c) = false := by
  induction s generalizing context with
  | nil =>
    show _ ↔ context.joins c = false
    rw [List.nil_append, divide]
    cases hjoins : context.joins c with
    | true => simp
    | false => exact iff_of_true ⟨[], _, rfl, rfl⟩ rfl
  | cons d s ih =>
    rw [List.cons_append, divide]
    show _ ↔ (contextAfter (some (.after (some context) d)) s).any (·.joins c) = false
    rw [← ih]
    dsimp only
    cases hjoins : context.joins d with
    | true => simp
    | false =>
      -- The character begins a cluster, and that one is the first of those on the left.
      simp only [Bool.false_eq_true, if_false, List.nil_append]
      constructor
      · rintro ⟨left, right, hdivide, hflatten⟩
        obtain - | ⟨cluster, left⟩ := left
        · exact absurd hflatten (by simp)
        · obtain ⟨rfl, hothers⟩ := List.cons.inj hdivide
          exact ⟨left, right, hothers, List.cons.inj hflatten |>.2⟩
      · rintro ⟨left, right, hdivide, hflatten⟩
        exact ⟨_ :: left, right, congrArg _ hdivide, congrArg (d :: ·) hflatten⟩

/-- A text is divided at a seam exactly if what comes behind the seam is not joined. -/
theorem exists_clusters_append_iff {s : List Char} {c : Char} (rest : List Char) :
    (∃ left right, clusters (s ++ c :: rest) = left ++ right ∧ left.flatten = s) ↔
      joinsTo s c = false := by
  cases s with
  | nil => exact iff_of_true ⟨[], _, rfl, rfl⟩ rfl
  | cons d s =>
    show _ ↔ (contextAfter (some (.after none d)) s).any (·.joins c) = false
    rw [← exists_divide_append_iff rest, List.cons_append, clusters]
    constructor
    · rintro ⟨left, right, hclusters, hflatten⟩
      obtain - | ⟨cluster, left⟩ := left
      · exact absurd hflatten (by simp)
      · obtain ⟨rfl, hothers⟩ := List.cons.inj hclusters
        exact ⟨left, right, hothers, List.cons.inj hflatten |>.2⟩
    · rintro ⟨left, right, hdivide, hflatten⟩
      exact ⟨_ :: left, right, congrArg _ hdivide, congrArg (d :: ·) hflatten⟩

/-- **A text can be deleted by its clusters** from behind another exactly if it begins at a
boundary: as many clusters as it has then make it up. -/
theorem dropLast_append_eq_iff {s : List Char} (hs : s ≠ []) (n : Nat) (c : Char)
    (rest : List Char) :
    dropLast n (s ++ c :: rest) = s ↔ joinsTo s c = false ∧ n = count (c :: rest) := by
  rw [← exists_clusters_append_iff rest]
  have hright {left right : List (List Char)}
      (hclusters : clusters (s ++ c :: rest) = left ++ right) (hleft : left.flatten = s) :
      right.flatten = c :: rest := by
    have hflatten := congrArg List.flatten hclusters
    rw [clusters_flatten, List.flatten_append, hleft] at hflatten
    exact (List.append_cancel_left hflatten).symm
  constructor
  · intro h
    have hsplit := (List.take_append_drop ((clusters (s ++ c :: rest)).length - n)
      (clusters (s ++ c :: rest))).symm
    refine ⟨⟨_, _, hsplit, h⟩, ?_⟩
    have hcount := clusters_flatten_of_append hsplit
    rw [hright hsplit h] at hcount
    -- Something is left, so fewer clusters than all of them were deleted.
    have hlength : (clusters (s ++ c :: rest)).length - n ≠ 0 := fun hzero ↦ by
      rw [dropLast] at h
      simp only [hzero, List.take_zero, List.flatten_nil] at h
      exact hs h.symm
    rw [count, hcount, List.length_drop]
    omega
  · rintro ⟨⟨left, right, hclusters, hleft⟩, rfl⟩
    have hdrop := dropLast_count hclusters
    rwa [hright hclusters hleft, hleft] at hdrop

/-! ### Counts at a seam -/

/-- How many clusters begin in a text that stands behind a context. -/
def beginnings : Option Context → List Char → Nat
  | none, s => count s
  | some context, s => (divide context s).2.length

/-- A cluster begins with a character that is not joined to the context before it. -/
theorem beginnings_cons (before : Option Context) (c : Char) (s : List Char) :
    beginnings before (c :: s) =
      (if before.any (·.joins c) then 0 else 1) + beginnings (some (.after before c)) s := by
  cases before with
  | none => exact Nat.add_comm _ 1
  | some context =>
    show (divide context (c :: s)).2.length =
      (if context.joins c then 0 else 1) + (divide (.after (some context) c) s).2.length
    rw [divide]
    dsimp only
    split
    · rw [Nat.zero_add]
    · exact Nat.add_comm _ 1

/-- Beginnings add up, when those in the second text are counted behind the first. -/
theorem beginnings_append (before : Option Context) (s t : List Char) :
    beginnings before (s ++ t) = beginnings before s + beginnings (contextAfter before s) t := by
  induction s generalizing before with
  | nil =>
    have hnil : beginnings before [] = 0 := by cases before <;> rfl
    rw [List.nil_append, hnil, Nat.zero_add]
    rfl
  | cons c s ih =>
    rw [List.cons_append, beginnings_cons, beginnings_cons, ih, Nat.add_assoc]
    rfl

/-- Where a seam makes no difference to what goes on behind it, at most one cluster is lost there,
and that only when no boundary falls on it. -/
theorem count_append_add {s t : List Char}
    (h : ∀ context ∈ contextAfter none s, ∀ c ∈ t.head?,
      Context.after (some context) c = Context.after none c) :
    count (s ++ t) + (t.head?.any (joinsTo s)).toNat = count s + count t := by
  have happend : count (s ++ t) = count s + beginnings (contextAfter none s) t :=
    beginnings_append none s t
  rw [happend, Nat.add_assoc, Nat.add_left_cancel_iff]
  obtain - | ⟨c, t⟩ := t
  · cases contextAfter none s <;> rfl
  · have hafter : Context.after (contextAfter none s) c = Context.after none c := by
      cases hcontext : contextAfter none s with
      | none => rfl
      | some context => exact h context hcontext c rfl
    have halone : count (c :: t) = 1 + beginnings (some (.after none c)) t :=
      beginnings_cons none c t
    rw [beginnings_cons, hafter, halone]
    show _ + (joinsTo s c).toNat = _
    rw [joinsTo]
    cases (contextAfter none s).any (·.joins c) with
    | true =>
      show 0 + _ + 1 = _
      omega
    | false => rfl

/-- **Clusters are counted on both sides of a boundary.** -/
theorem count_append {s t : List Char} (h : ∀ c ∈ t.head?, joinsTo s c = false) :
    count (s ++ t) = count s + count t := by
  have hquiet {context : Context} (hcontext : contextAfter none s = some context) :
      context.Quiet := by
    rcases List.eq_nil_or_concat s with rfl | ⟨s, c, rfl⟩
    · exact absurd hcontext (by simp [contextAfter])
    · rw [List.concat_eq_append, contextAfter_concat] at hcontext
      exact Option.some.inj hcontext ▸ quiet_after _ c
  have hadd : count (s ++ t) + (t.head?.any (joinsTo s)).toNat = count s + count t := by
    refine count_append_add fun context hcontext c hc ↦
      Context.after_some_eq (hquiet hcontext) ?_
    have hjoins := h c hc
    rwa [joinsTo, hcontext] at hjoins
  have hnone : t.head?.any (joinsTo s) = false := by
    cases hhead : t.head? with
    | none => rfl
    | some c => exact h c hhead
  rwa [hnone] at hadd

/-! ### Tables walked side by side -/

/-- A table in ascending order. -/
def Ascending (s : CharSet) : Prop := s.ranges.IsChain fun r q ↦ r.1 ≤ q.1

instance (s : CharSet) : Decidable (Ascending s) :=
  inferInstanceAs (Decidable (s.ranges.IsChain fun r q ↦ r.1 ≤ q.1))

/-- Whether no range of one ascending list meets a range of another, found in one walk along both.
-/
def apart : List (Nat × Nat) → List (Nat × Nat) → Bool
  | [], _ => true
  | r :: rs, qs =>
    let later := qs.dropWhile fun q ↦ q.2 < r.1
    later.head?.all (fun q ↦ r.2 < q.1) && apart rs later

/-- The ranges of lists that the walk finds apart do not meet. -/
theorem lt_or_lt_of_apart {rs qs : List (Nat × Nat)} (hrs : rs.Pairwise fun r q ↦ r.1 ≤ q.1)
    (hqs : qs.Pairwise fun r q ↦ r.1 ≤ q.1) (h : apart rs qs = true) :
    ∀ r ∈ rs, ∀ q ∈ qs, r.2 < q.1 ∨ q.2 < r.1 := by
  induction rs generalizing qs with
  | nil => simp
  | cons r rs ih =>
    rw [apart, Bool.and_eq_true] at h
    obtain ⟨hhead, hrest⟩ := h
    obtain ⟨hfirst, hrs⟩ := List.pairwise_cons.1 hrs
    have hlater : (qs.dropWhile fun q ↦ q.2 < r.1).Pairwise fun r q ↦ r.1 ≤ q.1 :=
      hqs.sublist (List.dropWhile_sublist _)
    intro r' hr' q hq
    have hle : r.1 ≤ r'.1 := by
      rcases List.mem_cons.1 hr' with rfl | hmem
      · exact Nat.le_refl _
      · exact hfirst r' hmem
    -- What was passed by ends before this range and all that come after it.
    rw [← List.takeWhile_append_dropWhile (p := fun q : Nat × Nat ↦ decide (q.2 < r.1)) (l := qs),
      List.mem_append] at hq
    rcases hq with hq | hq
    · have hlt := List.mem_takeWhile_imp hq
      rw [decide_eq_true_eq] at hlt
      exact .inr (by omega)
    · rcases List.mem_cons.1 hr' with rfl | hmem
      · rcases hdrop : qs.dropWhile fun q ↦ q.2 < r'.1 with - | ⟨first, later⟩ <;>
          rw [hdrop] at hq hhead hlater
        · exact absurd hq List.not_mem_nil
        · have hlt : r'.2 < first.1 := by simpa using hhead
          rcases List.mem_cons.1 hq with rfl | hq
          · exact .inl hlt
          · exact .inl (Nat.lt_of_lt_of_le hlt ((List.pairwise_cons.1 hlater).1 q hq))
      · exact ih hrs hlater hrest r' hmem q hq

/-- A character of one table is in no other that is apart from it. -/
theorem contains_eq_false_of_apart {s t : CharSet} (hs : Ascending s) (ht : Ascending t)
    (h : apart s.ranges t.ranges = true) {c : Char} (hc : s.contains c = true) :
    t.contains c = false := by
  let le (r q : Nat × Nat) : Prop := r.1 ≤ q.1
  have htrans : Trans le le le := ⟨Nat.le_trans⟩
  have hpairwise {s : CharSet} (h : Ascending s) : s.ranges.Pairwise fun r q ↦ r.1 ≤ q.1 :=
    List.isChain_iff_pairwise.1 h
  exact CharSet.contains_eq_false (lt_or_lt_of_apart (hpairwise hs) (hpairwise ht) h) hc

/-! ### Inert characters -/

/-- A character behind which nothing is under way. -/
def Inert (c : Char) : Prop :=
  (breakClass c ≠ .extend ∧ breakClass c ≠ .joiner ∧ breakClass c ≠ .regional) ∧
    isPictograph c = false ∧ isConjunctConsonant c = false

instance (c : Char) : Decidable (Inert c) := inferInstanceAs (Decidable (_ ∧ _))

/-- Behind an inert character the context is its class alone. -/
theorem Inert.after_eq {c : Char} (h : Inert c) (before : Option Context) :
    Context.after before c = ⟨breakClass c, .none, .none, false⟩ := by
  obtain ⟨⟨hextend, hjoiner, hregional⟩, hpicture, hconsonant⟩ := h
  have hlinker : isConjunctLinker c = false := Bool.eq_false_iff.2 fun hlinker ↦
    hextend (breakClass_of_isConjunctLinker hlinker)
  have hextends : Context.after.extendsConjunct c = false := by
    simp [Context.after.extendsConjunct, hextend, hjoiner]
  rw [Context.after, Context.mk.injEq]
  refine ⟨rfl, ?_, ?_, by simp [hregional]⟩
  · rw [if_neg (by rw [hpicture]; simp)]
    split
    · exact absurd ‹breakClass c = .extend› hextend
    · exact absurd ‹breakClass c = .joiner› hjoiner
    · rfl
  · rw [if_neg (by rw [hconsonant]; simp), hlinker, hextends]
    split <;> rfl

/-- The classes that are not joined to anything without a class of its own, on either side. -/
def BreakClass.isLoose (k : BreakClass) : Bool := k.isControl || k = .other

/-- A loose class is not joined to one that joins nothing. -/
theorem joinsClasses_other_left {k : BreakClass} (h : k.isLoose = true) :
    joinsClasses .other k = false := by
  cases k <;> first | rfl | exact absurd h (by decide)

/-- Nothing that joins nothing is joined to a loose class. -/
theorem joinsClasses_other_right {k : BreakClass} (h : k.isLoose = true) :
    joinsClasses k .other = false := by
  cases k <;> first | rfl | exact absurd h (by decide)

/-- The tables of characters that have a class of their own, apart from controls. -/
def classTables : List CharSet := [extendingMarks, skinTones, regionalIndicators, prepended,
  spacingMarks, leadingJamo, vowelJamo, trailingJamo, hangulSyllables]

/-- What is in none of the tables has a loose class, if it is not the joiner. -/
theorem isLoose_of_not_contains {c : Char} (hjoiner : c ≠ zeroWidthJoiner)
    (h : ∀ t ∈ classTables, t.contains c = false) : (breakClass c).isLoose = true := by
  rw [classTables] at h
  iterate 9 rw [List.forall_mem_cons] at h
  obtain ⟨hextending, hskin, hregional, hprepended, hspacing, hleading, hvowel, htrailing,
    hhangul, -⟩ := h
  rw [breakClass]
  by_cases hreturn : (c == '\r') = true
  · rw [if_pos hreturn]
    rfl
  by_cases hfeed : (c == '\n') = true
  · rw [if_neg hreturn, if_pos hfeed]
    rfl
  by_cases hcontrol : controls.contains c = true
  · rw [if_neg hreturn, if_neg hfeed, if_pos hcontrol]
    rfl
  rw [if_neg hreturn, if_neg hfeed, if_neg hcontrol]
  by_cases hlatin : c.toNat < 0x300
  · rw [if_pos hlatin]
    rfl
  · rw [if_neg hlatin, if_neg (by simpa using hjoiner), isExtending, hextending, hskin, hregional,
      hprepended, hspacing, hleading, hvowel, htrailing, hhangul]
    rfl

/-- The tables are in ascending order. -/
theorem ascending_of_mem {t : CharSet}
    (h : t ∈ controls :: pictographs :: conjunctConsonants :: classTables) : Ascending t := by
  have hall : ∀ t ∈ controls :: pictographs :: conjunctConsonants :: classTables, Ascending t := by
    decide +kernel
  exact hall t h

section Blank

variable {c : Char} (h : isBlank c = true)

include h

/-- White space is control, or has no class of its own. -/
theorem isLoose_of_isBlank : (breakClass c).isLoose = true := by
  have hapart : ∀ t ∈ classTables, apart blanks.ranges t.ranges = true := by decide +kernel
  refine isLoose_of_not_contains ?_ fun t ht ↦ contains_eq_false_of_apart (by decide)
    (ascending_of_mem (by simp [ht])) (hapart t ht) h
  rintro rfl
  exact absurd h (by decide)

/-- White space is inert. -/
theorem inert_of_isBlank : Inert c := by
  have hapart : apart blanks.ranges pictographs.ranges = true ∧
      apart blanks.ranges conjunctConsonants.ranges = true := by decide +kernel
  refine ⟨?_, contains_eq_false_of_apart (by decide) (ascending_of_mem (by simp)) hapart.1 h,
    contains_eq_false_of_apart (by decide) (ascending_of_mem (by simp)) hapart.2 h⟩
  have hloose := isLoose_of_isBlank h
  refine ⟨?_, ?_, ?_⟩ <;> intro hclass <;> rw [hclass] at hloose <;>
    exact absurd hloose (by decide)

end Blank

/-- What is numeric has no class of its own. -/
theorem breakClass_of_isNumeric {c : Char} (h : isNumeric c = true) : breakClass c = .other := by
  rw [isNumeric] at h
  split at h
  · have hcode : 48 ≤ c.toNat ∧ c.toNat ≤ 57 := Char.isDigit_iff_toNat.1 h
    have hdigits : ∀ n < 10, breakClass (Char.ofNat (48 + n)) = .other := by decide +kernel
    have hdigit := hdigits (c.toNat - 48) (by omega)
    rwa [show 48 + (c.toNat - 48) = c.toNat by omega, Char.ofNat_toNat] at hdigit
  · have hapart : Ascending numericBeyondAscii ∧
        ∀ t ∈ controls :: classTables, apart numericBeyondAscii.ranges t.ranges = true := by
      decide +kernel
    have hnot (t : CharSet) (ht : t ∈ controls :: classTables) : t.contains c = false := by
      refine contains_eq_false_of_apart hapart.1 (ascending_of_mem ?_) (hapart.2 t ht) h
      exact (List.mem_cons.1 ht).elim (fun heq ↦ heq ▸ List.mem_cons_self) fun hmem ↦ by simp [hmem]
    have hjoiner : c ≠ zeroWidthJoiner := by
      rintro rfl
      exact absurd h (by decide +kernel)
    have hloose := isLoose_of_not_contains hjoiner fun t ht ↦ hnot t (List.mem_cons_of_mem _ ht)
    rw [BreakClass.isLoose, Bool.or_eq_true, decide_eq_true_eq] at hloose
    refine hloose.resolve_left fun hcontrol ↦ ?_
    rcases of_isControl_breakClass hcontrol with rfl | rfl | hc
    · exact absurd h (by decide +kernel)
    · exact absurd h (by decide +kernel)
    · rw [hnot controls List.mem_cons_self] at hc
      exact absurd hc (by simp)

/-! ### Seams behind inert characters -/

/-- Where nothing is under way, the two classes at a seam decide. -/
theorem joinsTo_concat {x c : Char} (h : Inert x ∨ Inert c) (s : List Char) :
    joinsTo (s ++ [x]) c = joinsClasses (breakClass x) (breakClass c) := by
  rw [joinsTo, contextAfter_concat]
  show Context.joins _ c = _
  rcases h with h | h
  · rw [h.after_eq, Context.joins]
    simp
  · obtain ⟨⟨-, -, hregional⟩, hpicture, hconsonant⟩ := h
    rw [Context.joins, hpicture, hconsonant]
    simp only [hregional, decide_false, Bool.and_false, Bool.or_false]
    rfl

/-- **Behind an inert character at most one cluster is lost**, if what comes next is joined to it.
-/
theorem count_concat_append {x : Char} (hx : Inert x) (s t : List Char) :
    count (s ++ [x] ++ t) +
        (t.head?.any fun c ↦ joinsClasses (breakClass x) (breakClass c)).toNat =
      count (s ++ [x]) + count t := by
  have hjoins : joinsTo (s ++ [x]) = fun c ↦ joinsClasses (breakClass x) (breakClass c) :=
    funext fun c ↦ joinsTo_concat (.inl hx) s
  rw [← hjoins]
  refine count_append_add fun context hcontext c _ ↦ ?_
  rw [contextAfter_concat, hx.after_eq] at hcontext
  obtain rfl := Option.some.inj hcontext
  rw [Context.after, Context.after]
  simp

/-- Clusters are counted on both sides of a seam between classes that are not joined. -/
theorem count_append_of_classes {s t : List Char}
    (h : ∀ x ∈ s.getLast?, ∀ c ∈ t.head?,
      (Inert x ∨ Inert c) ∧ joinsClasses (breakClass x) (breakClass c) = false) :
    count (s ++ t) = count s + count t := by
  refine count_append fun c hc ↦ ?_
  rcases List.eq_nil_or_concat s with rfl | ⟨s, x, rfl⟩
  · rfl
  · rw [List.concat_eq_append] at h ⊢
    obtain ⟨hinert, hclasses⟩ := h x List.getLast?_concat c hc
    rw [joinsTo_concat hinert, hclasses]

end LineCompletion.Text.Grapheme
