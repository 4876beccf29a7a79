import LineCompletion.Proofs.Line.Lookup

/-!
# Where the last expression begins

A text has one place at most at which its last expression can begin, and `lastExpression` finds it
(`lastExpression_divides_once`). The place is said by numbers of brackets, without a walk: from any
place in the expression on there are at least as many closing brackets as opening ones, in all of it
there are equally many, a delimiter stands only where brackets are closed behind it that are open
there, and right before the expression is a delimiter that closes no bracket (`BeginsBehind`).

What ties these numbers to the walk is `isEnclosed`, which counts from the front. It is the same
condition (`isEnclosed_iff`), and the walk back goes just through what is enclosed: it takes that
whole (`lastExpression_append_enclosed`), and what it has taken when it stops is enclosed
(`enclosed_and_delimited_of_splitBackwards`).

**Why there is one place.** Two places would make one expression the end of the other. Right before
the shorter one stands a delimiter that closes no bracket. In the longer one such a delimiter may
stand only where brackets are closed behind it, but behind it is the shorter one, which closes no
more than it opens. The proof does not go this way: the walk back finds whatever place there is
(`BeginsBehind.lastExpression_eq`), and a function has one value.

**The text before.** Only the last character of what comes before is asked about, so text may be put
in front of a line and the last expression stays (`BeginsBehind.append_left`). This is what lets
completion look at the end of a line only. It holds once something comes before the expression; a
line that is one expression may become a part of a longer one when something is put in front.

**What is not said.** Nothing here says that the last expression can be read as an expression. It is
a matter of brackets and delimiters alone, and kinds of brackets are not told apart.
-/

namespace LineCompletion

/-! ### Brackets by number -/

/-- How many brackets a text opens. -/
def openers (s : List Char) : Nat := s.countP isOpener

/-- How many brackets a text closes. -/
def closers (s : List Char) : Nat := s.countP isCloser

/-- Every bracket that a text opens is closed behind it, and outside brackets there is no other
delimiter. Kinds of brackets are not told apart. -/
structure ClosedBehind (s : List Char) : Prop where
  /-- From any place on, at least as many brackets are closed as are opened. -/
  openers_le : ∀ t, t <:+ s → openers t ≤ closers t
  /-- Behind a delimiter that is no bracket, more are closed than are opened. -/
  delimiters : ∀ c t, c :: t <:+ s → isDelimiter c = true → isOpener c = false →
    isCloser c = false → openers t ≠ closers t

section Cons

variable {c : Char} {s : List Char}

theorem openers_cons (c : Char) (s : List Char) :
    openers (c :: s) = openers s + if isOpener c = true then 1 else 0 :=
  List.countP_cons

theorem closers_cons (c : Char) (s : List Char) :
    closers (c :: s) = closers s + if isCloser c = true then 1 else 0 :=
  List.countP_cons

theorem closedBehind_nil : ClosedBehind [] where
  openers_le t ht := by rw [List.suffix_nil.1 ht]; exact Nat.le_refl _
  delimiters c t ht := absurd (List.suffix_nil.1 ht) (by simp)

/-- What one more character in front asks for. -/
theorem closedBehind_cons_iff :
    ClosedBehind (c :: s) ↔ ClosedBehind s ∧ openers (c :: s) ≤ closers (c :: s) ∧
      (isDelimiter c = true → isOpener c = false → isCloser c = false →
        openers s ≠ closers s) := by
  constructor
  · intro h
    have hsuffix {t : List Char} (ht : t <:+ s) : t <:+ c :: s := ht.trans (List.suffix_cons c s)
    exact ⟨⟨fun t ht ↦ h.openers_le t (hsuffix ht), fun d t ht ↦ h.delimiters d t (hsuffix ht)⟩,
      h.openers_le _ List.suffix_rfl, h.delimiters c s List.suffix_rfl⟩
  · rintro ⟨h, hle, hdelimiter⟩
    refine ⟨fun t ht ↦ ?_, fun d t ht ↦ ?_⟩
    · rcases List.suffix_cons_iff.1 ht with rfl | ht
      · exact hle
      · exact h.openers_le t ht
    · rcases List.suffix_cons_iff.1 ht with heq | ht
      · obtain ⟨rfl, rfl⟩ := List.cons.inj heq
        exact hdelimiter
      · exact h.delimiters d t ht

end Cons

/-- **What brackets enclose, by number.** Those opened in the text are closed behind it, and so are
as many more as were open before it. -/
theorem isEnclosed_iff {depth : Nat} {s : List Char} :
    isEnclosed depth s = true ↔ ClosedBehind s ∧ closers s = openers s + depth := by
  induction s generalizing depth with
  | nil =>
    have hnil : closers [] = openers [] + depth ↔ depth = 0 := by
      simp [openers, closers, eq_comm (a := 0)]
    rw [isEnclosed, beq_iff_eq, hnil, and_iff_right closedBehind_nil]
  | cons c s ih =>
    rw [isEnclosed, closedBehind_cons_iff, openers_cons, closers_cons]
    split
    · rename_i hopener
      have hcloser : isCloser c = false := Bool.eq_false_iff.2 fun hcloser ↦ by
        rw [isOpener_of_isCloser hcloser] at hopener
        exact absurd hopener (by simp)
      simp only [ih, hcloser, hopener]
      grind
    · rename_i hopener
      split
      · rename_i hcloser
        have hle (h : ClosedBehind s) : openers s ≤ closers s := h.openers_le s List.suffix_rfl
        simp only [Bool.and_eq_true, decide_eq_true_eq, ih, hcloser, hopener]
        grind
      · rename_i hcloser
        simp only [Bool.and_eq_true, Bool.or_eq_true, decide_eq_true_eq, Bool.not_eq_true', ih,
          hcloser, hopener]
        grind

/-! ### The place -/

/-- An expression begins behind a text. -/
structure BeginsBehind (before expr : List Char) : Prop extends ClosedBehind expr where
  /-- There is an expression. -/
  expr_ne_nil : expr ≠ []
  /-- It closes as many brackets as it opens. -/
  closers_eq : closers expr = openers expr
  /-- Right before it stands a delimiter that closes no bracket. -/
  delimited : ∃ c ∈ before.getLast?, isDelimiter c = true ∧ isCloser c = false

namespace BeginsBehind

variable {before expr : List Char}

/-- An expression that begins behind a text is enclosed. -/
theorem isEnclosed_expr (h : BeginsBehind before expr) : isEnclosed 0 expr = true :=
  isEnclosed_iff.2 ⟨h.toClosedBehind, h.closers_eq⟩

/-- Something comes before an expression that begins behind a text. -/
theorem before_ne_nil (h : BeginsBehind before expr) : before ≠ [] := by
  rintro rfl
  obtain ⟨c, hc, -⟩ := h.delimited
  exact absurd hc (by simp)

/-- Only the end of what is before the expression matters. -/
theorem append_left (h : BeginsBehind before expr) (t : List Char) :
    BeginsBehind (t ++ before) expr := by
  refine ⟨h.toClosedBehind, h.expr_ne_nil, h.closers_eq, ?_⟩
  rw [List.getLast?_append_of_ne_nil _ h.before_ne_nil]
  exact h.delimited

/-- **The walk back finds the place.** -/
theorem lastExpression_eq (h : BeginsBehind before expr) :
    lastExpression (before ++ expr) = (before, expr) := by
  obtain ⟨c, hlast, hc⟩ := h.delimited
  refine lastExpression_append_enclosed (fun d hd ↦ ?_) h.expr_ne_nil h.isEnclosed_expr
  exact Option.some.inj (hlast.symm.trans hd) ▸ hc

end BeginsBehind

/-- Outside brackets the walk stops at a delimiter that closes none. -/
theorem splitBackwards_delimiter {c : Char} (hdelimiter : isDelimiter c = true)
    (hcloser : isCloser c = false) (s : List Char) : splitBackwards 0 (c :: s) = ([], c :: s) := by
  rw [splitBackwards.eq_def]
  simp only [hcloser, hdelimiter, Bool.false_eq_true, if_false, if_true]

/-- Where the walk back stops, everything it took is enclosed, together with the text behind it in
which brackets were counted before, and it stops at a delimiter that closes no bracket. -/
theorem enclosed_and_delimited_of_splitBackwards {nesting : Nat} {s behind : List Char}
    (hbehind : isEnclosed nesting behind = true) (hstop : (splitBackwards nesting s).2 ≠ []) :
    isEnclosed 0 ((splitBackwards nesting s).1.reverse ++ behind) = true ∧
      ∃ c ∈ (splitBackwards nesting s).2.head?, isDelimiter c = true ∧ isCloser c = false := by
  induction s generalizing nesting behind with
  | nil => exact absurd rfl hstop
  | cons c s ih =>
    -- What is counted behind a character is counted behind the next one with it in front.
    have hstep {nesting' : Nat} (hc : isEnclosed nesting' (c :: behind) = true)
        (hsplit : splitBackwards nesting (c :: s) =
          (c :: (splitBackwards nesting' s).1, (splitBackwards nesting' s).2)) :
        isEnclosed 0 ((splitBackwards nesting (c :: s)).1.reverse ++ behind) = true ∧
          ∃ d ∈ (splitBackwards nesting (c :: s)).2.head?,
            isDelimiter d = true ∧ isCloser d = false := by
      rw [hsplit] at hstop ⊢
      rw [List.reverse_cons, List.append_assoc]
      exact ih hc hstop
    by_cases hcloser : isCloser c = true
    · refine hstep ?_ (splitBackwards_closer s hcloser nesting)
      have hopener : ¬ isOpener c = true := by rw [isOpener_of_isCloser hcloser]; simp
      rw [isEnclosed, if_neg hopener, if_pos hcloser]
      simpa using hbehind
    have hcloser' : isCloser c = false := Bool.eq_false_iff.2 hcloser
    by_cases hplace : 0 < nesting ∨ isDelimiter c = false
    · by_cases hopener : isOpener c = true
      · -- An opening bracket is a delimiter, so it is passed only inside brackets.
        have hopen : 0 < nesting := hplace.resolve_right (by
          rw [isDelimiter_of_isOpener hopener]; simp)
        obtain ⟨outer, rfl⟩ := Nat.exists_eq_succ_of_ne_zero hopen.ne'
        refine hstep ?_ (splitBackwards_opener s hopener outer)
        rwa [isEnclosed_opener hopener]
      · refine hstep ?_ (splitBackwards_plain s hopener hcloser hplace)
        rw [isEnclosed, if_neg hopener, if_neg hcloser]
        simpa using ⟨hplace, hbehind⟩
    · rw [not_or, Nat.not_lt, Nat.le_zero, Bool.not_eq_false] at hplace
      obtain ⟨rfl, hdelimiter⟩ := hplace
      rw [splitBackwards_delimiter hdelimiter hcloser']
      exact ⟨hbehind, c, rfl, hdelimiter, hcloser'⟩

/-- What the walk back finds is in its place. -/
theorem beginsBehind_lastExpression {s : List Char} (h : (lastExpression s).1 ≠ []) :
    BeginsBehind (lastExpression s).1 (lastExpression s).2 := by
  rw [lastExpression] at h ⊢
  split at h
  · exact absurd rfl h
  · rename_i expr before hne hsplit
    have hstop : (splitBackwards 0 s.reverse).2 ≠ [] := by
      rw [hsplit]
      exact fun hnil ↦ h (List.reverse_eq_nil_iff.2 hnil)
    have hnil : isEnclosed 0 [] = true := rfl
    obtain ⟨henclosed, hdelimited⟩ := enclosed_and_delimited_of_splitBackwards hnil hstop
    rw [hsplit] at henclosed hdelimited
    obtain ⟨hclosed, hcount⟩ := isEnclosed_iff.1 (by simpa using henclosed)
    refine ⟨hclosed, fun hnil ↦ hne (List.reverse_eq_nil_iff.1 hnil), hcount, ?_⟩
    rwa [List.getLast?_reverse]

/-- **The last expression begins in one place.** The two parts of a text make it up. They are a
given pair whose first part is not empty just when an expression begins there; where none begins
anywhere in the text, all of it is the expression. So an expression is its own last one, and a text
put in front of one that has a first part is added to that. -/
theorem lastExpression_divides_once (s : List Char) :
    (lastExpression s).1 ++ (lastExpression s).2 = s ∧
      (∀ before expr, before ≠ [] ∧ lastExpression s = (before, expr) ↔
        s = before ++ expr ∧ BeginsBehind before expr) ∧
      (lastExpression s = ([], s) ↔
        ∀ before expr, s = before ++ expr → ¬ BeginsBehind before expr) ∧
      lastExpression (lastExpression s).2 = ([], (lastExpression s).2) ∧
      ∀ t, (lastExpression s).1 ≠ [] →
        lastExpression (t ++ s) = (t ++ (lastExpression s).1, (lastExpression s).2) := by
  have happend := lastExpression_append s
  refine ⟨happend, fun before expr ↦ ⟨?_, ?_⟩, ⟨?_, fun hnone ↦ ?_⟩, ?_, fun t hne ↦ ?_⟩
  · rintro ⟨hne, hs⟩
    rw [hs] at happend
    have h := beginsBehind_lastExpression (by rwa [hs])
    rw [hs] at h
    exact ⟨happend.symm, h⟩
  · rintro ⟨rfl, h⟩
    exact ⟨h.before_ne_nil, h.lastExpression_eq⟩
  · rintro hs before expr rfl h
    rw [h.lastExpression_eq] at hs
    exact h.before_ne_nil (Prod.mk.inj hs).1
  · have hnil : (lastExpression s).1 = [] := by
      by_contra hne
      exact hnone _ _ happend.symm (beginsBehind_lastExpression hne)
    rw [hnil, List.nil_append] at happend
    exact Prod.ext hnil happend
  · by_cases hnil : (lastExpression s).1 = []
    · rw [hnil, List.nil_append] at happend
      rw [happend]
      exact Prod.ext hnil happend
    · exact @lastExpression_append_enclosed [] _ (by simp)
        (beginsBehind_lastExpression hnil).expr_ne_nil
        (beginsBehind_lastExpression hnil).isEnclosed_expr
  · have h := ((beginsBehind_lastExpression hne).append_left t).lastExpression_eq
    rwa [List.append_assoc, happend] at h

/-- A bracket may be closed by one of another kind, and white space between the two divides
nothing. -/
example : lastExpression "x = [a, b).c".toList = ("x = ".toList, "[a, b).c".toList) := by
  decide +kernel

end LineCompletion
