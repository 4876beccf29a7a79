import LineCompletion.Proofs.Expression.Machine

/-!
# What holds at every moment of an evaluation

What a step of the machine can do to the counter, to the open brackets and to a failure is one of
eight things (`Moves`), whatever token is read (`moves_of_step?`). The facts that hold at every
moment of a run come from these alone (`Sound.of_reaches`): the offset is between two characters,
the counter is the number of expressions that are begun, it is never above the limit, and a problem
is at a place between two characters. That the nesting is too deep is found only when an expression
is due inside as many open brackets as are allowed (`Moves.of_tooDeep`).

**The step is taken apart once.** `moves_of_step?` is the one place where the definition of a step
is unfolded. It goes control by control, and each part of a step has its lemma, for the tokens it
may read and for the ways in which it may fail. From there on a step is a case of `Moves`, with the
change of the counter, of the brackets and of the failure in its hypotheses. An invariant is then a
case analysis with eight cases, most of them a line of arithmetic.

**Active expressions.** The counter counts the expressions that were begun and have not ended. In
the state of the machine these are the open brackets, one expression around each, and one more if
the control is inside an expression. The invariant is that the counter equals this number, and no
step changes the one without the other (`Moves.depth_add_active`). This is what makes the counter
come back to where it was when a bracket is closed or given up, in failure as in success.

**Where problems are.** A problem is raised at the offset where it is found and then passed up
unchanged. So its place is either the one it had before the step or the offset after it
(`Moves.failure`), and both are between two characters. The problem of nesting is raised by one step
only, and at that moment the brackets around can be counted.
-/

namespace LineCompletion

open Text

/-- A failure that comes up at an offset is about that offset, and not about the nesting. -/
def Control.FreshAt (position : Nat) (c : Control) : Prop :=
  ∀ p problem, c.failure? = some (.raised p problem) → p = position ∧ problem ≠ .tooDeep

namespace Machine

/-- What a step can do to a machine. -/
inductive Moves (m m' : Machine) : Prop
  /-- An expression is due, but too many are begun. -/
  | refuse (hfrom : m.control = .enter) (hdeep : maxNesting ≤ m.depth)
      (hto : m' = { m with control := .back (.error (.raised m.position .tooDeep)) })
  /-- An expression is begun. -/
  | enter (hfrom : m.control = .enter) (hdepth : m.depth < maxNesting)
      (hto : m' = { m with depth := m.depth + 1, control := .primary })
  /-- Something is read inside an expression. -/
  | read (hfrom : m.control.inside = true) (hto : m'.control.inside = true)
      (hdepth : m'.depth = m.depth) (hframes : m'.frames = m.frames)
      (hfresh : m'.control.FreshAt m'.position) (hcalm : m.control.failure? = none)
  /-- A bracket is opened inside an expression. -/
  | push (frame : Frame) (hfrom : m.control.inside = true) (hto : m'.control.inside = false)
      (hdepth : m'.depth = m.depth) (hframes : m'.frames = frame :: m.frames)
      (hcalm : m'.control.failure? = none)
  /-- Reading goes on inside the same bracket. -/
  | within (hfrom : m.control.inside = false) (hto : m'.control.inside = false)
      (hdepth : m'.depth = m.depth) (hframes : m'.frames.length = m.frames.length)
      (hcalm : m'.control.failure? = none)
  /-- A bracket is closed, or given up. -/
  | close (frame : Frame) (hfrom : m.control.inside = false) (hto : m'.control.inside = true)
      (hdepth : m'.depth = m.depth) (hframes : m.frames = frame :: m'.frames)
      (hfailure : m'.control.failure? = m.control.failure? ∨
        m.control.failure? = none ∧ m'.control.FreshAt m'.position)
  /-- An expression ends. -/
  | leave (result : Except Failure Value) (hfrom : m.control = .leave result)
      (hdepth : m.depth = m'.depth + 1) (hto : m'.control = .back result)
      (hframes : m'.frames = m.frames)
  /-- The whole text is read. -/
  | finish (result result' : Except Failure Value) (hfrom : m.control = .back result)
      (hto : m'.control = .finished result') (hdepth : m'.depth = m.depth)
      (houtside : m.frames = []) (hframes : m'.frames = [])
      (hfailure : m'.control.failure? = m.control.failure? ∨
        m.control.failure? = none ∧ m'.control.FreshAt m'.position)

section Fresh

variable {position : Nat}

/-- What is no failure is about no other place. -/
theorem freshAt_of_calm {c : Control} (h : c.failure? = none) : c.FreshAt position := by
  intro p problem hfailure
  rw [h] at hfailure
  exact absurd hfailure (by simp)

/-- Behind the result of a step the machine is inside an expression. -/
theorem inside_ofResult (r : Except EvalError Value) : (Control.ofResult r).inside = true := by
  cases r <;> rfl

/-- A failed step of evaluation is no problem of syntax. -/
theorem freshAt_ofResult (r : Except EvalError Value) : (Control.ofResult r).FreshAt position := by
  cases r with
  | ok v => exact freshAt_of_calm rfl
  | error cause => exact fun p problem h ↦ absurd (Option.some.inj h) (by simp)

/-- A problem that is raised is about the place where it is. -/
theorem freshAt_fail {m : Machine} {problem : SyntaxProblem} (h : problem ≠ .tooDeep) :
    (m.fail position problem).control.FreshAt position := by
  intro p problem' hfailure
  obtain ⟨rfl, rfl⟩ := Failure.raised.inj (Option.some.inj hfailure)
  exact ⟨rfl, h⟩

end Fresh

section Step

variable {host : Host} {ns : Namespace} {text s : List Char} {m m' : Machine}

/-- Scanning a token inside an expression stays inside it, at an offset between two characters. -/
theorem moves_scanned {α β : Type} {related : β → α → Prop} {scan : Option (Scanned α)}
    {read : Read β} (h : Scans text related scan read) {value : α → Except EvalError Value}
    (hfrom : m.control.inside = true) (hcalm : m.control.failure? = none)
    (hm' : scan.map (m.scanned value) = some m') :
    AtBoundary text m'.position ∧ m.Moves m' := by
  obtain ⟨r, hscan, rfl⟩ := Option.map_eq_some_iff.1 hm'
  cases read with
  | ok found =>
    obtain ⟨hrest, a, -, hok⟩ := h
    obtain rfl := Option.some.inj (hscan.symm.trans hok)
    exact ⟨atBoundary_offset hrest,
      .read hfrom (inside_ofResult _) rfl rfl (freshAt_ofResult _) hcalm⟩
  | error stuck =>
    obtain ⟨hrest, -, hproblem, herror⟩ := h
    obtain rfl := Option.some.inj (hscan.symm.trans herror)
    exact ⟨atBoundary_offset hrest, .read hfrom rfl rfl rfl (freshAt_fail hproblem) hcalm⟩

theorem moves_fail {rest : List Char} (hrest : rest <:+ text) {problem : SyntaxProblem}
    (hproblem : problem ≠ .tooDeep) (hfrom : m.control.inside = true)
    (hcalm : m.control.failure? = none) :
    AtBoundary text (m.fail (offset text rest) problem).position ∧
      m.Moves (m.fail (offset text rest) problem) :=
  ⟨atBoundary_offset hrest, .read hfrom rfl rfl rfl (freshAt_fail hproblem) hcalm⟩

/-- Opening a bracket inside an expression is a move. -/
theorem moves_push {rest : List Char} (hrest : rest <:+ text) (frame : Frame) {c : Control}
    (hfrom : m.control.inside = true) (hto : c.inside = false) (hcalm : c.failure? = none) :
    AtBoundary text (m.push (offset text rest) frame c).position ∧
      m.Moves (m.push (offset text rest) frame c) :=
  ⟨atBoundary_offset hrest, .push frame hfrom hto rfl rfl hcalm⟩

/-- Closing a bracket, or finding that it is not closed, is a move. -/
theorem moves_close {rest : List Char} (hrest : rest <:+ text) {frame : Frame} {outer : List Frame}
    (hframes : m.frames = frame :: outer) (close : Char) (result : Except EvalError Value)
    (hfrom : m.control.inside = false) (hcalm : m.control.failure? = none) :
    AtBoundary text (m.close (offset text rest) rest outer close result).position ∧
      m.Moves (m.close (offset text rest) rest outer close result) := by
  rw [Machine.close]
  split
  · rename_i hhead
    obtain ⟨tail, rfl⟩ := List.head?_eq_some_iff.1 hhead
    refine ⟨?_, .close frame hfrom (inside_ofResult result) rfl hframes ?_⟩
    · show AtBoundary text (offset text (close :: tail) + close.utf8Size)
      rw [offset_cons hrest]
      exact atBoundary_offset ((List.suffix_cons _ _).trans hrest)
    · exact .inr ⟨hcalm, freshAt_ofResult result⟩
  · exact ⟨atBoundary_offset hrest,
      .close frame hfrom rfl rfl hframes (.inr ⟨hcalm, freshAt_fail (by simp)⟩)⟩

section AtRest

variable (h : s <:+ text) (hm : m.position = offset text s)

include h hm

/-- Reading what an expression begins with is a move. -/
theorem moves_primary? (hfrom : m.control = .primary) (hstep : primary? ns text m = some m') :
    AtBoundary text m'.position ∧ m.Moves m' := by
  have hinside : m.control.inside = true := by rw [hfrom]; rfl
  have hcalm : m.control.failure? = none := by rw [hfrom]; rfl
  have htrim := trimStart_suffix_text h
  rw [primary?_offset h hm] at hstep
  generalize trimStart s = left at htrim hstep
  cases left with
  | nil =>
    obtain rfl := Option.some.inj hstep
    exact moves_fail List.nil_suffix (by simp) hinside hcalm
  | cons c rest =>
    have hrest : rest <:+ text := (List.suffix_cons c rest).trans htrim
    dsimp only at hstep
    split_ifs at hstep with hname hnumber hquote hround hsquare
    · exact moves_scanned (scans_readIdentifier htrim) hinside hcalm hstep
    · rw [Bool.or_eq_true, beq_iff_eq] at hnumber
      rcases hnumber with hdigit | rfl
      · exact moves_scanned (scans_readNumber_of_isDigit htrim hdigit Host.bare ns) hinside hcalm
          hstep
      · exact moves_scanned (scans_readNumber_of_minus htrim Host.bare ns) hinside hcalm hstep
    · exact moves_scanned (scans_readString hquote hrest Host.bare ns) hinside hcalm hstep
    all_goals obtain rfl := Option.some.inj hstep
    · exact moves_push hrest _ hinside rfl rfl
    · exact moves_push hrest _ hinside rfl rfl
    · exact moves_fail htrim (by simp) hinside hcalm

/-- Reading a step is a move. -/
theorem moves_steps? {v : Value} (hfrom : m.control = .steps v)
    (hstep : steps? text m v = some m') : AtBoundary text m'.position ∧ m.Moves m' := by
  have hinside : m.control.inside = true := by rw [hfrom]; rfl
  have hcalm : m.control.failure? = none := by rw [hfrom]; rfl
  have htrim := trimStart_suffix_text h
  rw [steps?_offset h hm] at hstep
  generalize trimStart s = left at htrim hstep
  split at hstep
  · have hrest := (List.suffix_cons _ _).trans htrim
    exact moves_scanned (scans_readIdentifier (trimStart_suffix_text hrest)) hinside hcalm hstep
  all_goals obtain rfl := Option.some.inj hstep
  · exact moves_push ((List.suffix_cons _ _).trans htrim) _ hinside rfl rfl
  · exact moves_push ((List.suffix_cons _ _).trans htrim) _ hinside rfl rfl
  · exact ⟨atBoundary_offset htrim, .read hinside rfl rfl rfl (freshAt_of_calm rfl) hcalm⟩

/-- Going on inside a bracket is a move. -/
theorem moves_items? {bracket : Bracket} {before : List Value} {outer : List Frame}
    (hfrom : m.control = .items) (hframes : m.frames = .items bracket before :: outer)
    (hstep : items? host text m bracket before outer = some m') :
    AtBoundary text m'.position ∧ m.Moves m' := by
  have hinside : m.control.inside = false := by rw [hfrom]; rfl
  have hcalm : m.control.failure? = none := by rw [hfrom]; rfl
  have htrim := trimStart_suffix_text h
  rw [items?_offset h hm] at hstep
  split at hstep <;> obtain rfl := Option.some.inj hstep
  · exact moves_close htrim hframes _ _ hinside hcalm
  · exact ⟨atBoundary_offset htrim, .within hinside rfl rfl rfl rfl⟩

/-- Going on behind an item or a key is a move. -/
theorem moves_resume? {v : Value} {frame : Frame} {outer : List Frame}
    (hfrom : m.control = .back (.ok v)) (hframes : m.frames = frame :: outer)
    (hstep : resume? host text m v outer frame = some m') :
    AtBoundary text m'.position ∧ m.Moves m' := by
  have hinside : m.control.inside = false := by rw [hfrom]; rfl
  have hcalm : m.control.failure? = none := by rw [hfrom]; rfl
  have htrim := trimStart_suffix_text h
  cases frame with
  | key container =>
    rw [resume?_key_offset h hm] at hstep
    obtain rfl := Option.some.inj hstep
    exact moves_close htrim hframes _ _ hinside hcalm
  | items bracket before =>
    rw [resume?_items_offset h hm] at hstep
    generalize trimStart s = left at htrim hstep
    split at hstep <;> obtain rfl := Option.some.inj hstep
    · rename_i hcomma
      obtain ⟨rest, rfl⟩ := List.head?_eq_some_iff.1 hcomma
      refine ⟨?_, .within hinside rfl rfl (by rw [hframes]; rfl) rfl⟩
      show AtBoundary text (offset text (',' :: rest) + (',').utf8Size)
      rw [offset_cons htrim]
      exact atBoundary_offset ((List.suffix_cons _ _).trans htrim)
    · exact moves_close htrim hframes _ _ hinside hcalm

/-- Reading the end of the text is a move. -/
theorem moves_finish? {v : Value} (hfrom : m.control = .back (.ok v)) (hframes : m.frames = [])
    (hstep : finish? text m (.ok v) = some m') : AtBoundary text m'.position ∧ m.Moves m' := by
  have htrim := trimStart_suffix_text h
  rw [finish?_offset h hm] at hstep
  generalize trimStart s = left at htrim hstep
  obtain rfl := Option.some.inj hstep
  refine ⟨atBoundary_offset htrim, .finish _ _ hfrom rfl rfl hframes hframes ?_⟩
  refine .inr ⟨by rw [hfrom]; rfl, ?_⟩
  cases left with
  | nil => exact freshAt_of_calm rfl
  | cons c rest =>
    intro p problem hfailure
    obtain ⟨rfl, rfl⟩ := Failure.raised.inj (Option.some.inj hfailure)
    exact ⟨rfl, by simp⟩

end AtRest

/-- **A step does one of eight things**, and ends between two characters. -/
theorem moves_of_step? (hposition : AtBoundary text m.position)
    (hstep : m.step? host ns text = some m') : AtBoundary text m'.position ∧ m.Moves m' := by
  obtain ⟨s, h, hm⟩ := hposition.exists_offset
  rw [step?] at hstep
  split at hstep
  · rename_i hfrom
    split at hstep <;> obtain rfl := Option.some.inj hstep
    · exact ⟨hposition, .refuse hfrom ‹_› rfl⟩
    · exact ⟨hposition, .enter hfrom (Nat.lt_of_not_le ‹_›) rfl⟩
  · exact moves_primary? h hm ‹_› hstep
  · exact moves_steps? h hm ‹_› hstep
  · exact moves_items? h hm ‹_› ‹_› hstep
  · rename_i hfrom
    split at hstep
    · exact absurd hstep (by simp)
    · obtain rfl := Option.some.inj hstep
      exact ⟨hposition, .leave _ hfrom (by simp only; omega) rfl rfl⟩
  · exact moves_resume? h hm ‹_› ‹_› hstep
  · rename_i hfrom hframes
    obtain rfl := Option.some.inj hstep
    exact ⟨hposition, .close _ (by rw [hfrom]; rfl) rfl rfl hframes (.inl (by rw [hfrom]; rfl))⟩
  · rename_i r hfrom hframes
    cases r with
    | ok v => exact moves_finish? h hm hfrom hframes hstep
    | error f =>
      obtain rfl := Option.some.inj hstep
      exact ⟨hposition, .finish _ _ hfrom rfl rfl hframes hframes (.inl (by rw [hfrom]; rfl))⟩
  · exact absurd hstep (by simp)
  · exact absurd hstep (by simp)

end Step

/-! ### Invariants -/

/-- What holds of a machine at every moment. -/
structure Sound (text : List Char) (m : Machine) : Prop where
  /-- The text is read up to a place between two characters. -/
  position : AtBoundary text m.position
  /-- The counter counts the expressions that are begun. -/
  depth : m.depth = m.active
  /-- They are not more than are allowed. -/
  active_le : m.active ≤ maxNesting
  /-- A problem is at a place between two characters. -/
  failure : ∀ p problem, m.control.failure? = some (.raised p problem) → AtBoundary text p

section Invariants

variable {host : Host} {ns : Namespace} {text : List Char} {m m' : Machine}

/-- A machine is sound when it starts. -/
theorem sound_start (text : List Char) : start.Sound text where
  position := ⟨[], text, rfl, rfl⟩
  depth := rfl
  active_le := by decide
  failure _ _ h := absurd h (by simp [start, Control.failure?])

/-- A step changes the counter just as it changes how many expressions are begun. -/
theorem Moves.depth_add_active (h : m.Moves m') : m'.depth + m.active = m.depth + m'.active := by
  rw [active, active]
  cases h with
  | refuse hfrom _ hto => rw [hto, hfrom]; rfl
  | enter hfrom _ hto => rw [hto, hfrom, Control.inside, Control.inside]; simp; omega
  | read hfrom hto hdepth hframes => rw [hdepth, hframes, hfrom, hto]
  | push frame hfrom hto hdepth hframes => rw [hdepth, hframes, hfrom, hto]; rfl
  | within hfrom hto hdepth hframes => rw [hdepth, hframes, hfrom, hto]
  | close frame hfrom hto hdepth hframes => rw [hdepth, hframes, hfrom, hto]; rfl
  | leave result hfrom hdepth hto hframes =>
    rw [hdepth, hframes, hfrom, hto, Control.inside, Control.inside]; simp; omega
  | finish result result' hfrom hto hdepth houtside hframes =>
    rw [hdepth, houtside, hframes, hfrom, hto]; rfl

/-- A step begins an expression only where the counter allows one more. -/
theorem Moves.active_le (h : m.Moves m') (hdepth : m.depth = m.active)
    (hle : m.active ≤ maxNesting) : m'.active ≤ maxNesting := by
  have hcount := h.depth_add_active
  cases h with
  | enter hfrom hlt hto =>
    rw [hto] at hcount ⊢
    simp only at hcount
    omega
  | refuse hfrom hdeep hto =>
    rw [hto] at hcount ⊢
    simp only at hcount
    omega
  | leave => omega
  | read | push | within | close | finish => omega

/-- A problem stays where it is, and a new one is where the machine is. -/
theorem Moves.failure (h : m.Moves m') {p : Nat} {problem : SyntaxProblem}
    (hfailure : m'.control.failure? = some (.raised p problem)) :
    m.control.failure? = some (.raised p problem) ∨ p = m'.position := by
  cases h with
  | refuse hfrom _ hto =>
    rw [hto] at hfailure ⊢
    exact .inr (Failure.raised.inj (Option.some.inj hfailure)).1.symm
  | enter hfrom _ hto => rw [hto] at hfailure; exact absurd hfailure (by simp [Control.failure?])
  | read _ _ _ _ hfresh => exact .inr (hfresh p problem hfailure).1
  | push _ _ _ _ _ hcalm | within _ _ _ _ hcalm =>
    exact absurd (hcalm.symm.trans hfailure) (by simp)
  | close _ _ _ _ _ hsource | finish _ _ _ _ _ _ _ hsource =>
    rcases hsource with hsame | ⟨-, hfresh⟩
    · exact .inl (hsame.symm.trans hfailure)
    · exact .inr (hfresh p problem hfailure).1
  | leave result hfrom _ hto =>
    rw [hto] at hfailure
    rw [hfrom]
    cases result <;> exact .inl hfailure

/-- The nesting is found too deep only inside as many open brackets as are allowed. -/
theorem Moves.of_tooDeep (h : m.Moves m') {p : Nat} (hcalm : m.control.failure? = none)
    (hfailure : m'.control.failure? = some (.raised p .tooDeep)) (hdepth : m.depth = m.active) :
    maxNesting ≤ m.frames.length := by
  cases h with
  | refuse hfrom hdeep => rwa [hdepth, active, hfrom] at hdeep
  | enter hfrom _ hto => rw [hto] at hfailure; exact absurd hfailure (by simp [Control.failure?])
  | read _ _ _ _ hfresh => exact absurd rfl (hfresh p .tooDeep hfailure).2
  | push _ _ _ _ _ hquiet | within _ _ _ _ hquiet =>
    exact absurd (hquiet.symm.trans hfailure) (by simp)
  | close _ _ _ _ _ hsource | finish _ _ _ _ _ _ _ hsource =>
    rcases hsource with hsame | ⟨-, hfresh⟩
    · exact absurd (hcalm.symm.trans (hsame.symm.trans hfailure)) (by simp)
    · exact absurd rfl (hfresh p .tooDeep hfailure).2
  | leave result hfrom _ hto =>
    rw [hto] at hfailure
    rw [hfrom] at hcalm
    cases result with
    | ok v => exact absurd hfailure (by simp [Control.failure?])
    | error f => exact absurd hcalm (by simp [Control.failure?])

/-- **A step keeps a machine sound.** -/
theorem Sound.of_step? (h : m.Sound text) (hstep : m.step? host ns text = some m') :
    m'.Sound text := by
  obtain ⟨hposition, hmoves⟩ := moves_of_step? h.position hstep
  refine ⟨hposition, ?_, hmoves.active_le h.depth h.active_le, fun p problem hfailure ↦ ?_⟩
  · have := hmoves.depth_add_active
    have := h.depth
    omega
  · rcases hmoves.failure hfailure with hbefore | rfl
    · exact h.failure p problem hbefore
    · exact hposition

/-- **Every machine that a run comes to is sound.** -/
theorem Sound.of_reaches (h : m.Sound text) (hrun : Reaches host ns text m m') :
    m'.Sound text := by
  induction hrun with
  | refl => exact h
  | tail _ hstep ih => exact ih.of_step? hstep

end Invariants

end Machine

end LineCompletion
