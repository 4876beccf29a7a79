import LineCompletion.Proofs.Expression.Moves

/-!
# The machine does what reading and evaluating do

Reading gives an expression or is stuck, and what is read is evaluated afterwards; the machine
evaluates on the way. The two are put together as the outcome of a reading (`outcome`): its value,
or the failure of the first complete part that has none, or the problem that it is stuck at.

A run `Lands` where a reading ends and with its outcome, behind items (`Machine.lands_items`),
behind the steps of an expression (`Machine.lands_steps`) and behind its first part
(`Machine.lands_primary`), if it does so behind an expression inside brackets (`Machine.Mirrors`).
That is proved for all open brackets at once, by induction on how many more expressions may be begun
(`Machine.mirrors_ofDepth`), so an expression leaves the brackets around it and the counter as they
were.

**Which failure comes first.** The machine stops at the first thing that goes wrong, be it a token
that makes no sense or a step that fails. Reading goes on to the end before anything is evaluated,
so it may find a later problem of the syntax although an earlier part fails when it is evaluated.
That is why a stuck reading hands over the expressions that were complete before that place
(`Stuck.done`): they are evaluated in order, and the first failure among them wins. The lemmas on
`Stuck.after` say how this list grows by one expression, with a value and without.

**The invariant.** `Machine.Lands` speaks of all brackets around and of the counter: they are a
parameter of the run and the same before and after it. The statement for an expression inside
brackets is the hypothesis of the statements for what holds brackets, and these together give the
statement for one level more. The induction is on the levels and not on the text. Along the text it
is the recursion of the readers.

**Single steps.** The lemmas `step?_…` say what one step does in one situation, and have an equation
for the whole state as their conclusion. A run is then put together from such equations, and no
proof behind them unfolds `Machine.step?`.

**Lookahead.** Both sides skip white space before they decide, and neither gives it back. So offsets
agree exactly, also where a problem is found.
-/

namespace LineCompletion

open Text

/-! ### What reading and evaluating give together -/

section Outcome

variable (host : Host) (ns : Namespace) (text : List Char)

/-- The failure that a stuck reading ends in: that of the first expression before that place which
has no value, or else the problem there. -/
def Stuck.failure (stuck : Stuck) : Failure :=
  match Expr.evalAll host ns stuck.done with
  | .ok _ => .raised (offset text stuck.rest) stuck.problem
  | .error cause => .reported cause

/-- What a reading gives when what is read is evaluated on the way. -/
def outcome {α β : Type} (value : α → Except EvalError β) : Read α → Except Failure (β × List Char)
  | .ok (a, rest) =>
    match value a with
    | .ok b => .ok (b, rest)
    | .error cause => .error (.reported cause)
  | .error stuck => .error (stuck.failure host ns text)

/-- The values of items, which know whether an item came after the last comma. -/
def itemValues (found : List Expr × Bool) : Except EvalError (List Value × Bool) :=
  (Expr.evalAll host ns found.1).map (·, found.2)

end Outcome

section Failure

variable {host : Host} {ns : Namespace} {text : List Char} {e : Expr} {v : Value}
  {cause : EvalError} {es : List Expr}

/-- A reading has the value of what was read. -/
theorem outcome_of_ok {α β : Type} {value : α → Except EvalError β} {a : α} {b : β}
    (h : value a = .ok b) (rest : List Char) :
    outcome host ns text value (.ok (a, rest)) = .ok (b, rest) := by
  rw [outcome, h]

/-- A reading fails as what was read fails. -/
theorem outcome_of_error {α β : Type} {value : α → Except EvalError β} {a : α}
    (h : value a = .error cause) (rest : List Char) :
    outcome host ns text value (.ok (a, rest)) = .error (.reported cause) := by
  rw [outcome, h]

/-- A first item with a value is in front of the values of the others. -/
theorem evalAll_cons_of_ok (he : e.eval host ns = .ok v) :
    Expr.evalAll host ns (e :: es) = (Expr.evalAll host ns es).map (v :: ·) := by
  rw [Expr.evalAll, he]
  cases Expr.evalAll host ns es <;> rfl

/-- A first item that fails keeps the others from being evaluated. -/
theorem evalAll_cons_of_error (he : e.eval host ns = .error cause) :
    Expr.evalAll host ns (e :: es) = .error cause := by
  rw [Expr.evalAll, he]
  rfl

/-- There are as many values as items. -/
theorem length_of_evalAll {vs : List Value} (h : Expr.evalAll host ns es = .ok vs) :
    vs.length = es.length := by
  induction es generalizing vs with
  | nil =>
    obtain rfl := Except.ok.inj h
    rfl
  | cons e es ih =>
    cases he : e.eval host ns with
    | error cause => rw [evalAll_cons_of_error he] at h; exact absurd h (by simp)
    | ok v =>
      rw [evalAll_cons_of_ok he] at h
      cases hes : Expr.evalAll host ns es with
      | error cause => rw [hes] at h; exact absurd h (by simp [Except.map])
      | ok vs' =>
        rw [hes] at h
        obtain rfl := Except.ok.inj h
        exact congrArg (· + 1) (ih hes)

/-- A complete expression with a value does not show in the failure of a stuck reading. -/
theorem failure_after_of_ok (he : e.eval host ns = .ok v) (stuck : Stuck) :
    (stuck.after e).failure host ns text = stuck.failure host ns text := by
  rw [Stuck.failure, Stuck.failure, Stuck.after, evalAll_cons_of_ok he]
  cases Expr.evalAll host ns stuck.done <;> rfl

/-- A complete expression that fails wins over the problem behind it. -/
theorem failure_after_of_error (he : e.eval host ns = .error cause) (stuck : Stuck) :
    (stuck.after e).failure host ns text = .reported cause := by
  rw [Stuck.failure, Stuck.after, evalAll_cons_of_error he]

theorem outcome_after_of_ok (he : e.eval host ns = .ok v) {α β : Type}
    (value : α → Except EvalError β) (stuck : Stuck) :
    outcome host ns text value (.error (stuck.after e)) =
      .error (stuck.failure host ns text) :=
  congrArg Except.error (failure_after_of_ok he stuck)

theorem outcome_after_of_error (he : e.eval host ns = .error cause) {α β : Type}
    (value : α → Except EvalError β) (stuck : Stuck) :
    outcome host ns text value (.error (stuck.after e)) = .error (.reported cause) :=
  congrArg Except.error (failure_after_of_error he stuck)

/-- Items whose first one has a value have the outcome of the others with it in front. -/
theorem outcome_items_of_ok (he : e.eval host ns = .ok v) (ended : Bool) (rest : List Char) :
    outcome host ns text (itemValues host ns) (.ok ((e :: es, ended), rest)) =
      (outcome host ns text (itemValues host ns) (.ok ((es, ended), rest))).map
        fun found ↦ ((v :: found.1.1, found.1.2), found.2) := by
  rw [outcome, outcome, itemValues, itemValues, evalAll_cons_of_ok he]
  cases Expr.evalAll host ns es <;> rfl

/-- Items whose first one fails have its failure for an outcome. -/
theorem outcome_items_of_error (he : e.eval host ns = .error cause) (ended : Bool)
    (rest : List Char) :
    outcome host ns text (itemValues host ns) (.ok ((e :: es, ended), rest)) =
      .error (.reported cause) := by
  rw [outcome, itemValues, evalAll_cons_of_error he]
  rfl

/-- An expression that fails fails with any steps behind it, and before any problem behind it. -/
theorem outcome_readSteps_of_error {inner : ExprReader} {s : List Char}
    (he : e.eval host ns = .error cause) :
    outcome host ns text (Expr.eval host ns) (readSteps inner e s) = .error (.reported cause) := by
  fun_induction readSteps inner e s with
  | case1 e s afterDot _ stuck => exact outcome_after_of_error he _ stuck
  | case2 e s afterDot _ name rest _ ih => exact ih (by rw [Expr.eval, he]; rfl)
  | case3 e s inside _ stuck => exact outcome_after_of_error he _ stuck
  | case4 e s inside _ key left _ more _ ih => exact ih (by rw [Expr.eval, he]; rfl)
  | case5 e s inside _ key rest => exact outcome_after_of_error he _ ⟨[key], _, _⟩
  | case6 e s inside _ stuck => exact outcome_after_of_error he _ stuck
  | case7 e s inside _ args ended rest _ ih => exact ih (by rw [Expr.eval, he]; rfl)
  | case8 e s => rw [outcome, he]

end Failure

/-- Items between round brackets, as an expression. -/
def Expr.ofRound : List Expr × Bool → Expr
  | ([e], false) => .group e
  | (items, _) => .tuple items

/-- What the machine does behind a bracket around items, once they are read. -/
def Control.ofItems (host : Host) (bracket : Bracket) (before : List Value) :
    Except Failure (List Value × Bool) → Control
  | .ok (vs, ended) => .ofResult (bracket.value host (before ++ vs) ended)
  | .error f => .leave (.error f)

/-- What the machine does behind the first part of an expression. -/
def Control.ofPart : Except Failure Value → Control
  | .ok v => .steps v
  | .error f => .leave (.error f)

namespace Machine

/-! ### Single steps -/

section Steps

variable {host : Host} {ns : Namespace} {text s rest : List Char} {depth : Nat}
  {frames : List Frame} {bracket : Bracket} {before : List Value} {v : Value}

/-- The closing bracket is there, and the machine goes on behind it. -/
theorem close_of_cons {m : Machine} {c : Char} (h : c :: rest <:+ text)
    (result : Except EvalError Value) :
    m.close (offset text (c :: rest)) (c :: rest) frames c result =
      { m with position := offset text rest, frames, control := .ofResult result } := by
  rw [close, if_pos List.head?_cons, offset_cons h]

/-- The closing bracket is missing, and that is the problem. -/
theorem close_of_ne {m : Machine} {c : Char} (h : rest.head? ≠ some c)
    (result : Except EvalError Value) :
    m.close (offset text rest) rest frames c result =
      { m with frames }.fail (offset text rest) (.expected c) := by
  rw [close, if_neg h]

variable (h : s <:+ text)

include h

/-- A bracket around items is closed where an item might be due. -/
theorem step?_items_close (htrim : trimStart s = bracket.close :: rest) :
    step? host ns text ⟨offset text s, depth, .items bracket before :: frames, .items⟩ =
      some ⟨offset text rest, depth, frames, .ofResult (bracket.value host before true)⟩ := by
  show items? host text _ bracket before frames = _
  rw [items?_offset h rfl, htrim, if_pos List.head?_cons,
    close_of_cons (suffix_of_trimStart_eq h htrim)]

/-- An item is due. -/
theorem step?_items_enter (hopen : (trimStart s).head? ≠ some bracket.close) :
    step? host ns text ⟨offset text s, depth, .items bracket before :: frames, .items⟩ =
      some ⟨offset text (trimStart s), depth, .items bracket before :: frames, .enter⟩ := by
  show items? host text _ bracket before frames = _
  rw [items?_offset h rfl, if_neg hopen]

/-- A comma behind an item makes another one due, or the end. -/
theorem step?_comma (htrim : trimStart s = ',' :: rest) :
    step? host ns text ⟨offset text s, depth, .items bracket before :: frames, .back (.ok v)⟩ =
      some ⟨offset text rest, depth, .items bracket (before ++ [v]) :: frames, .items⟩ := by
  have hbehind : offset text (',' :: rest) + 1 = offset text rest :=
    offset_cons (suffix_of_trimStart_eq h htrim)
  show resume? host text _ v frames (.items bracket before) = _
  rw [resume?_items_offset h rfl, htrim, if_pos List.head?_cons, ← hbehind]

/-- A bracket around items is closed behind an item. -/
theorem step?_close (htrim : trimStart s = bracket.close :: rest) :
    step? host ns text ⟨offset text s, depth, .items bracket before :: frames, .back (.ok v)⟩ =
      some ⟨offset text rest, depth, frames,
        .ofResult (bracket.value host (before ++ [v]) false)⟩ := by
  have hcomma : (bracket.close :: rest).head? ≠ some ',' := by
    cases bracket <;> simp [Bracket.close]
  show resume? host text _ v frames (.items bracket before) = _
  rw [resume?_items_offset h rfl, htrim, if_neg hcomma,
    close_of_cons (suffix_of_trimStart_eq h htrim)]

/-- Behind an item there is neither a comma nor the closing bracket. -/
theorem step?_expected (hcomma : (trimStart s).head? ≠ some ',')
    (hclose : (trimStart s).head? ≠ some bracket.close) :
    step? host ns text ⟨offset text s, depth, .items bracket before :: frames, .back (.ok v)⟩ =
      some ⟨offset text (trimStart s), depth, frames,
        .leave (.error (.raised (offset text (trimStart s)) (.expected bracket.close)))⟩ := by
  show resume? host text _ v frames (.items bracket before) = _
  rw [resume?_items_offset h rfl, if_neg hcomma, close_of_ne hclose]
  rfl

/-- The bracket of a key is closed, and the key is looked up. -/
theorem step?_key_close {container : Value} (htrim : trimStart s = ']' :: rest) :
    step? host ns text ⟨offset text s, depth, .key container :: frames, .back (.ok v)⟩ =
      some ⟨offset text rest, depth, frames, .ofResult (Expr.lookupStep host container v)⟩ := by
  show resume? host text _ v frames (.key container) = _
  rw [resume?_key_offset h rfl, htrim, close_of_cons (suffix_of_trimStart_eq h htrim)]

/-- Behind a key its bracket is not closed. -/
theorem step?_key_expected {container : Value} (hclose : (trimStart s).head? ≠ some ']') :
    step? host ns text ⟨offset text s, depth, .key container :: frames, .back (.ok v)⟩ =
      some ⟨offset text (trimStart s), depth, frames,
        .leave (.error (.raised (offset text (trimStart s)) (.expected ']')))⟩ := by
  show resume? host text _ v frames (.key container) = _
  rw [resume?_key_offset h rfl, close_of_ne hclose]
  rfl

/-- A name behind a dot is looked for among the members. -/
theorem step?_member {name : String} {left : List Char} (htrim : trimStart s = '.' :: rest)
    (hname : readIdentifier (trimStart rest) = .ok (name, left)) :
    left <:+ text ∧ step? host ns text ⟨offset text s, depth, frames, .steps v⟩ =
      some ⟨offset text left, depth, frames, .ofResult (Expr.memberStep v name)⟩ := by
  have hrest := (List.suffix_cons _ _).trans (suffix_of_trimStart_eq h htrim)
  have hscans := scans_readIdentifier (trimStart_suffix_text hrest)
  rw [hname] at hscans
  obtain ⟨hleft, _, rfl, hscan⟩ := hscans
  refine ⟨hleft, ?_⟩
  show steps? text _ v = _
  rw [steps?_offset h rfl, htrim]
  show (scanName? text (offset text (trimStart rest))).map _ = _
  rw [hscan]
  rfl

/-- Behind a dot there is no name. -/
theorem step?_noMember {stuck : Stuck} (htrim : trimStart s = '.' :: rest)
    (hname : readIdentifier (trimStart rest) = .error stuck) :
    step? host ns text ⟨offset text s, depth, frames, .steps v⟩ =
      some ⟨offset text stuck.rest, depth, frames,
        .leave (.error (stuck.failure host ns text))⟩ := by
  have hrest := (List.suffix_cons _ _).trans (suffix_of_trimStart_eq h htrim)
  have hscans := scans_readIdentifier (trimStart_suffix_text hrest)
  rw [hname] at hscans
  obtain ⟨-, hdone, -, hscan⟩ := hscans
  show steps? text _ v = _
  rw [steps?_offset h rfl, htrim, Stuck.failure, hdone]
  show (scanName? text (offset text (trimStart rest))).map _ = _
  rw [hscan]
  rfl

/-- A square bracket behind a value opens a key. -/
theorem step?_openKey (htrim : trimStart s = '[' :: rest) :
    step? host ns text ⟨offset text s, depth, frames, .steps v⟩ =
      some ⟨offset text rest, depth, .key v :: frames, .enter⟩ := by
  show steps? text _ v = _
  rw [steps?_offset h rfl, htrim]
  rfl

/-- A round bracket behind a value opens arguments. -/
theorem step?_openCall (htrim : trimStart s = '(' :: rest) :
    step? host ns text ⟨offset text s, depth, frames, .steps v⟩ =
      some ⟨offset text rest, depth, .items (.call v) [] :: frames, .items⟩ := by
  show steps? text _ v = _
  rw [steps?_offset h rfl, htrim]
  rfl

/-- Behind a value no step begins, and the expression ends. -/
theorem step?_noStep (hdot : ∀ rest, trimStart s ≠ '.' :: rest)
    (hsquare : ∀ rest, trimStart s ≠ '[' :: rest) (hround : ∀ rest, trimStart s ≠ '(' :: rest) :
    step? host ns text ⟨offset text s, depth, frames, .steps v⟩ =
      some ⟨offset text (trimStart s), depth, frames, .leave (.ok v)⟩ := by
  show steps? text _ v = _
  rw [steps?_offset h rfl]
  split
  · exact absurd ‹_› (hdot _)
  · exact absurd ‹_› (hsquare _)
  · exact absurd ‹_› (hround _)
  · rfl

end Steps

/-! ### Runs that follow a reading -/

section Lands

variable (host : Host) (ns : Namespace) (text : List Char)

/-- A run comes to where a reading ends, with its outcome: behind what was read if that has a value,
and somewhere if it fails. -/
def Lands {β : Type} (m : Machine) (depth : Nat) (frames : List Frame)
    (next : Except Failure β → Control) : Except Failure (β × List Char) → Prop
  | .ok (b, rest) =>
    rest <:+ text ∧ Reaches host ns text m ⟨offset text rest, depth, frames, next (.ok b)⟩
  | .error f => ∃ position, Reaches host ns text m ⟨position, depth, frames, next (.error f)⟩

/-- Where an expression is due, the machine does what a reader does. -/
def Mirrors (inner : ExprReader) (depth : Nat) : Prop :=
  ∀ (s : List Char) (frames : List Frame), s <:+ text →
    Lands host ns text ⟨offset text s, depth, frames, .enter⟩ depth frames .back
      (outcome host ns text (Expr.eval host ns) (inner.run s))

end Lands

section Runs

variable {host : Host} {ns : Namespace} {text s rest : List Char} {depth : Nat}
  {frames : List Frame} {inner : ExprReader}

/-- What comes to a run that lands lands there too. -/
theorem Lands.of_reaches {β : Type} {m m' : Machine} {next : Except Failure β → Control}
    {out : Except Failure (β × List Char)} (hrun : Reaches host ns text m m')
    (h : Lands host ns text m' depth frames next out) :
    Lands host ns text m depth frames next out := by
  cases out with
  | ok found => exact ⟨h.1, hrun.trans h.2⟩
  | error f =>
    obtain ⟨position, hlater⟩ := h
    exact ⟨position, hrun.trans hlater⟩

/-- A run lands with a failure when an expression is left with it. -/
theorem lands_of_leave {β : Type} {m : Machine} {next : Except Failure β → Control}
    {out : Except Failure (β × List Char)} {f : Failure} (hout : out = .error f)
    (hnext : next (.error f) = .leave (.error f)) (position : Nat)
    (hrun : Reaches host ns text m ⟨position, depth, frames, .leave (.error f)⟩) :
    Lands host ns text m depth frames next out := by
  rw [hout]
  exact ⟨position, hnext ▸ hrun⟩

section Behind

variable {β : Type} {next : Except Failure β → Control} {out : Except Failure (β × List Char)}
  (hinner : Mirrors host ns text inner depth) (h : s <:+ text)

include hinner h

/-- Behind a bracket, a stuck reading makes the machine leave the bracket with its failure. -/
theorem Mirrors.lands_of_stuck {stuck : Stuck} (hrun : inner.run s = .error stuck) (frame : Frame)
    (hout : out = .error (stuck.failure host ns text))
    (hnext : ∀ f, next (.error f) = .leave (.error f)) :
    Lands host ns text ⟨offset text s, depth, frame :: frames, .enter⟩ depth frames next out := by
  have hlands := hinner s (frame :: frames) h
  rw [hrun] at hlands
  obtain ⟨position, hback⟩ := hlands
  exact lands_of_leave hout (hnext _) position (hback.tail rfl)

/-- Behind a bracket, an expression that is read either has a value, with which the machine comes
back to the bracket, or a failure, with which it leaves the bracket. -/
theorem Mirrors.lands_of_run {e : Expr} (hrun : inner.run s = .ok (e, rest)) (frame : Frame)
    (hfails : ∀ cause, e.eval host ns = .error cause → out = .error (.reported cause))
    (hnext : ∀ f, next (.error f) = .leave (.error f))
    (hback : ∀ v, e.eval host ns = .ok v → rest <:+ text →
      Lands host ns text ⟨offset text rest, depth, frame :: frames, .back (.ok v)⟩ depth frames
        next out) :
    Lands host ns text ⟨offset text s, depth, frame :: frames, .enter⟩ depth frames next out := by
  have hlands := hinner s (frame :: frames) h
  rw [hrun] at hlands
  cases he : e.eval host ns with
  | ok v =>
    rw [outcome_of_ok he] at hlands
    exact .of_reaches hlands.2 (hback v he hlands.1)
  | error cause =>
    rw [outcome_of_error he] at hlands
    obtain ⟨position, hleave⟩ := hlands
    exact lands_of_leave (hfails cause he) (hnext _) position (hleave.tail rfl)

end Behind

/-- **Inside a bracket around items the machine does what reading them does.** -/
theorem lands_items (hinner : Mirrors host ns text inner depth) (bracket : Bracket)
    (before : List Value) (frames : List Frame) (h : s <:+ text) :
    Lands host ns text ⟨offset text s, depth, .items bracket before :: frames, .items⟩ depth frames
      (.ofItems host bracket before)
      (outcome host ns text (itemValues host ns) (readItems inner bracket.close s)) := by
  generalize hclose : bracket.close = close
  fun_induction readItems inner close s generalizing before with
  | case1 s hhead =>
    subst hclose
    obtain ⟨rest, htrim⟩ := List.head?_eq_some_iff.1 hhead
    have hrest := (List.suffix_cons _ _).trans (suffix_of_trimStart_eq h htrim)
    rw [htrim]
    refine ⟨hrest, .single ((step?_items_close h htrim).trans ?_)⟩
    rw [Control.ofItems, List.append_nil]
    rfl
  | case2 s hopen stuck hrun =>
    subst hclose
    exact .of_reaches (.single (step?_items_enter h hopen))
      (hinner.lands_of_stuck (trimStart_suffix_text h) hrun _ rfl fun _ ↦ rfl)
  | case3 s hopen e left hrun more htrim stuck hmore ih =>
    subst hclose
    refine .of_reaches (.single (step?_items_enter h hopen))
      (hinner.lands_of_run (trimStart_suffix_text h) hrun _
        (fun _ he ↦ outcome_after_of_error he _ stuck) (fun _ ↦ rfl) fun v he hleft ↦ ?_)
    have hlater := ih (before ++ [v])
      ((List.suffix_cons _ _).trans (suffix_of_trimStart_eq hleft htrim))
    rw [hmore] at hlater
    rw [outcome_after_of_ok he]
    exact .of_reaches (.single (step?_comma hleft htrim)) hlater
  | case4 s hopen e left hrun more htrim items ended rest hmore ih =>
    subst hclose
    refine .of_reaches (.single (step?_items_enter h hopen))
      (hinner.lands_of_run (trimStart_suffix_text h) hrun _
        (fun _ he ↦ outcome_items_of_error he ended rest) (fun _ ↦ rfl) fun v he hleft ↦ ?_)
    have hlater := ih (before ++ [v])
      ((List.suffix_cons _ _).trans (suffix_of_trimStart_eq hleft htrim))
    rw [hmore] at hlater
    refine .of_reaches (.single (step?_comma hleft htrim)) ?_
    rw [outcome_items_of_ok he]
    cases hitems : outcome host ns text (itemValues host ns) (.ok ((items, ended), rest)) with
    | error f =>
      rw [hitems] at hlater
      exact hlater
    | ok found =>
      rw [hitems] at hlater
      obtain ⟨hrest, hlater⟩ := hlater
      rw [Control.ofItems, List.append_assoc] at hlater
      exact ⟨hrest, hlater⟩
  | case5 s hopen e left hrun hcomma hhead =>
    subst hclose
    refine .of_reaches (.single (step?_items_enter h hopen))
      (hinner.lands_of_run (trimStart_suffix_text h) hrun _
        (fun _ he ↦ outcome_items_of_error he _ _) (fun _ ↦ rfl) fun v he hleft ↦ ?_)
    obtain ⟨rest, htrim⟩ := List.head?_eq_some_iff.1 hhead
    rw [outcome_items_of_ok he, htrim]
    exact ⟨(List.suffix_cons _ _).trans (suffix_of_trimStart_eq hleft htrim),
      .single (step?_close hleft htrim)⟩
  | case6 s hopen e left hrun hcomma hhead =>
    subst hclose
    refine .of_reaches (.single (step?_items_enter h hopen))
      (hinner.lands_of_run (trimStart_suffix_text h) hrun _
        (fun _ he ↦ outcome_after_of_error he _ ⟨[], _, _⟩) (fun _ ↦ rfl) fun v he hleft ↦ ?_)
    have hnext : (trimStart left).head? ≠ some ',' :=
      mt List.head?_eq_some_iff.1 (not_exists.2 hcomma)
    exact lands_of_leave (outcome_after_of_ok he _ ⟨[], _, _⟩) rfl _
      (.single (step?_expected hleft hnext hhead))

theorem eval_member {e : Expr} {v : Value} (he : e.eval host ns = .ok v) (name : String) :
    (Expr.member e name).eval host ns = Expr.memberStep v name := by
  rw [Expr.eval, he]
  rfl

theorem eval_subscript {e key : Expr} {v k : Value} (he : e.eval host ns = .ok v)
    (hkey : key.eval host ns = .ok k) :
    (Expr.subscript e key).eval host ns = Expr.lookupStep host v k := by
  rw [Expr.eval, he, hkey]
  rfl

theorem eval_call {e : Expr} {v : Value} (he : e.eval host ns = .ok v) (args : List Expr) :
    (Expr.call e args).eval host ns =
      (Expr.evalAll host ns args).bind (v.call host ·) := by
  rw [Expr.eval, he]
  rfl

/-- A part of an expression that was evaluated is gone on with, if it has a value. -/
theorem lands_ofResult {e : Expr} {r : Except EvalError Value} (he : e.eval host ns = r)
    (hlands : ∀ v, e.eval host ns = .ok v →
      Lands host ns text ⟨offset text s, depth, frames, .steps v⟩ depth frames .leave
        (outcome host ns text (Expr.eval host ns) (readSteps inner e s))) :
    Lands host ns text ⟨offset text s, depth, frames, .ofResult r⟩ depth frames .leave
      (outcome host ns text (Expr.eval host ns) (readSteps inner e s)) := by
  cases r with
  | ok v => exact hlands v he
  | error cause => exact lands_of_leave (outcome_readSteps_of_error he) rfl _ .refl

/-- **Behind a part of an expression the machine does what reading the steps does.** -/
theorem lands_steps (hinner : Mirrors host ns text inner depth) {e : Expr} {v : Value}
    (he : e.eval host ns = .ok v) (h : s <:+ text) :
    Lands host ns text ⟨offset text s, depth, frames, .steps v⟩ depth frames .leave
      (outcome host ns text (Expr.eval host ns) (readSteps inner e s)) := by
  fun_induction readSteps inner e s generalizing v with
  | case1 e s afterDot htrim stuck hname =>
    exact lands_of_leave (outcome_after_of_ok he _ stuck) rfl _
      (.single (step?_noMember h htrim hname))
  | case2 e s afterDot htrim name rest hname ih =>
    obtain ⟨hrest, hstep⟩ := step?_member h htrim hname
    exact .of_reaches (.single hstep) (lands_ofResult (eval_member he name) fun _ hv ↦ ih hv hrest)
  | case3 e s inside htrim stuck hrun =>
    have hinside := (List.suffix_cons _ _).trans (suffix_of_trimStart_eq h htrim)
    exact .of_reaches (.single (step?_openKey h htrim))
      (hinner.lands_of_stuck hinside hrun _ (outcome_after_of_ok he _ stuck) fun _ ↦ rfl)
  | case4 e s inside htrim key left hrun more hclose ih =>
    have hinside := (List.suffix_cons _ _).trans (suffix_of_trimStart_eq h htrim)
    have hfails (cause : EvalError) (hkey : key.eval host ns = .error cause) :
        (Expr.subscript e key).eval host ns = .error cause := by
      rw [Expr.eval, he, hkey]
      rfl
    refine .of_reaches (.single (step?_openKey h htrim)) (hinner.lands_of_run hinside hrun _
      (fun _ hkey ↦ outcome_readSteps_of_error (hfails _ hkey)) (fun _ ↦ rfl) fun k hkey hleft ↦ ?_)
    have hmore := (List.suffix_cons _ _).trans (suffix_of_trimStart_eq hleft hclose)
    exact .of_reaches (.single (step?_key_close hleft hclose))
      (lands_ofResult (eval_subscript he hkey) fun _ hv ↦ ih hv hmore)
  | case5 e s inside htrim key left hrun hclose =>
    have hinside := (List.suffix_cons _ _).trans (suffix_of_trimStart_eq h htrim)
    let stuck : Stuck := ⟨[], .expected ']', trimStart left⟩
    -- The expression in front has a value, so only the key can fail.
    have hbehind : outcome host ns text (Expr.eval host ns) (.error ((stuck.after key).after e)) =
        .error ((stuck.after key).failure host ns text) := outcome_after_of_ok he _ _
    refine .of_reaches (.single (step?_openKey h htrim)) (hinner.lands_of_run hinside hrun _
      (fun _ hkey ↦ hbehind.trans (outcome_after_of_error hkey (Expr.eval host ns) stuck))
      (fun _ ↦ rfl) fun k hkey hleft ↦ ?_)
    have hnext : (trimStart left).head? ≠ some ']' :=
      mt List.head?_eq_some_iff.1 (not_exists.2 hclose)
    exact lands_of_leave (hbehind.trans (outcome_after_of_ok hkey (Expr.eval host ns) stuck)) rfl _
      (.single (step?_key_expected hleft hnext))
  | case6 e s inside htrim stuck hitems =>
    have hinside := (List.suffix_cons _ _).trans (suffix_of_trimStart_eq h htrim)
    have hlands := lands_items hinner (.call v) [] frames hinside
    rw [Bracket.close, hitems] at hlands
    obtain ⟨position, hleave⟩ := hlands
    exact lands_of_leave (outcome_after_of_ok he _ stuck) rfl position
      (.head (step?_openCall h htrim) hleave)
  | case7 e s inside htrim args ended rest hitems ih =>
    have hinside := (List.suffix_cons _ _).trans (suffix_of_trimStart_eq h htrim)
    have hlands := lands_items hinner (.call v) [] frames hinside
    rw [Bracket.close, hitems, outcome, itemValues] at hlands
    have heval := eval_call he args
    cases hargs : Expr.evalAll host ns args with
    | ok vs =>
      rw [hargs] at hlands heval
      exact .of_reaches (.head (step?_openCall h htrim) hlands.2)
        (lands_ofResult heval fun _ hv ↦ ih hv hlands.1)
    | error cause =>
      rw [hargs] at hlands heval
      obtain ⟨position, hleave⟩ := hlands
      exact lands_of_leave (outcome_readSteps_of_error heval) rfl position
        (.head (step?_openCall h htrim) hleave)
  | case8 e s hdot hsquare hround =>
    have hstop : outcome host ns text (Expr.eval host ns) (.ok (e, trimStart s)) =
        .ok (v, trimStart s) := by rw [outcome, he]
    rw [hstop]
    exact ⟨trimStart_suffix_text h, .single (step?_noStep h hdot hsquare hround)⟩

/-- A literal that is scanned is the one that is read. -/
theorem lands_scanned {m : Machine} {scan : Option (Scanned Value)} {read : Read Expr}
    (hscans : Scans text (fun e v ↦ e.eval host ns = .ok v) scan read)
    (hstep : step? host ns text m = scan.map (m.scanned .ok)) :
    Lands host ns text m m.depth m.frames .ofPart
      (outcome host ns text (Expr.eval host ns) read) := by
  cases read with
  | ok found =>
    obtain ⟨hrest, v, hv, hscan⟩ := hscans
    rw [hscan] at hstep
    rw [outcome, hv]
    exact ⟨hrest, .single hstep⟩
  | error stuck =>
    obtain ⟨-, hdone, -, hscan⟩ := hscans
    rw [hscan] at hstep
    rw [outcome, Stuck.failure, hdone]
    exact ⟨_, .single hstep⟩

theorem eval_readName (s : List Char) : (readName s).1.eval host ns =
    nameValue ns (String.ofList (s.takeWhile isNameChar)) := by
  rw [readName]
  generalize String.ofList (s.takeWhile isNameChar) = name
  dsimp only
  split
  · rfl
  · rfl
  · rfl
  · rename_i hnull htrue hfalse
    rw [Expr.eval, nameValue]
    exacts [hnull, htrue, hfalse]

/-- A name that is scanned where an expression is due is the one that is read. -/
theorem lands_name {m : Machine} {c : Char} (h : c :: rest <:+ text) (hc : isNameStart c = true)
    (hstep : step? host ns text m =
      (scanName? text (offset text (c :: rest))).map (m.scanned (nameValue ns))) :
    Lands host ns text m m.depth m.frames .ofPart
      (outcome host ns text (Expr.eval host ns) (.ok (readName (c :: rest)))) := by
  have hdigit : ¬ c.isDigit = true := fun hdigit ↦ by
    rw [(isNameChar_of_isDigit hdigit).2] at hc
    exact absurd hc (by simp)
  have hname : readIdentifier (c :: rest) = .ok (String.ofList ((c :: rest).takeWhile isNameChar),
      (c :: rest).dropWhile isNameChar) := by
    rw [readIdentifier, List.takeWhile_cons_of_pos (isNameChar_of_isNameStart hc)]
    exact if_neg hdigit
  have hscans := scans_readIdentifier h
  rw [hname] at hscans
  obtain ⟨hleft, _, rfl, hscan⟩ := hscans
  rw [hscan] at hstep
  rw [Option.map_some, scanned] at hstep
  cases hvalue : nameValue ns (String.ofList ((c :: rest).takeWhile isNameChar)) with
  | ok v =>
    rw [hvalue] at hstep
    exact (outcome_of_ok ((eval_readName _).trans hvalue) _).symm ▸ ⟨hleft, .single hstep⟩
  | error cause =>
    rw [hvalue] at hstep
    exact (outcome_of_error ((eval_readName _).trans hvalue) _).symm ▸ ⟨_, .single hstep⟩

/-- An opening bracket leads to what the items inside make of it. -/
theorem lands_bracket (hinner : Mirrors host ns text inner depth) (hrest : rest <:+ text)
    {bracket : Bracket} {whole : List Expr × Bool → Expr}
    (hwhole : ∀ found, (whole found).eval host ns =
      (Expr.evalAll host ns found.1).bind fun vs ↦ bracket.value host vs found.2)
    {m : Machine} (hstep : step? host ns text m =
      some ⟨offset text rest, depth, .items bracket [] :: frames, .items⟩) :
    Lands host ns text m depth frames .ofPart (outcome host ns text (Expr.eval host ns)
      ((readItems inner bracket.close rest).map fun found ↦ (whole found.1, found.2))) := by
  have hlands := lands_items hinner bracket [] frames hrest
  refine .of_reaches (.single hstep) ?_
  cases hitems : readItems inner bracket.close rest with
  | error stuck =>
    rw [hitems] at hlands
    exact hlands
  | ok found =>
    obtain ⟨⟨items, ended⟩, left⟩ := found
    rw [hitems, outcome, itemValues] at hlands
    have heval := hwhole (items, ended)
    show Lands host ns text _ _ _ _
      (outcome host ns text (Expr.eval host ns) (.ok (whole (items, ended), left)))
    cases hvalues : Expr.evalAll host ns items with
    | error cause =>
      rw [hvalues] at hlands heval
      rw [outcome_of_error heval]
      exact hlands
    | ok vs =>
      rw [hvalues] at hlands heval
      obtain ⟨hleft, hrun⟩ := hlands
      rw [Control.ofItems, List.nil_append] at hrun
      cases hvalue : bracket.value host vs ended with
      | ok v =>
        rw [hvalue] at hrun
        rw [outcome_of_ok (heval.trans hvalue)]
        exact ⟨hleft, hrun⟩
      | error cause =>
        rw [hvalue] at hrun
        rw [outcome_of_error (heval.trans hvalue)]
        exact ⟨_, hrun⟩

theorem eval_ofRound (found : List Expr × Bool) : (Expr.ofRound found).eval host ns =
    (Expr.evalAll host ns found.1).bind fun vs ↦ Bracket.round.value host vs found.2 := by
  fun_cases Expr.ofRound found with
  | case1 e =>
    rw [Expr.eval]
    cases he : e.eval host ns with
    | ok v => rw [evalAll_cons_of_ok he]; rfl
    | error cause => rw [evalAll_cons_of_error he]; rfl
  | case2 items ended hsingle =>
    rw [Expr.eval]
    cases hitems : Expr.evalAll host ns items with
    | error cause => rfl
    | ok vs =>
      -- Only a single item without a comma behind it has a value of its own.
      have hlength := length_of_evalAll hitems
      show Except.ok (Value.tuple vs) = Bracket.round.value host vs ended
      rw [Bracket.value.eq_def]
      dsimp only
      split
      · rename_i v
        obtain ⟨e, rfl⟩ := List.length_eq_one_iff.1 hlength.symm
        exact absurd rfl (hsingle e rfl)
      · rfl

theorem eval_list (found : List Expr × Bool) : (Expr.list found.1).eval host ns =
    (Expr.evalAll host ns found.1).bind fun vs ↦ Bracket.square.value host vs found.2 := by
  rw [Expr.eval]
  rfl

theorem readPrimary_ofRound (h : trimStart s = '(' :: rest) : readPrimary inner s =
    (readItems inner ')' rest).map fun found ↦ (Expr.ofRound found.1, found.2) := by
  rw [readPrimary_round h]
  cases readItems inner ')' rest with
  | error stuck => rfl
  | ok found =>
    obtain ⟨⟨items, ended⟩, left⟩ := found
    rcases items with - | ⟨e, - | ⟨e', items⟩⟩
    · rfl
    · cases ended <;> rfl
    · rfl

theorem readPrimary_ofSquare (h : trimStart s = '[' :: rest) : readPrimary inner s =
    (readItems inner ']' rest).map fun found ↦ (Expr.list found.1.1, found.2) := by
  rw [readPrimary_square h]
  cases readItems inner ']' rest <;> rfl

/-- **Where the first part of an expression is due the machine does what reading it does.** -/
theorem lands_primary (hinner : Mirrors host ns text inner depth) (frames : List Frame)
    (h : s <:+ text) :
    Lands host ns text ⟨offset text s, depth, frames, .primary⟩ depth frames .ofPart
      (outcome host ns text (Expr.eval host ns) (readPrimary inner s)) := by
  have hstep : step? host ns text ⟨offset text s, depth, frames, .primary⟩ = primary? ns text _ :=
    rfl
  rw [primary?_offset h rfl] at hstep
  cases htrim : trimStart s with
  | nil =>
    rw [htrim] at hstep
    rw [readPrimary, htrim]
    exact ⟨_, .single hstep⟩
  | cons c rest =>
    have hc := suffix_of_trimStart_eq h htrim
    have hrest : rest <:+ text := (List.suffix_cons c rest).trans hc
    rw [htrim] at hstep
    dsimp only at hstep
    split_ifs at hstep with hname hnumber hquote hround hsquare
    · rw [readPrimary_name htrim hname]
      exact lands_name hc hname hstep
    · rw [Bool.or_eq_true, beq_iff_eq] at hnumber
      rcases hnumber with hdigit | rfl
      · have hsigned : trimStart s = signed false (c :: rest) := htrim
        rw [readPrimary_signed hsigned fun _ ↦ ⟨c, rfl, hdigit⟩]
        exact lands_scanned (scans_readNumber_of_isDigit hc hdigit host ns) hstep
      · have hsigned : trimStart s = signed true rest := htrim
        rw [readPrimary_signed hsigned fun hpositive ↦ absurd hpositive (by simp)]
        exact lands_scanned (scans_readNumber_of_minus hc host ns) hstep
    · rw [readPrimary_string htrim hquote]
      exact lands_scanned (scans_readString hquote hrest host ns) hstep
    · subst hround
      rw [readPrimary_ofRound htrim]
      exact lands_bracket hinner hrest eval_ofRound hstep
    · subst hsquare
      rw [readPrimary_ofSquare htrim]
      exact lands_bracket hinner hrest eval_list hstep
    · rw [Bool.or_eq_true, beq_iff_eq, not_or] at hnumber
      rw [readPrimary, htrim]
      simp only [if_neg hname, if_neg hnumber.1, if_neg hnumber.2, if_neg hquote, if_neg hround,
        if_neg hsquare]
      exact ⟨_, .single hstep⟩

/-- An expression that would be nested too deep is refused. -/
theorem step?_refuse {position : Nat} (hdepth : maxNesting ≤ depth) :
    step? host ns text ⟨position, depth, frames, .enter⟩ =
      some ⟨position, depth, frames, .back (.error (.raised position .tooDeep))⟩ :=
  if_pos hdepth

/-- An expression is begun and counted. -/
theorem step?_enter {position : Nat} (hdepth : depth < maxNesting) :
    step? host ns text ⟨position, depth, frames, .enter⟩ =
      some ⟨position, depth + 1, frames, .primary⟩ :=
  if_neg (Nat.not_le_of_lt hdepth)

/-- An expression that ends is no longer counted, whether it has a value or not. -/
theorem Lands.back {m : Machine} {out : Except Failure (Value × List Char)}
    (h : Lands host ns text m (depth + 1) frames .leave out) :
    Lands host ns text m depth frames .back out := by
  cases out with
  | ok found => exact ⟨h.1, h.2.tail rfl⟩
  | error f =>
    obtain ⟨position, hleave⟩ := h
    exact ⟨position, hleave.tail rfl⟩

/-- **Where an expression is due the machine does what reading it does**, and comes back to the same
brackets with the same counter. -/
theorem mirrors_ofDepth (host : Host) (ns : Namespace) (text : List Char) {allowed depth : Nat}
    (hdepth : depth + allowed = maxNesting) :
    Mirrors host ns text (ExprReader.ofDepth allowed) depth := by
  induction allowed generalizing depth with
  | zero => exact fun s frames h ↦ ⟨_, .single (step?_refuse (Nat.le_of_eq hdepth.symm))⟩
  | succ allowed ih =>
    intro s frames h
    have hinner : Mirrors host ns text (ExprReader.ofDepth allowed) (depth + 1) := ih (by omega)
    refine .back (.of_reaches (.single (step?_enter (by omega))) ?_)
    have hprimary := lands_primary hinner frames h
    rw [ExprReader.run_ofDepth_succ]
    cases hread : readPrimary (ExprReader.ofDepth allowed) s with
    | error stuck =>
      rw [hread] at hprimary
      exact hprimary
    | ok found =>
      obtain ⟨e, rest⟩ := found
      rw [hread] at hprimary
      cases he : e.eval host ns with
      | ok v =>
        rw [outcome_of_ok he] at hprimary
        exact .of_reaches hprimary.2 (lands_steps hinner he hprimary.1)
      | error cause =>
        rw [outcome_of_error he] at hprimary
        obtain ⟨position, hleave⟩ := hprimary
        exact lands_of_leave (outcome_readSteps_of_error he) rfl position hleave

end Runs

end Machine

end LineCompletion
