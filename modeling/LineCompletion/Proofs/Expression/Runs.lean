import LineCompletion.Proofs.Expression.Mirroring

/-!
# Runs of the machine

A run of the machine ends with the value that `evaluateText` gives (`Machine.reaches_finished`). As
a step is a function, every machine that is reached goes on to that end (`Machine.reaches_last`): no
slice fails on the way, or the run would end there.

A text that starts with opening brackets has them opened one after another
(`Machine.exists_reaches_opened`), until an expression is due inside as many as are allowed. What
fails there fails in every bracket around it (`Machine.reaches_failed`).

**What is put together here.** `run_safe` says of every text, host and namespace that evaluating it
ends and that nothing goes wrong on the way. Its parts come from three sides. That there is a last
state, and what value it has, is the agreement with reading and evaluating. What holds of every
state on the way is the invariant that each step keeps (`Machine.Sound`). That an expression is come
back from, with the counter and the brackets as they were, is the agreement once more, begun in the
middle of a run (`Machine.Sound.exists_reaches_back`).

**Nesting.** The limit is on expressions that are begun and have not ended. With as many brackets
open as are allowed, the expression inside the last of them is one too many. That the nesting is
reported too deep only there is a fact about single steps; that it is always reported for a text
with more opening brackets in front is a fact about one run, which is followed bracket by bracket.
The two say together where the limit is.

**No fuel.** A run is a chain of steps, and none of the statements says how many. That it ends is
shown by giving its last state, and as no state has two next ones there is no other run.
-/

namespace LineCompletion

open Text

namespace Machine

/-! ### Whole runs -/

section Whole

variable (host : Host) (ns : Namespace) (text : List Char)

/-- **The machine finishes with the value of the text.** -/
theorem reaches_finished : ∃ position r,
    Reaches host ns text start ⟨position, 0, [], .finished r⟩ ∧
      r.mapError Failure.error = evaluateText host ns text := by
  have hmirrors := mirrors_ofDepth host ns text (Nat.zero_add maxNesting)
  have hlands := hmirrors text [] List.suffix_rfl
  rw [offset_self] at hlands
  rw [evaluateText, readExpr]
  cases hrun : (ExprReader.ofDepth maxNesting).run text with
  | error stuck =>
    rw [hrun] at hlands
    obtain ⟨position, hback⟩ := hlands
    refine ⟨position, _, hback.tail rfl, ?_⟩
    dsimp only
    rw [Stuck.failure]
    cases Expr.evalAll host ns stuck.done <;> rfl
  | ok found =>
    obtain ⟨e, rest⟩ := found
    rw [hrun] at hlands
    dsimp only
    cases he : e.eval host ns with
    | error cause =>
      rw [outcome_of_error he] at hlands
      obtain ⟨position, hback⟩ := hlands
      refine ⟨position, _, hback.tail rfl, ?_⟩
      cases trimStart rest with
      | nil => exact he.symm
      | cons c left =>
        dsimp only
        rw [evalAll_cons_of_error he]
        rfl
    | ok v =>
      rw [outcome_of_ok he] at hlands
      obtain ⟨hrest, hback⟩ := hlands
      refine ⟨_, _, hback.tail (finish?_offset hrest rfl v), ?_⟩
      cases trimStart rest with
      | nil => exact he.symm
      | cons c left =>
        dsimp only
        rw [evalAll_cons_of_ok he]
        rfl

variable {host ns text} {m m' last : Machine}

/-- A machine has one next step at most, so a run that has ended has passed all the others. -/
theorem reaches_last (hlast : last.step? host ns text = none)
    (hend : Reaches host ns text m last) (h : Reaches host ns text m m') :
    Reaches host ns text m' last := by
  have hunique : Relator.RightUnique fun m m' : Machine ↦ m.step? host ns text = some m' :=
    fun _ _ _ hone hother ↦ Option.some.inj (hone.symm.trans hother)
  rcases Relation.ReflTransGen.total_of_right_unique hunique h hend with hgoes | hgoes
  · exact hgoes
  · rcases hgoes.cases_head with rfl | ⟨_, hstep, -⟩
    · exact .refl
    · exact absurd (hlast.symm.trans hstep) (by simp)

/-- A run has one end. -/
theorem eq_of_reaches_finished {position position' : Nat} {r r' : Except Failure Value}
    (h : Reaches host ns text m ⟨position, 0, [], .finished r⟩)
    (h' : Reaches host ns text m ⟨position', 0, [], .finished r'⟩) : r = r' := by
  rcases (reaches_last rfl h h').cases_head with heq | ⟨_, hstep, -⟩
  · exact (Control.finished.inj (Machine.mk.inj heq).2.2.2).symm
  · exact absurd hstep (by simp [step?])

/-! ### Brackets opened at the start -/

section Openings

variable {c : Char} {s : List Char} (hc : c = '(' ∨ c = '[')

include hc

/-- No white space is skipped before an opening bracket. -/
theorem trimStart_opening : trimStart (c :: s) = c :: s := by
  rcases hc with rfl | rfl <;> rfl

/-- No opening bracket closes one. -/
theorem ne_close_of_opening (bracket : Bracket) : c ≠ bracket.close := by
  rcases hc with rfl | rfl <;> cases bracket <;> simp [Bracket.close]

/-- An opening bracket is opened where the first part of an expression is due. -/
theorem exists_step?_open (host : Host) (ns : Namespace) (depth : Nat) (frames : List Frame)
    (h : c :: s <:+ text) :
    ∃ bracket, step? host ns text ⟨offset text (c :: s), depth, frames, .primary⟩ =
      some ⟨offset text s, depth, .items bracket [] :: frames, .items⟩ := by
  have hstep : step? host ns text ⟨offset text (c :: s), depth, frames, .primary⟩ =
      primary? ns text _ := rfl
  rw [primary?_offset h rfl, trimStart_opening hc] at hstep
  rcases hc with rfl | rfl
  · exact ⟨.round, hstep⟩
  · exact ⟨.square, hstep⟩

/-- An opening bracket in front of another one is opened, and an expression is due inside it. -/
theorem exists_reaches_enter {d : Char} (hd : d = '(' ∨ d = '[') {depth : Nat}
    (hdepth : depth < maxNesting) (frames : List Frame) (h : c :: d :: s <:+ text) :
    ∃ frame, Reaches host ns text ⟨offset text (c :: d :: s), depth, frames, .enter⟩
      ⟨offset text (d :: s), depth + 1, frame :: frames, .enter⟩ := by
  obtain ⟨bracket, hopen⟩ := exists_step?_open hc host ns (depth + 1) frames h
  have hrest : d :: s <:+ text := (List.suffix_cons _ _).trans h
  have hitem : (trimStart (d :: s)).head? ≠ some bracket.close := by
    rw [trimStart_opening hd]
    exact fun hhead ↦ ne_close_of_opening hd bracket (Option.some.inj hhead)
  have hinside : step? host ns text
      ⟨offset text (d :: s), depth + 1, .items bracket [] :: frames, .items⟩ =
        some ⟨offset text (d :: s), depth + 1, .items bracket [] :: frames, .enter⟩ :=
    (step?_items_enter hrest hitem).trans (by rw [trimStart_opening hd])
  exact ⟨_, .head (step?_enter hdepth) (.head hopen (.single hinside))⟩

end Openings

/-- Behind opening brackets, as many as may be nested, as many are open. -/
theorem exists_reaches_opened (host : Host) (ns : Namespace) {opening rest : List Char} {c : Char}
    (hopening : ∀ c ∈ opening, c = '(' ∨ c = '[') (hc : c = '(' ∨ c = '[') {depth : Nat}
    (hdepth : depth + opening.length ≤ maxNesting) (frames : List Frame)
    (h : opening ++ c :: rest <:+ text) :
    ∃ opened : List Frame, opened.length = opening.length ∧
      Reaches host ns text ⟨offset text (opening ++ c :: rest), depth, frames, .enter⟩
        ⟨offset text (c :: rest), depth + opening.length, opened ++ frames, .enter⟩ := by
  induction opening generalizing depth frames with
  | nil => exact ⟨[], rfl, .refl⟩
  | cons b opening ih =>
    obtain ⟨hb, hopening⟩ := List.forall_mem_cons.1 hopening
    rw [List.length_cons] at hdepth
    obtain ⟨next, left, hnext, hleft⟩ : ∃ next left, opening ++ c :: rest = next :: left ∧
        (next = '(' ∨ next = '[') := by
      cases opening with
      | nil => exact ⟨c, rest, rfl, hc⟩
      | cons next opening => exact ⟨next, _, rfl, hopening next List.mem_cons_self⟩
    rw [List.cons_append, hnext] at h
    have hbelow : depth < maxNesting := by omega
    have hinner : depth + 1 + opening.length ≤ maxNesting := by omega
    obtain ⟨frame, hframe⟩ := exists_reaches_enter hb hleft hbelow frames h
    obtain ⟨opened, hlength, hopened⟩ :=
      ih hopening hinner (frame :: frames) (hnext ▸ (List.suffix_cons _ _).trans h)
    refine ⟨opened ++ [frame], by simp [hlength], ?_⟩
    rw [List.cons_append, hnext]
    rw [hnext] at hopened
    have hrun := hframe.trans hopened
    rwa [List.append_assoc, List.length_cons, Nat.add_comm opening.length, ← Nat.add_assoc]

/-- What fails outside the first open bracket makes the whole evaluation fail. -/
theorem reaches_failed (host : Host) (ns : Namespace) (text : List Char) (position : Nat)
    (frames : List Frame) (f : Failure) :
    Reaches host ns text ⟨position, frames.length, frames, .back (.error f)⟩
      ⟨position, 0, [], .finished (.error f)⟩ := by
  induction frames with
  | nil => exact .single rfl
  | cons frame frames ih => exact .head rfl (.head rfl ih)

/-- Opening brackets take a byte each. -/
theorem byteLength_opening {opening : List Char} (hopening : ∀ c ∈ opening, c = '(' ∨ c = '[') :
    byteLength opening = opening.length := by
  induction opening with
  | nil => rfl
  | cons c opening ih =>
    obtain ⟨hc, hopening⟩ := List.forall_mem_cons.1 hopening
    have hsize : c.utf8Size = 1 := by rcases hc with rfl | rfl <;> rfl
    rw [byteLength_cons, ih hopening, hsize, List.length_cons, Nat.add_comm]

/-- In front of a text that starts with more opening brackets than may be nested, the machine opens
as many as may be, and then an expression is due. -/
theorem exists_reaches_refusal (host : Host) (ns : Namespace) {opening : List Char}
    (rest : List Char) (hopening : ∀ c ∈ opening, c = '(' ∨ c = '[')
    (hlong : maxNesting < opening.length) :
    ∃ opened : List Frame, opened.length = maxNesting ∧
      Reaches host ns (opening ++ rest) start ⟨maxNesting, maxNesting, opened, .enter⟩ := by
  obtain ⟨nested, c, left, rfl, hlength⟩ : ∃ nested c left, opening = nested ++ c :: left ∧
      nested.length = maxNesting :=
    ⟨opening.take maxNesting, opening[maxNesting], opening.drop (maxNesting + 1), by simp,
      by simp; omega⟩
  have hnested : ∀ c ∈ nested, c = '(' ∨ c = '[' := fun c hc ↦
    hopening c (List.mem_append_left _ hc)
  have hc := hopening c (List.mem_append_right _ List.mem_cons_self)
  have hposition : offset (nested ++ c :: (left ++ rest)) (c :: (left ++ rest)) = maxNesting := by
    rw [offset_append, byteLength_opening hnested, hlength]
  have hdepth : 0 + nested.length ≤ maxNesting := by omega
  obtain ⟨opened, hopened, hrun⟩ := exists_reaches_opened host ns hnested hc hdepth []
    (List.suffix_refl (nested ++ c :: (left ++ rest)))
  rw [offset_self, hposition, hlength, List.append_nil, Nat.zero_add] at hrun
  refine ⟨opened, hopened.trans hlength, ?_⟩
  rw [List.append_assoc, List.cons_append]
  exact hrun

/-- **A text that starts with more opening brackets than may be nested is nested too deep.** -/
theorem evaluateText_of_openings {opening rest : List Char}
    (hopening : ∀ c ∈ opening, c = '(' ∨ c = '[') (hlong : maxNesting < opening.length) :
    evaluateText host ns (opening ++ rest) = .error (.syntaxError maxNesting .tooDeep) := by
  obtain ⟨opened, hopened, hrun⟩ := exists_reaches_refusal host ns rest hopening hlong
  have hfailed := reaches_failed host ns (opening ++ rest) maxNesting opened
    (.raised maxNesting .tooDeep)
  rw [hopened] at hfailed
  obtain ⟨position, r, hlast, hvalue⟩ := reaches_finished host ns (opening ++ rest)
  have hend := hrun.trans (.head (step?_refuse (Nat.le_refl _)) hfailed)
  rw [← hvalue, ← eq_of_reaches_finished hend hlast]
  rfl

end Whole

/-- **A machine that is about to read an expression comes back from it**, with a value or with a
failure, and then its counter and its brackets are what they were. -/
theorem Sound.exists_reaches_back {m : Machine} {text : List Char} (h : m.Sound text)
    (host : Host) (ns : Namespace) (henter : m.control = .enter) :
    ∃ r position, Reaches host ns text m ⟨position, m.depth, m.frames, .back r⟩ := by
  have hdepth : m.depth + (maxNesting - m.depth) = maxNesting := by
    have := h.depth
    have := h.active_le
    omega
  obtain ⟨rest, hrest, hposition⟩ := h.position.exists_offset
  have hlands := mirrors_ofDepth host ns text hdepth rest m.frames hrest
  rw [← hposition, ← henter] at hlands
  generalize outcome host ns text (Expr.eval host ns) _ = out at hlands
  cases out with
  | ok found => exact ⟨.ok found.1, _, hlands.2⟩
  | error f => exact ⟨.error f, hlands⟩

/-- **Evaluating a text ends, and nothing goes wrong on the way.** Every machine on the way goes on
to the same last one, which has the value of the text. Its offset, and that of any problem it finds,
is between two characters of the text; its counter is the number of expressions that are begun, of
which there are never too many; and where an expression is due, the run comes back with the same
counter and the same brackets, whatever becomes of the expression. That the nesting is too deep is
found inside as many open brackets as are allowed, and always if the text starts with more. -/
theorem run_safe (host : Host) (ns : Namespace) (text : List Char) :
    (∃ last r, Reaches host ns text start last ∧ last.control = .finished r ∧
      r.mapError Failure.error = evaluateText host ns text ∧
      ∀ m, Reaches host ns text start m → Reaches host ns text m last) ∧
    (∀ m, Reaches host ns text start m →
      (m.position ≤ byteLength text ∧ AtBoundary text m.position) ∧
      (m.depth = m.active ∧ m.active ≤ maxNesting) ∧
      (∀ p problem, m.control.failure? = some (.raised p problem) →
        p ≤ byteLength text ∧ AtBoundary text p) ∧
      (∀ m' p, m.step? host ns text = some m' → m.control.failure? = none →
        m'.control.failure? = some (.raised p .tooDeep) → maxNesting ≤ m.frames.length) ∧
      (m.control = .enter → ∃ r position,
        Reaches host ns text m ⟨position, m.depth, m.frames, .back r⟩)) ∧
    ∀ opening rest, text = opening ++ rest → (∀ c ∈ opening, c = '(' ∨ c = '[') →
      maxNesting < opening.length →
      evaluateText host ns text = .error (.syntaxError maxNesting .tooDeep) := by
  refine ⟨?_, fun m hrun ↦ ?_, fun opening rest htext hopening hlong ↦
    htext ▸ evaluateText_of_openings hopening hlong⟩
  · obtain ⟨position, r, hlast, hvalue⟩ := reaches_finished host ns text
    exact ⟨_, r, hlast, rfl, hvalue, fun m hrun ↦ reaches_last rfl hlast hrun⟩
  · have hsound := (sound_start text).of_reaches hrun
    refine ⟨⟨hsound.position.le_byteLength, hsound.position⟩, ⟨hsound.depth, hsound.active_le⟩,
      fun p problem hfailure ↦ ?_, fun m' p hstep hcalm hdeep ↦ ?_, fun henter ↦ ?_⟩
    · have hboundary := hsound.failure p problem hfailure
      exact ⟨hboundary.le_byteLength, hboundary⟩
    · obtain ⟨-, hmoves⟩ := moves_of_step? hsound.position hstep
      exact hmoves.of_tooDeep hcalm hdeep hsound.depth
    · exact hsound.exists_reaches_back host ns henter

/-- Behind sixty round brackets and forty square ones a hundred are open, and the next one is
refused. -/
theorem run_safe_of_mixed_brackets :
    let text := List.replicate 60 '(' ++ List.replicate 41 '['
    ∃ opened : List Frame,
      let m : Machine := ⟨maxNesting, maxNesting, opened, .enter⟩
      Reaches Host.bare Namespace.empty text start m ∧
      (m.position ≤ byteLength text ∧ AtBoundary text m.position) ∧
      (m.depth = m.active ∧ m.active ≤ maxNesting) ∧
      m.step? Host.bare Namespace.empty text =
        some { m with control := .back (.error (.raised maxNesting .tooDeep)) } ∧
      maxNesting ≤ opened.length ∧
      (∃ r position, Reaches Host.bare Namespace.empty text m
        ⟨position, maxNesting, opened, .back r⟩) ∧
      evaluateText Host.bare Namespace.empty text = .error (.syntaxError maxNesting .tooDeep) := by
  intro text
  have hopening : ∀ c ∈ text, c = '(' ∨ c = '[' := fun c hc ↦
    (List.mem_append.1 hc).imp List.eq_of_mem_replicate List.eq_of_mem_replicate
  have hlong : maxNesting < text.length := by
    rw [List.length_append, List.length_replicate, List.length_replicate]
    decide
  obtain ⟨opened, -, hrun⟩ :=
    exists_reaches_refusal Host.bare Namespace.empty [] hopening hlong
  rw [List.append_nil] at hrun
  obtain ⟨-, hsafe, hdeep⟩ := run_safe Host.bare Namespace.empty text
  obtain ⟨hposition, hcounter, -, hopen, hback⟩ := hsafe _ hrun
  have hstep : step? Host.bare Namespace.empty text ⟨maxNesting, maxNesting, opened, .enter⟩ = _ :=
    step?_refuse (Nat.le_refl _)
  exact ⟨opened, hrun, hposition, hcounter, hstep,
    hopen _ maxNesting hstep rfl rfl, hback rfl,
    hdeep text [] (List.append_nil _).symm hopening hlong⟩

end Machine

end LineCompletion
