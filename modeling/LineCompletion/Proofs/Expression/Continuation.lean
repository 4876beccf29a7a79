import LineCompletion.Expression.Evaluation
import LineCompletion.Proofs.Expression.Grammar

/-!
# Going on with an expression

A text that is read as an expression may be gone on with: a member or a subscript behind it makes a
text that is read as that step of the same expression, whatever the first text was. So what the
longer text gives is what the step gives for the value of the shorter one (`evaluate_member`,
`evaluate_subscript`). It is the grammar that says so: a text that is read spells an expression, and
so does the spelling of it with the step behind.

**What this is for.** Completion offers a member of a value, or a key that it holds, by writing the
step behind the text that has the value. What is offered should have a value too, and it should be
the one that was seen. That is a statement on two texts, and neither of them is known but by what it
evaluates to. With the two equations here the text can be forgotten: what is left to show is about
the value and the step.

**What is asked of the first text.** It has a value, and nothing else. It may end in white space or
in a bracket, it may be a number, and its brackets may be nested as deeply as can be read, since a
step behind it is outside of them. A key is inside brackets of its own, and so it is nested one
level less deeply than is read (`evaluate_subscript`). For a member no white space is put before the
dot or behind it, although the grammar would allow that.
-/

namespace LineCompletion

open Text

/-! ### Reading -/

/-- A text with a dot and a name behind it is read as that member. -/
theorem readExpr_member {base name : List Char} {e : Expr} (h : readExpr base = .ok e)
    (hname : MemberName name) :
    readExpr (base ++ '.' :: name) = .ok (.member e (String.ofList name)) := by
  obtain ⟨hnesting, before, t, after, rfl, hbefore, ht, hafter⟩ := readExpr_eq_ok_iff.1 h
  refine readExpr_eq_ok_iff.2 ⟨hnesting, before, t ++ after ++ '.' :: [] ++ name, [], ?_, hbefore,
    .member ht hafter blank_nil hname, blank_nil⟩
  simp

/-- A text with a key in square brackets behind it is read as that subscript. -/
theorem readExpr_subscript {base before t after : List Char} {e key : Expr}
    (h : readExpr base = .ok e) (hbefore : Blank before) (ht : Spells key t)
    (hnesting : key.nesting + 1 < maxNesting) (hafter : Blank after) :
    readExpr (base ++ '[' :: before ++ t ++ after ++ [']']) = .ok (.subscript e key) := by
  obtain ⟨hbase, first, s, gap, rfl, hfirst, hs, hgap⟩ := readExpr_eq_ok_iff.1 h
  refine readExpr_eq_ok_iff.2 ⟨Nat.max_lt.2 ⟨hbase, hnesting⟩, first,
    s ++ gap ++ '[' :: before ++ t ++ after ++ [']'], [], ?_, hfirst,
    .subscript hs hgap hbefore ht hafter, blank_nil⟩
  simp

/-! ### Evaluating -/

section Evaluate

variable {host : Host} {ns : Namespace}

/-- A text has a value when it is read as an expression that has it. -/
theorem evaluate_eq_ok_iff {s : List Char} {v : Value} :
    Evaluator.standard host (String.ofList s) ns = .ok v ↔
      ∃ e, readExpr s = .ok e ∧ e.eval host ns = .ok v := by
  rw [Evaluator.standard, String.toList_ofList, evaluateText]
  cases hread : readExpr s with
  | ok e => exact ⟨fun h ↦ ⟨e, rfl, h⟩, fun ⟨_, he, h⟩ ↦ Except.ok.inj he ▸ h⟩
  | error stuck =>
    -- Whether or not the expressions before the problem have values, the text has none.
    constructor
    · intro h
      cases hdone : Expr.evalAll host ns stuck.done <;> simp only [hdone] at h <;> cases h
    · rintro ⟨e, he, -⟩
      exact absurd he (by simp)

/-- A text that is read gives what its expression gives. -/
theorem evaluate_of_readExpr {s : List Char} {e : Expr} (h : readExpr s = .ok e) :
    Evaluator.standard host (String.ofList s) ns = e.eval host ns := by
  rw [Evaluator.standard, String.toList_ofList, evaluateText, h]

/-- A member step succeeds exactly if the value has the member. -/
theorem Expr.memberStep_eq_ok_iff {v found : Value} {name : String} :
    memberStep v name = .ok found ↔ v.member? name = some found := by
  rw [memberStep]
  cases v.member? name <;> simp

/-- A subscript step succeeds exactly if the value holds the key. -/
theorem Expr.lookupStep_eq_ok_iff {v key found : Value} :
    lookupStep host v key = .ok found ↔ v.lookup host key = .ok found := by
  rw [lookupStep]
  cases v.lookup host key <;> simp [Except.mapError]

variable {base : List Char} {v : Value}

/-- A name behind a dot asks the value of what comes before for a member. -/
theorem evaluate_member (h : Evaluator.standard host (String.ofList base) ns = .ok v)
    {name : List Char} (hname : MemberName name) :
    Evaluator.standard host (String.ofList (base ++ '.' :: name)) ns =
      Expr.memberStep v (String.ofList name) := by
  obtain ⟨e, he, hv⟩ := evaluate_eq_ok_iff.1 h
  rw [evaluate_of_readExpr (readExpr_member he hname), Expr.eval, hv]
  rfl

/-- A key between square brackets looks it up in the value of what comes before. -/
theorem evaluate_subscript (h : Evaluator.standard host (String.ofList base) ns = .ok v)
    {before t after : List Char} {key : Expr} {k : Value} (hbefore : Blank before)
    (ht : Spells key t) (hnesting : key.nesting + 1 < maxNesting) (hafter : Blank after)
    (hk : key.eval host ns = .ok k) :
    Evaluator.standard host (String.ofList (base ++ '[' :: before ++ t ++ after ++ [']'])) ns =
      Expr.lookupStep host v k := by
  obtain ⟨e, he, hv⟩ := evaluate_eq_ok_iff.1 h
  rw [evaluate_of_readExpr (readExpr_subscript he hbefore ht hnesting hafter), Expr.eval, hv]
  show (key.eval host ns).bind _ = _
  rw [hk]
  rfl

end Evaluate

end LineCompletion
