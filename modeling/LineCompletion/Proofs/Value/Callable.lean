import LineCompletion.Value.Access

/-!
# What can be called

Two things are said of calling a value: whether it is callable, which is shown as a hint before
anything is called, and what a call of it gives. Each of them looks for `__call__` on an instance,
and they go on differently from there.

* The hint follows `__call__` from an instance to what its type declares, and from that on as long
  as instances come. A function or a type at the end makes the value callable (`isCallable_iff`,
  where `Callable` is the inductive form of that chain).
* The call looks at `__call__` once, and runs it only if it is a function (`Runs`,
  `exists_notCallable_iff`).

**So the hint promises more than the call keeps.** Whatever runs is callable, but an instance that
is callable through a type or through another instance (`Relays`) cannot be called. These are all
the cases: what is callable either runs or relays, and never both (`callable_iff`,
`Relays.not_runs`). So the two agree for a value exactly if it does not relay
(`isCallable_iff_call_iff`).

**Inheritance makes no difference between the two**, since both look for `__call__` in the same way,
along the ancestors of the type. An attribute of the instance itself named `__call__` is seen by
neither.

A call may fail for other reasons, as a type without a constructor does, and a host function may
report whatever it likes. So what is compared is only whether the call reports that the value cannot
be called, and it is assumed of the host that no function of its own reports that. Functions of the
language never do (`call_function_ne`).

That an instance leads to another one by `__call__` is a chain that ends, as an instance is a finite
tree of values; the induction of `isCallable_iff` is on it.
-/

namespace LineCompletion

namespace Value

/-- A value that passes for callable: a function, a type, or an instance that has such a value for
its `__call__`, declared by its type or by an ancestor. -/
inductive Callable : Value → Prop
  /-- A function is callable. -/
  | function (f : Function) : Callable (.function f)
  /-- A type is callable. -/
  | type (t : TypeDescriptor) : Callable (.type t)
  /-- An instance is if what is declared for it is. -/
  | object {o : Instance} {member : Value} (declared : o.type.findMember "__call__" = some member)
      (h : Callable member) : Callable (.object o)

/-- A value of which a call runs something: a function, a type, or an instance that has a function
for its `__call__`. -/
inductive Runs : Value → Prop
  /-- A call runs the function. -/
  | function (f : Function) : Runs (.function f)
  /-- A call makes an instance, or says why there can be none. -/
  | type (t : TypeDescriptor) : Runs (.type t)
  /-- A call runs the function that is declared for the instance. -/
  | object {o : Instance} {f : Function}
      (declared : o.type.findMember "__call__" = some (.function f)) : Runs (.object o)

/-- An instance that is callable through something else than a function. -/
inductive Relays : Value → Prop
  /-- Through a type. -/
  | type {o : Instance} {t : TypeDescriptor}
      (declared : o.type.findMember "__call__" = some (.type t)) : Relays (.object o)
  /-- Through an instance. -/
  | object {o next : Instance} (declared : o.type.findMember "__call__" = some (.object next))
      (h : Callable (.object next)) : Relays (.object o)

/-! ### The hint -/

/-- An instance is callable if what is declared for it is. -/
theorem isCallable_object {o : Instance} {member : Value}
    (declared : o.type.findMember "__call__" = some member) :
    (Value.object o).isCallable = member.isCallable := by
  obtain ⟨serial, t, attributes⟩ := o
  rw [isCallable]
  split
  · rename_i found hfound
    rw [Option.some.inj (hfound.symm.trans declared)]
  · rename_i hnone
    exact absurd (hnone.symm.trans declared) (by simp)

/-- An instance without a `__call__` is not callable. -/
theorem isCallable_object_of_none {o : Instance} (h : o.type.findMember "__call__" = Option.none) :
    (Value.object o).isCallable = false := by
  obtain ⟨serial, t, attributes⟩ := o
  rw [isCallable]
  split
  · rename_i found hfound
    exact absurd (hfound.symm.trans h) (by simp)
  · rfl

/-- What the hint calls callable has a function or a type at the end of the chain. -/
theorem callable_of_isCallable {v : Value} (h : v.isCallable = true) : v.Callable := by
  match v with
  | .function f => exact .function f
  | .type t => exact .type t
  | .object o =>
    match hmember : o.type.findMember "__call__" with
    | some member =>
      rw [isCallable_object hmember] at h
      exact .object hmember (callable_of_isCallable h)
    | Option.none =>
      rw [isCallable_object_of_none hmember] at h
      exact absurd h (by simp)
  | .none | .bool _ | .int _ | .float _ | .str _ | .bytes _ | .list _ | .tuple _ | .dict _
  | .set _ => exact absurd h (by simp [isCallable])
termination_by sizeOf v
decreasing_by
  have hsize := sizeOf_lt_of_findMember_call hmember
  obtain ⟨serial, t, attributes⟩ := o
  simp only [object.sizeOf_spec, Instance.mk.sizeOf_spec]
  simp only [Instance.type] at hsize
  omega

/-- **The hint follows `__call__` to its end.** -/
theorem isCallable_iff {v : Value} : v.isCallable = true ↔ v.Callable := by
  refine ⟨callable_of_isCallable, fun h ↦ ?_⟩
  induction h with
  | function f => rw [isCallable]
  | type t => rw [isCallable]
  | object declared h ih => rwa [isCallable_object declared]

/-! ### The call -/

/-- An instance with a function for its `__call__` calls it with itself in front. -/
theorem call_object_of_function (host : Host) {o : Instance} {f : Function}
    (declared : o.type.findMember "__call__" = some (.function f)) (args : List Value) :
    (Value.object o).call host args = f.call host (.object o :: args) := by
  rw [call, declared]

/-- An instance with anything else, or nothing, reports that it cannot be called. -/
theorem call_object_of_ne (host : Host) {o : Instance}
    (h : ∀ f, o.type.findMember "__call__" ≠ some (.function f)) (args : List Value) :
    (Value.object o).call host args = .error (.notCallable (Value.object o).typeName) := by
  rw [call]
  split
  · rename_i f declared
    exact absurd declared (h f)
  · rfl

section Call

variable {host : Host}
  (hhost : ∀ serial args name, host.call serial args ≠ .error (.notCallable name))

include hhost

/-- A function does not report that it cannot be called. -/
theorem call_function_ne (f : Function) (args : List Value) (name : String) :
    f.call host args ≠ .error (.notCallable name) := by
  cases f with
  | host _ serial => exact hhost serial args name
  | builtin | method => simp [Function.call]

/-- **A call reports that the value cannot be called just when it has nothing to run.** -/
theorem exists_notCallable_iff (v : Value) (args : List Value) :
    (∃ name, v.call host args = .error (.notCallable name)) ↔ ¬ v.Runs := by
  constructor
  · rintro ⟨name, hcall⟩ (f | t | declared)
    · exact call_function_ne hhost _ _ _ hcall
    · rw [call] at hcall
      split at hcall <;> exact absurd hcall (by simp)
    · rw [call_object_of_function host declared] at hcall
      exact call_function_ne hhost _ _ _ hcall
  · intro hruns
    refine ⟨v.typeName, ?_⟩
    cases v with
    | function f => exact absurd (.function f) hruns
    | type t => exact absurd (.type t) hruns
    | object o => exact call_object_of_ne host (fun f declared ↦ hruns (.object declared)) args
    | _ => rfl

end Call

/-- What runs is callable, and what is callable runs unless it goes through another value. -/
theorem callable_iff {v : Value} : v.Callable ↔ v.Runs ∨ v.Relays := by
  constructor
  · rintro (f | t | @⟨o, member, declared, h⟩)
    · exact .inl (.function f)
    · exact .inl (.type t)
    · cases h with
      | function f => exact .inl (.object declared)
      | type t => exact .inr (.type declared)
      | object further h => exact .inr (.object declared (.object further h))
  · rintro ((f | t | declared) | (declared | ⟨declared, h⟩))
    · exact .function f
    · exact .type t
    · exact .object declared (.function _)
    · exact .object declared (.type _)
    · exact .object declared h

/-- A value that goes through another one does not run. -/
theorem Relays.not_runs {v : Value} (h : v.Relays) : ¬ v.Runs := by
  intro hruns
  cases h with
  | type declared | object declared _ =>
    cases hruns with
    | object hfunction => exact absurd (declared.symm.trans hfunction) (by simp)

/-- **The hint and the call agree except for instances that are callable through a type or an
instance.** No host function itself reports that a value cannot be called. Then a value is callable
if calling it does not report that. The other way round this holds, whatever the arguments, if and
only if the value is not an instance whose `__call__` is a type or a callable instance. -/
theorem isCallable_iff_call_iff {host : Host}
    (hhost : ∀ serial args name, host.call serial args ≠ .error (.notCallable name)) (v : Value)
    (args : List Value) :
    ((∀ name, v.call host args ≠ .error (.notCallable name)) → v.isCallable = true) ∧
      ((v.isCallable = true ↔ ∀ name, v.call host args ≠ .error (.notCallable name)) ↔
        ¬ v.Relays) := by
  have hcall : (∀ name, v.call host args ≠ .error (.notCallable name)) ↔ v.Runs := by
    have hfails := exists_notCallable_iff hhost v args
    rw [← Classical.not_not (a := v.Runs), ← hfails, not_exists]
  rw [hcall, isCallable_iff, callable_iff]
  refine ⟨.inl, fun h hrelays ↦ hrelays.not_runs (h.1 (.inr hrelays)), fun hrelays ↦ ?_⟩
  rw [or_iff_left hrelays]

/-- An instance that inherits its `__call__`, and is passed to it. -/
theorem isCallable_of_inherited_call :
    let host : Host :=
      { Host.bare with call := fun _ args ↦ .ok (.int (Int64.ofNat args.length)) }
    let base : TypeDescriptor :=
      .mk (.declared "Base" 0) [] [("__call__", .function (.host "__call__" 0))] Option.none
    let counter : TypeDescriptor := .mk (.declared "Counter" 1) [base] [] Option.none
    let v := Value.object (.mk (some 0) counter [])
    (∀ serial args name, host.call serial args ≠ .error (.notCallable name)) ∧
      v.call host [.none] = .ok (.int 2) ∧ v.isCallable = true := by
  intro host base counter v
  have hhost : ∀ serial args name, host.call serial args ≠ .error (.notCallable name) :=
    fun serial args name ↦ by simp [host]
  have hancestors : counter.ancestors = [counter, base, objectType] := by
    simp [TypeDescriptor.ancestors, TypeDescriptor.walk, counter, base, TypeDescriptor.identity,
      TypeDescriptor.bases, objectIdentity]
  have declared : counter.findMember "__call__" = some (.function (.host "__call__" 0)) := by
    rw [TypeDescriptor.findMember, hancestors]
    rfl
  have hcall : v.call host [.none] = .ok (.int 2) :=
    call_object_of_function host (o := .mk (some 0) counter []) declared [.none]
  refine ⟨hhost, hcall, (isCallable_iff_call_iff hhost v [.none]).1 fun name ↦ ?_⟩
  rw [hcall]
  simp

/-- An instance whose `__call__` is a type: it is callable, and cannot be called. -/
theorem exists_callable_ne_call :
    let point : TypeDescriptor := .mk (.declared "Point" 0) [] [] Option.none
    let maker : TypeDescriptor :=
      .mk (.declared "Maker" 1) [] [("__call__", .type point)] Option.none
    let v := Value.object (.mk (some 0) maker [])
    (∀ serial args name, Host.bare.call serial args ≠ .error (.notCallable name)) ∧
      v.isCallable = true ∧ v.call Host.bare [] = .error (.notCallable "Maker") := by
  intro point maker v
  have hancestors : maker.ancestors = [maker, objectType] := by
    simp [TypeDescriptor.ancestors, TypeDescriptor.walk, maker, TypeDescriptor.identity,
      TypeDescriptor.bases, objectIdentity]
  have declared : maker.findMember "__call__" = some (.type point) := by
    rw [TypeDescriptor.findMember, hancestors]
    rfl
  refine ⟨fun serial args name ↦ by simp [Host.bare], ?_, ?_⟩
  · exact isCallable_iff.2 (.object declared (.type point))
  · refine call_object_of_ne Host.bare (fun f hfunction ↦ ?_) []
    exact absurd (declared.symm.trans hfunction) (by simp)

end Value

end LineCompletion
