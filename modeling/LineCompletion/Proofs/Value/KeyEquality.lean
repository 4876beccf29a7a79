import LineCompletion.Proofs.Number.WholeNumbers
import LineCompletion.Value.Equality
import Mathlib.Data.List.Induction
import Mathlib.Data.List.Perm.Subperm
import Mathlib.Tactic.Choose

/-!
# Equality of keys as a relation

When two values are the same key, and what follows for sets. `SameKey` says it by the kinds of
values, one constructor for each pair of kinds that are compared, and is what the program decides
(`keyEq_iff`). Two values of kinds that no constructor pairs are never the same key.

**The relation is symmetric** (`SameKey.symm`), and it is reflexive on whatever can be a key and
holds nothing that is not a number (`keyEq_self`).

**It is transitive but for numbers**, where it fails in two ways:

* a floating-point number may be nearest to two integers, and equals both;
* a truth value equals an integer but not the floating-point number that the integer equals.

`Torn` says where in three values one of these happens, in tuples too, and `torn_iff` that nothing
else does: three values are torn just when the first equals the second and the second the third, but
not the first the third. One direction comes from `SameKey.trans_or_torn`, by the constructors of
both equalities at once, and the other from `Torn.not_sameKey`.

**A set keeps some of its values that stand for all**: no two of them equal, and every value equal
to one of them (`represents_kept`, by induction on the values with the last one apart). This holds
whether or not any are torn. Where no three values are torn it leaves no choice but of which value
stands for a class, so exactly one is kept of each (`Represents.countP_eq_one`), and as many in any
order (`Represents.length_le`). Where three are torn the set keeps one or two of them, by which
comes first (`Torn.kept_eq`). So each of these properties, asked of every selection of the values,
is equivalent to there being no torn ones, and `keyEq_equivalence_iff` collects them.

No three values are torn that hold no truth values and no integers beyond two to the power of 53
(`noneTorn_of_exact`), since floating-point numbers tell such integers apart. The condition is
sufficient and not necessary; the exact one is `NoneTorn` itself.

Instances and functions are compared by what tells them apart, which is an equivalence whatever that
is, so nothing here turns on how instances come about.
-/

namespace LineCompletion

namespace Value

/-! ### Keys without what is not a number -/

mutual

/-- Whether a key is free of floating-point numbers that are not numbers, in tuples too. -/
def isNaNFree : Value → Bool
  | float x => !x.isNaN
  | tuple items => areNaNFree items
  | _ => true

/-- Whether every one of some keys is free of them. -/
def areNaNFree : List Value → Bool
  | [] => true
  | v :: rest => isNaNFree v && areNaNFree rest

end

/-! ### When values are the same key -/

mutual

/-- Two values are the same key. -/
inductive SameKey : Value → Value → Prop
  /-- The null value is. -/
  | none : SameKey .none .none
  /-- A truth value equals itself. -/
  | bool (b : Bool) : SameKey (.bool b) (.bool b)
  /-- An integer equals itself. -/
  | int (i : Int64) : SameKey (.int i) (.int i)
  /-- Floating-point numbers are compared as such. -/
  | float {x y : Binary64} (h : x.equals y = true) : SameKey (.float x) (.float y)
  /-- An integer equals the floating-point number nearest to it. -/
  | intFloat {i : Int64} {x : Binary64} (h : (Binary64.ofInt i.toInt).equals x = true) :
      SameKey (.int i) (.float x)
  /-- And the other way round. -/
  | floatInt {i : Int64} {x : Binary64} (h : (Binary64.ofInt i.toInt).equals x = true) :
      SameKey (.float x) (.int i)
  /-- A truth value equals zero or one. -/
  | boolInt {b : Bool} {i : Int64} (h : b.toInt = i.toInt) : SameKey (.bool b) (.int i)
  /-- And the other way round. -/
  | intBool {b : Bool} {i : Int64} (h : b.toInt = i.toInt) : SameKey (.int i) (.bool b)
  /-- A text equals itself. -/
  | str (text : String) : SameKey (.str text) (.str text)
  /-- A byte string equals itself. -/
  | bytes (data : List UInt8) : SameKey (.bytes data) (.bytes data)
  /-- Tuples are compared item by item. -/
  | tuple {as bs : List Value} (h : SameKeys as bs) : SameKey (.tuple as) (.tuple bs)
  /-- A function equals itself. -/
  | function (f : Function) : SameKey (.function f) (.function f)
  /-- Types are compared by what tells them apart. -/
  | type {t u : TypeDescriptor} (h : t.identity = u.identity) : SameKey (.type t) (.type u)
  /-- So are instances. -/
  | object {o p : Instance} (hserial : o.serial = p.serial)
      (htype : o.type.identity = p.type.identity) : SameKey (.object o) (.object p)

/-- Two sequences hold the same keys in the same places. -/
inductive SameKeys : List Value → List Value → Prop
  /-- Both are at their end. -/
  | nil : SameKeys [] []
  /-- They begin with the same key. -/
  | cons {a b : Value} {as bs : List Value} (h : SameKey a b) (hrest : SameKeys as bs) :
      SameKeys (a :: as) (b :: bs)

end

mutual

/-- What is the same key is compared as equal. -/
theorem SameKey.keyEq_eq : ∀ {a b : Value}, SameKey a b → keyEq a b = true
  | _, _, .none => rfl
  | _, _, .bool b | _, _, .int b | _, _, .str b | _, _, .bytes b | _, _, .function b =>
    beq_self_eq_true b
  | _, _, .float h | _, _, .intFloat h | _, _, .floatInt h => h
  | _, _, .boolInt h | _, _, .intBool h | _, _, .type h => beq_iff_eq.2 h
  | _, _, .tuple h => h.keyEqAll_eq
  | _, _, .object hserial htype =>
    Bool.and_eq_true_iff.2 ⟨beq_iff_eq.2 hserial, beq_iff_eq.2 htype⟩

/-- So it is for all places of two sequences. -/
theorem SameKeys.keyEqAll_eq : ∀ {as bs : List Value}, SameKeys as bs → keyEqAll as bs = true
  | _, _, .nil => rfl
  | _, _, .cons h hrest => Bool.and_eq_true_iff.2 ⟨h.keyEq_eq, hrest.keyEqAll_eq⟩

end

/-- What is compared as equal is the same key. The induction follows the comparison. -/
theorem SameKey.of_keyEq {a b : Value} : keyEq a b = true → SameKey a b := by
  -- One case for each equation of `keyEq` and `keyEqAll`, in their order.
  refine keyEq.induct_unfolding (fun a b r ↦ r = true → SameKey a b)
    (fun as bs r ↦ r = true → SameKeys as bs)
    (fun _ ↦ .none)
    (fun b _ h ↦ eq_of_beq h ▸ .bool b)
    (fun i _ h ↦ eq_of_beq h ▸ .int i)
    (fun _ _ h ↦ .float h)
    (fun _ _ h ↦ .intFloat h)
    (fun _ _ h ↦ .floatInt h)
    (fun _ _ h ↦ .boolInt (eq_of_beq h))
    (fun _ _ h ↦ .intBool (eq_of_beq h))
    (fun text _ h ↦ eq_of_beq h ▸ .str text)
    (fun data _ h ↦ eq_of_beq h ▸ .bytes data)
    (fun _ _ ih h ↦ .tuple (ih h))
    (fun f _ h ↦ eq_of_beq h ▸ .function f)
    (fun _ _ h ↦ .type (eq_of_beq h))
    ?object ?others (fun _ ↦ .nil) ?cons ?otherLists a b
  case object =>
    intro o p h
    obtain ⟨hserial, htype⟩ := Bool.and_eq_true_iff.1 h
    exact .object (eq_of_beq hserial) (eq_of_beq htype)
  case cons =>
    intro a as b bs ih ihs h
    obtain ⟨hhead, hrest⟩ := Bool.and_eq_true_iff.1 h
    exact .cons (ih hhead) (ihs hrest)
  case others | otherLists =>
    intros
    contradiction

/-- **The comparison decides when two values are the same key.** -/
theorem keyEq_iff {a b : Value} : keyEq a b = true ↔ SameKey a b := ⟨.of_keyEq, SameKey.keyEq_eq⟩

/-! ### What always holds -/

mutual

/-- The same key in either order. -/
theorem SameKey.symm : ∀ {a b : Value}, SameKey a b → SameKey b a
  | _, _, .none => .none
  | _, _, .bool b => .bool b
  | _, _, .int i => .int i
  | _, _, .float h => .float (Binary64.equals_symm h)
  | _, _, .intFloat h => .floatInt h
  | _, _, .floatInt h => .intFloat h
  | _, _, .boolInt h => .intBool h
  | _, _, .intBool h => .boolInt h
  | _, _, .str text => .str text
  | _, _, .bytes data => .bytes data
  | _, _, .tuple h => .tuple h.symm
  | _, _, .function f => .function f
  | _, _, .type h => .type h.symm
  | _, _, .object hserial htype => .object hserial.symm htype.symm

/-- The same keys in either order. -/
theorem SameKeys.symm : ∀ {as bs : List Value}, SameKeys as bs → SameKeys bs as
  | _, _, .nil => .nil
  | _, _, .cons h hrest => .cons h.symm hrest.symm

end

/-- Which of two values comes first does not matter. -/
theorem keyEq_comm (a b : Value) : keyEq a b = keyEq b a :=
  Bool.eq_iff_iff.2 <| keyEq_iff.trans <| .trans ⟨SameKey.symm, SameKey.symm⟩ keyEq_iff.symm

mutual

/-- What can be a key is the same key as itself, unless it holds what is not a number. -/
theorem sameKey_self : ∀ {v : Value}, isHashable v = true → isNaNFree v = true → SameKey v v
  | .none, _, _ => .none
  | .bool b, _, _ => .bool b
  | .int i, _, _ => .int i
  | .float _, _, h => .float (Binary64.equals_self (Bool.not_eq_true' _ ▸ h))
  | .str text, _, _ => .str text
  | .bytes data, _, _ => .bytes data
  | .tuple _, h, h' => .tuple (sameKeys_self h h')
  | .function f, _, _ => .function f
  | .type _, _, _ => .type rfl
  | .object _, _, _ => .object rfl rfl

/-- So it is for all places of a sequence. -/
theorem sameKeys_self :
    ∀ {vs : List Value}, isHashableAll vs = true → areNaNFree vs = true → SameKeys vs vs
  | [], _, _ => .nil
  | _ :: _, h, h' =>
    have ⟨hhead, hrest⟩ := Bool.and_eq_true_iff.1 h
    have ⟨hhead', hrest'⟩ := Bool.and_eq_true_iff.1 h'
    .cons (sameKey_self hhead hhead') (sameKeys_self hrest hrest')

end

/-- What can be a key equals itself, unless it holds what is not a number. -/
theorem keyEq_self {v : Value} (h : v.isHashable = true) (h' : v.isNaNFree = true) :
    keyEq v v = true :=
  (sameKey_self h h').keyEq_eq

/-! ### Where two equalities do not make a third -/

mutual

/-- The first value equals the second and the second the third, but the first is not the third. -/
inductive Torn : Value → Value → Value → Prop
  /-- One floating-point number is nearest to two integers. -/
  | rounded {i j : Int64} {x : Binary64} (hne : i ≠ j)
      (h : (Binary64.ofInt i.toInt).equals x = true)
      (h' : (Binary64.ofInt j.toInt).equals x = true) : Torn (.int i) (.float x) (.int j)
  /-- A truth value equals an integer, but no floating-point number. -/
  | boolFloat {b : Bool} {i : Int64} {x : Binary64} (h : b.toInt = i.toInt)
      (h' : (Binary64.ofInt i.toInt).equals x = true) : Torn (.bool b) (.int i) (.float x)
  /-- And the other way round. -/
  | floatBool {b : Bool} {i : Int64} {x : Binary64} (h : (Binary64.ofInt i.toInt).equals x = true)
      (h' : b.toInt = i.toInt) : Torn (.float x) (.int i) (.bool b)
  /-- The items of three tuples at one place are torn. -/
  | tuple {as bs cs : List Value} (h : AnyTorn as bs cs) : Torn (.tuple as) (.tuple bs) (.tuple cs)

/-- Two sequences are the same keys as a third, and at some place the three are torn. -/
inductive AnyTorn : List Value → List Value → List Value → Prop
  /-- They are at the first place. -/
  | head {a b c : Value} {as bs cs : List Value} (h : Torn a b c) (hrest : SameKeys as bs)
      (hrest' : SameKeys bs cs) : AnyTorn (a :: as) (b :: bs) (c :: cs)
  /-- They are behind it. -/
  | tail {a b c : Value} {as bs cs : List Value} (h : SameKey a b) (h' : SameKey b c)
      (hrest : AnyTorn as bs cs) : AnyTorn (a :: as) (b :: bs) (c :: cs)

end

mutual

/-- **Two equalities make a third, or the three values are torn.** -/
theorem SameKey.trans_or_torn :
    ∀ {a b c : Value}, SameKey a b → SameKey b c → SameKey a c ∨ Torn a b c
  | _, _, _, .none, h' | _, _, _, .bool _, h' | _, _, _, .int _, h' | _, _, _, .str _, h'
  | _, _, _, .bytes _, h' | _, _, _, .function _, h' => .inl h'
  | _, _, _, .float h, .float h' => .inl (.float (Binary64.equals_trans h h'))
  | _, _, _, .float h, .floatInt h' =>
    .inl (.floatInt (Binary64.equals_trans h' (Binary64.equals_symm h)))
  | _, _, _, .intFloat h, .float h' => .inl (.intFloat (Binary64.equals_trans h h'))
  | _, _, _, .intFloat (i := i) h, .floatInt (i := j) h' =>
    if heq : i = j then .inl (heq ▸ .int i) else .inr (.rounded heq h h')
  | _, _, _, .floatInt h, .int _ => .inl (.floatInt h)
  | _, _, _, .floatInt h, .intFloat h' =>
    .inl (.float (Binary64.equals_trans (Binary64.equals_symm h) h'))
  | _, _, _, .floatInt h, .intBool h' => .inr (.floatBool h h')
  | _, _, _, .boolInt h, .int _ => .inl (.boolInt h)
  | _, _, _, .boolInt h, .intFloat h' => .inr (.boolFloat h h')
  | _, _, _, .boolInt (b := b) h, .intBool (b := d) h' =>
    have heq : b = d := (by decide : ∀ b d : Bool, b.toInt = d.toInt → b = d) b d (h.trans h'.symm)
    .inl (heq ▸ .bool b)
  | _, _, _, .intBool h, .bool _ => .inl (.intBool h)
  | _, _, _, .intBool (i := i) h, .boolInt (i := j) h' =>
    have heq : i = j := Int64.toInt_inj.1 (h.symm.trans h')
    .inl (heq ▸ .int i)
  | _, _, _, .tuple h, .tuple h' => (h.trans_or_anyTorn h').imp .tuple .tuple
  | _, _, _, .type h, .type h' => .inl (.type (h.trans h'))
  | _, _, _, .object hserial htype, .object hserial' htype' =>
    .inl (.object (hserial.trans hserial') (htype.trans htype'))

/-- Two equalities of sequences make a third, or some place of the three is torn. -/
theorem SameKeys.trans_or_anyTorn :
    ∀ {as bs cs : List Value}, SameKeys as bs → SameKeys bs cs → SameKeys as cs ∨ AnyTorn as bs cs
  | _, _, _, .nil, .nil => .inl .nil
  | _, _, _, .cons h hrest, .cons h' hrest' =>
    match h.trans_or_torn h', hrest.trans_or_anyTorn hrest' with
    | .inl hsame, .inl hsames => .inl (.cons hsame hsames)
    | .inl _, .inr htorn => .inr (.tail h h' htorn)
    | .inr htorn, _ => .inr (.head htorn hrest hrest')

end

mutual

/-- Of three torn values the first two are equal. -/
theorem Torn.sameKey_left : ∀ {a b c : Value}, Torn a b c → SameKey a b
  | _, _, _, .rounded _ h _ => .intFloat h
  | _, _, _, .boolFloat h _ => .boolInt h
  | _, _, _, .floatBool h _ => .floatInt h
  | _, _, _, .tuple h => .tuple h.sameKeys_left

/-- Of three sequences with a torn place the first two are equal. -/
theorem AnyTorn.sameKeys_left : ∀ {as bs cs : List Value}, AnyTorn as bs cs → SameKeys as bs
  | _, _, _, .head h hrest _ => .cons h.sameKey_left hrest
  | _, _, _, .tail h _ hrest => .cons h hrest.sameKeys_left

end

mutual

/-- Three values are torn from either side. -/
theorem Torn.symm : ∀ {a b c : Value}, Torn a b c → Torn c b a
  | _, _, _, .rounded hne h h' => .rounded hne.symm h' h
  | _, _, _, .boolFloat h h' => .floatBool h' h
  | _, _, _, .floatBool h h' => .boolFloat h' h
  | _, _, _, .tuple h => .tuple h.symm

/-- Three sequences have a torn place from either side. -/
theorem AnyTorn.symm : ∀ {as bs cs : List Value}, AnyTorn as bs cs → AnyTorn cs bs as
  | _, _, _, .head h hrest hrest' => .head h.symm hrest'.symm hrest.symm
  | _, _, _, .tail h h' hrest => .tail h'.symm h.symm hrest.symm

end

mutual

/-- Of three torn values the first and the last are not equal. -/
theorem Torn.not_sameKey : ∀ {a b c : Value}, Torn a b c → ¬ SameKey a c
  | _, _, _, .rounded hne _ _, .int _ => hne rfl
  | _, _, _, .tuple h, .tuple h' => h.not_sameKeys h'

/-- Of three sequences with a torn place the first and the last are not equal. -/
theorem AnyTorn.not_sameKeys : ∀ {as bs cs : List Value}, AnyTorn as bs cs → ¬ SameKeys as cs
  | _, _, _, .head h _ _, .cons hsame _ => h.not_sameKey hsame
  | _, _, _, .tail _ _ hrest, .cons _ hsames => hrest.not_sameKeys hsames

end

/-- Three values are torn just when equality of keys fails to be transitive at them. -/
theorem torn_iff {a b c : Value} :
    Torn a b c ↔ keyEq a b = true ∧ keyEq b c = true ∧ keyEq a c = false := by
  rw [← Bool.not_eq_true, keyEq_iff, keyEq_iff, keyEq_iff]
  constructor
  · exact fun h ↦ ⟨h.sameKey_left, h.symm.sameKey_left.symm, h.not_sameKey⟩
  · rintro ⟨hab, hbc, hac⟩
    exact (hab.trans_or_torn hbc).resolve_left hac

/-! ### Where nothing is torn -/

/-- No three of the values are torn. -/
def NoneTorn (values : List Value) : Prop :=
  ∀ a ∈ values, ∀ b ∈ values, ∀ c ∈ values, ¬ Torn a b c

/-- Where no three values are torn the comparison is transitive. -/
theorem NoneTorn.keyEq_trans {values : List Value} (h : NoneTorn values) {a b c : Value}
    (ha : a ∈ values) (hb : b ∈ values) (hc : c ∈ values) (hab : keyEq a b = true)
    (hbc : keyEq b c = true) : keyEq a c = true := by
  rw [← Bool.not_eq_false]
  exact fun hac ↦ h a ha b hb c hc (torn_iff.2 ⟨hab, hbc, hac⟩)

/-- And only there is it. -/
theorem trans_iff_noneTorn {values : List Value} :
    (∀ a ∈ values, ∀ b ∈ values, ∀ c ∈ values,
      keyEq a b = true → keyEq b c = true → keyEq a c = true) ↔ NoneTorn values := by
  constructor
  · intro htrans a ha b hb c hc htorn
    obtain ⟨hab, hbc, hac⟩ := torn_iff.1 htorn
    exact absurd (htrans a ha b hb c hc hab hbc) (by simp [hac])
  · exact fun hnone a ha b hb c hc ↦ hnone.keyEq_trans ha hb hc

/-- Of fewer values none are torn either. -/
theorem NoneTorn.mono {values picked : List Value} (h : NoneTorn values)
    (hpicked : picked ⊆ values) : NoneTorn picked :=
  fun a ha b hb c hc ↦ h a (hpicked ha) b (hpicked hb) c (hpicked hc)

mutual

/-- Whether a key holds no truth values, and only integers that are not rounded. -/
def isExact : Value → Bool
  | bool _ => false
  | int i => i.toInt.natAbs ≤ 2 ^ 53
  | tuple items => areExact items
  | _ => true

/-- Whether every one of some keys does. -/
def areExact : List Value → Bool
  | [] => true
  | v :: rest => isExact v && areExact rest

end

mutual

/-- Torn values hold a truth value or an integer that is rounded. -/
theorem Torn.not_exact : ∀ {a b c : Value}, Torn a b c →
    isExact a = true → isExact b = true → isExact c = true → False
  | _, _, _, .rounded hne h h', ha, _, hc =>
    hne <| Int64.toInt_inj.1 <| Binary64.eq_of_equals_ofInt (of_decide_eq_true ha)
      (of_decide_eq_true hc) (Binary64.equals_trans h (Binary64.equals_symm h'))
  | _, _, _, .boolFloat _ _, ha, _, _ => Bool.false_ne_true ha
  | _, _, _, .floatBool _ _, _, _, hc => Bool.false_ne_true hc
  | _, _, _, .tuple h, ha, hb, hc => h.not_exact ha hb hc

/-- Sequences with a torn place hold one there. -/
theorem AnyTorn.not_exact : ∀ {as bs cs : List Value}, AnyTorn as bs cs →
    areExact as = true → areExact bs = true → areExact cs = true → False
  | _, _, _, .head h _ _, has, hbs, hcs =>
    h.not_exact (Bool.and_eq_true_iff.1 has).1 (Bool.and_eq_true_iff.1 hbs).1
      (Bool.and_eq_true_iff.1 hcs).1
  | _, _, _, .tail _ _ hrest, has, hbs, hcs =>
    hrest.not_exact (Bool.and_eq_true_iff.1 has).2 (Bool.and_eq_true_iff.1 hbs).2
      (Bool.and_eq_true_iff.1 hcs).2

end

/-- Without truth values, and with integers that are not rounded, keys are equal in classes. -/
theorem noneTorn_of_exact {values : List Value} (h : ∀ v ∈ values, v.isExact = true) :
    NoneTorn values :=
  fun a ha b hb c hc htorn ↦ htorn.not_exact (h a ha) (h b hb) (h c hc)

/-! ### What a set keeps -/

/-- Some of the values stand for all of them: they are in the same order, no two are equal, and
every value equals one that is kept. -/
structure Represents (values kept : List Value) : Prop where
  /-- Only given values are kept, in their order. -/
  sublist : kept.Sublist values
  /-- No two of them are equal. -/
  distinct : kept.Pairwise (keyEq · · = false)
  /-- Every value equals one of them. -/
  covers : ∀ v ∈ values, ∃ k ∈ kept, keyEq k v = true

/-- The members that a set of the values keeps. -/
def kept (values : List Value) : List Value := values.foldl addMember []

/-- A set made of values has the members that are kept of them. -/
theorem ofMembers_eq (values : List Value) : ofMembers values = .set (kept values) := rfl

/-- One more value is added to what is kept of those before it. -/
theorem kept_concat (values : List Value) (v : Value) :
    kept (values ++ [v]) = addMember (kept values) v :=
  List.foldl_concat ..

/-- One step: with one more value, what is kept still stands for all. -/
theorem Represents.addMember {values members : List Value} {v : Value}
    (h : Represents values members) (hself : keyEq v v = true) :
    Represents (values ++ [v]) (addMember members v) := by
  rw [Value.addMember]
  split
  case isTrue hany =>
    refine ⟨h.sublist.trans (List.sublist_append_left ..), h.distinct, fun u hu ↦ ?_⟩
    rcases List.mem_append.1 hu with hold | hnew
    · exact h.covers u hold
    · obtain rfl := List.mem_singleton.1 hnew
      exact List.any_eq_true.1 hany
  case isFalse hany =>
    have hnone : ∀ k ∈ members, keyEq k v = false := by simpa using hany
    refine ⟨h.sublist.append (.refl _), ?_, fun u hu ↦ ?_⟩
    · refine List.pairwise_append.2 ⟨h.distinct, List.pairwise_singleton .., fun k hk u hu ↦ ?_⟩
      obtain rfl := List.mem_singleton.1 hu
      exact hnone k hk
    · rcases List.mem_append.1 hu with hold | hnew
      · obtain ⟨k, hk, hkey⟩ := h.covers u hold
        exact ⟨k, List.mem_append_left _ hk, hkey⟩
      · obtain rfl := List.mem_singleton.1 hnew
        exact ⟨u, List.mem_append_right _ hnew, hself⟩

/-- **What a set keeps stands for all of its values.** -/
theorem represents_kept {values : List Value} (hself : ∀ v ∈ values, keyEq v v = true) :
    Represents values (kept values) := by
  induction values using List.reverseRecOn with
  | nil => exact ⟨.slnil, .nil, by simp⟩
  | append_singleton values v ih =>
    rw [kept_concat]
    exact (ih fun u hu ↦ hself u (List.mem_append_left _ hu)).addMember
      (hself v (List.mem_append_right _ (List.mem_singleton_self v)))

section Classes

variable {values members : List Value} (hnone : NoneTorn values) (h : Represents values members)

include hnone h

/-- Of what equals a value exactly one is kept. -/
theorem Represents.countP_eq_one {v : Value} (hv : v ∈ values) :
    members.countP (keyEq · v) = 1 := by
  obtain ⟨k, hk, hkey⟩ := h.covers v hv
  obtain ⟨front, back, rfl⟩ := List.append_of_mem hk
  -- Whatever else equalled the value would equal the member that does.
  have hother : ∀ u ∈ front ++ k :: back, keyEq u v = true → keyEq u k = true := fun u hu huv ↦
    hnone.keyEq_trans (h.sublist.subset hu) hv (h.sublist.subset hk) huv (keyEq_comm k v ▸ hkey)
  obtain ⟨-, hdistinct, hacross⟩ := List.pairwise_append.1 h.distinct
  have hfront : front.countP (keyEq · v) = 0 := List.countP_eq_zero.2 fun u hu huv ↦ by
    have := hother u (List.mem_append_left _ hu) huv
    exact absurd this (by simp [hacross u hu k (by simp)])
  have hback : back.countP (keyEq · v) = 0 := List.countP_eq_zero.2 fun u hu huv ↦ by
    have := hother u (by simp [hu]) huv
    exact absurd this (by simp [keyEq_comm u k, List.rel_of_pairwise_cons hdistinct hu])
  rw [List.countP_append, List.countP_cons, if_pos hkey, hfront, hback]

/-- However the values are arranged, no fewer members stand for them. -/
theorem Represents.length_le {values' members' : List Value} (hperm : values.Perm values')
    (h' : Represents values' members') : members.length ≤ members'.length := by
  choose! stand hmem hkey using fun v hv ↦ h'.covers v (hperm.subset hv)
  have hnodup : (members.map stand).Nodup := by
    refine List.pairwise_map.2 (h.distinct.imp_of_mem ?_)
    intro a b ha hb hab hsame
    have hvalue := h.sublist.subset ha
    have hvalue' := h.sublist.subset hb
    have hstand := hperm.symm.subset (h'.sublist.subset (hmem a hvalue))
    have hboth := hnone.keyEq_trans hvalue hstand hvalue' (keyEq_comm .. ▸ hkey a hvalue)
      (hsame ▸ hkey b hvalue')
    exact absurd hboth (by simp [hab])
  have hsubset : members.map stand ⊆ members' := by
    intro k hk
    obtain ⟨a, ha, rfl⟩ := List.mem_map.1 hk
    exact hmem a (h.sublist.subset ha)
  simpa using (List.subperm_of_subset hnodup hsubset).length_le

end Classes

/-- Of three torn values a set keeps one or two, by which of them comes first. -/
theorem Torn.kept_eq {a b c : Value} (h : Torn a b c) :
    kept [b, a, c] = [b] ∧ kept [a, c, b] = [a, c] := by
  obtain ⟨hab, hbc, hac⟩ := torn_iff.1 h
  simp [kept, addMember, hab, hbc, hac, keyEq_comm b a]

section Selections

variable {values : List Value} (hself : ∀ v ∈ values, keyEq v v = true)

include hself

/-- One is kept of each class, whatever is selected, exactly if no three values are torn. -/
theorem countP_iff_noneTorn :
    (∀ picked, picked ⊆ values → ∀ v ∈ picked, (kept picked).countP (keyEq · v) = 1) ↔
      NoneTorn values := by
  constructor
  · intro hone a ha b hb c hc htorn
    obtain ⟨hab, hbc, -⟩ := torn_iff.1 htorn
    have htwo := hone [a, c, b] (by simp [ha, hb, hc]) b (by simp)
    simp [htorn.kept_eq.2, hab, keyEq_comm c b, hbc] at htwo
  · intro hnone picked hpicked v hv
    exact (represents_kept fun u hu ↦ hself u (hpicked hu)).countP_eq_one (hnone.mono hpicked) hv

/-- As many are kept in any order, whatever is selected, exactly if no three values are torn. -/
theorem length_iff_noneTorn :
    (∀ picked arranged, picked ⊆ values → picked.Perm arranged →
      (kept picked).length = (kept arranged).length) ↔ NoneTorn values := by
  constructor
  · intro hsame a ha b hb c hc htorn
    have hlength := hsame [b, a, c] [a, c, b] (by simp [ha, hb, hc])
      ((List.Perm.swap a b [c]).trans (.cons a (.swap c b [])))
    simp [htorn.kept_eq] at hlength
  · intro hnone picked arranged hpicked hperm
    have harranged : arranged ⊆ values := List.Subset.trans hperm.symm.subset hpicked
    have h := represents_kept fun u hu ↦ hself u (hpicked hu)
    have h' := represents_kept fun u hu ↦ hself u (harranged hu)
    exact Nat.le_antisymm (h.length_le (hnone.mono hpicked) hperm h')
      (h'.length_le (hnone.mono harranged) hperm.symm h)

end Selections

/-- Equality of keys is reflexive and symmetric on values without what is not a number, and a set of
them keeps some that stand for all. It is transitive just when no three of the values are torn, and
just then one is kept of each class of equal ones, and as many in any order, of all the values and
of any selection from them. So it is for values without truth values whose integers are not
rounded. -/
theorem keyEq_equivalence_iff {values : List Value}
    (hhash : ∀ v ∈ values, v.isHashable = true) (hnumbers : ∀ v ∈ values, v.isNaNFree = true) :
    (∀ v ∈ values, keyEq v v = true) ∧
    (∀ a ∈ values, ∀ b ∈ values, keyEq a b = keyEq b a) ∧
    ((∀ a ∈ values, ∀ b ∈ values, ∀ c ∈ values,
      keyEq a b = true → keyEq b c = true → keyEq a c = true) ↔ NoneTorn values) ∧
    ofMembers values = .set (kept values) ∧ Represents values (kept values) ∧
    ((∀ picked, picked ⊆ values → ∀ v ∈ picked, (kept picked).countP (keyEq · v) = 1) ↔
      NoneTorn values) ∧
    ((∀ picked arranged, picked ⊆ values → picked.Perm arranged →
      (kept picked).length = (kept arranged).length) ↔ NoneTorn values) ∧
    ((∀ v ∈ values, v.isExact = true) → NoneTorn values) := by
  have hself : ∀ v ∈ values, keyEq v v = true := fun v hv ↦ keyEq_self (hhash v hv) (hnumbers v hv)
  exact ⟨hself, fun a _ b _ ↦ keyEq_comm a b, trans_iff_noneTorn, ofMembers_eq values,
    represents_kept hself, countP_iff_noneTorn hself, length_iff_noneTorn hself, noneTorn_of_exact⟩

/-- Four values of which two are equal, in tuples: the set keeps three, one for each. -/
theorem kept_tuples :
    let pair (v : Value) : Value := .tuple [v, .str "a"]
    let values := [pair (.int 1), pair (.bool true), .int 2, .float (.ofInt 3)]
    NoneTorn values ∧ (kept values).length = 3 ∧
      ∀ v ∈ values, (kept values).countP (keyEq · v) = 1 := by
  intro pair values
  have hhash : ∀ v ∈ values, v.isHashable = true := by decide +kernel
  obtain ⟨-, -, htrans, -, -, hcount, -⟩ := keyEq_equivalence_iff hhash (by decide +kernel)
  have hnone : NoneTorn values := htrans.1 (by decide +kernel)
  exact ⟨hnone, by decide +kernel, hcount.2 hnone values (List.Subset.refl _)⟩

/-- A truth value equals the integer one, and that the floating-point number one, which the truth
value does not equal. Two integers equal the floating-point number nearest to both. How much a set
of such values keeps depends on their order. -/
theorem exists_keyEq_not_trans :
    let one : Value := .float (.ofInt 1)
    let large : Value := .float (.ofInt 9007199254740992)
    (∀ v ∈ [.bool true, .int 1, one, .int 9007199254740993, large, .int 9007199254740992],
      v.isHashable = true ∧ v.isNaNFree = true) ∧
    (keyEq (.bool true) (.int 1) = true ∧ keyEq (.int 1) one = true ∧
      keyEq (.bool true) one = false) ∧
    (keyEq (.int 9007199254740993) large = true ∧ keyEq large (.int 9007199254740992) = true ∧
      keyEq (.int 9007199254740993) (.int 9007199254740992) = false) ∧
    ofMembers [.int 1, .bool true, one] = .set [.int 1] ∧
    ofMembers [.bool true, one, .int 1] = .set [.bool true, one] := by
  intro one large
  have htorn : Torn (.bool true) (.int 1) one := .boolFloat (by decide) (by decide +kernel)
  exact ⟨by decide +kernel, by decide +kernel, by decide +kernel, congrArg set htorn.kept_eq.1,
    congrArg set htorn.kept_eq.2⟩

end Value

end LineCompletion
