import LineCompletion.Proofs.Completion.Offers
import LineCompletion.Proofs.Expression.Continuation
import LineCompletion.Proofs.Value.Ancestors

/-!
# Names that are offered and members that exist

The names collected for a value and the members found on it come from different walks over its
types: one takes every name on the way, the other stops at the first type that declares the one it
looks for.

**They agree** (`mem_allMemberNames_iff_isSome`), but for the hidden name, which is never collected.
`mem_allMemberNames_iff_evaluates` carries this to texts: a name is collected for the value of a
text exactly when the text with a dot and that name behind it has a value, which is then what the
value of the text has under the name (`Value.HasMember`). It is asked of the value that nothing it
is or inherits from passes for a type of the language without being one (`Value.GenuineKin`).

**Not all of them are offered at once**: names with a leading underscore wait until no others are
left or an underscore has been typed. `memberMatches_perm_admitted` says for any source of names
which are offered behind a dot. There are three lists in it, and each is said independently of the
program:

* the names collected that go on from what was typed, each once (`Collects`);
* of those the ones that are admitted, which is both what widening ends with (`Shading.WidensTo`)
  and a rule about leading underscores (`Admitted`);
* what each of them becomes (`BecomesMember`): the text before the dot, the dot and the name, with
  what the member's value asks for behind it, as a parenthesis for what can be called or a bracket
  and a quote for a mapping.

What is offered is the third list, sorted. The order is that of the texts and not of the names, so
what a name goes on with has a say in it.

A diamond of types shows the first half, with a name that two types declare. The second half is
shown by names that all have a leading underscore, a mapping and a function among them.
-/

namespace LineCompletion

open Text

/-- What looks like a name may come after a dot. -/
theorem memberName_of_isName {s : List Char} (h : isName s = true) : MemberName s := by
  obtain ⟨c, rest, rfl, hstart, hchars⟩ := exists_cons_of_isName h
  refine ⟨hchars, c, rfl, Bool.eq_false_iff.2 fun hdigit ↦ ?_⟩
  rw [(isNameChar_of_isDigit hdigit).2] at hstart
  exact absurd hstart (by simp)

namespace Console

section Standard

variable {console : Console}

/-- The names collected for a value are those of its members, but for the hidden one. -/
theorem mem_allMemberNames_iff_isSome
    (hintrospector : console.introspector = Introspector.standard) {v : Value} (h : v.GenuineKin)
    {name : String} :
    name ∈ console.allMemberNames v ↔ name ≠ hiddenName ∧ (v.member? name).isSome = true := by
  rw [mem_allMemberNames_iff, hintrospector, Value.isSome_member?_iff h]
  refine and_congr_right fun _ ↦ or_congr_right ⟨?_, ?_⟩
  · rintro (hname | hname)
    · exact Value.exists_of_mem_memberNames h hname
    · exact .inr hname
  · rintro (hown | hname)
    · exact .inl (Value.mem_memberNames_of_attribute? hown)
    · exact .inr hname

/-- **A name is offered for what exists.** Whatever text gives a value, a name is among those
collected for the value exactly when the text with a dot and the name behind it has a value too.
That value is what the first one has under the name: its class, an attribute of its own, or what the
first of its ancestors to declare the name declares. -/
theorem mem_allMemberNames_iff_evaluates
    (hevaluator : console.evaluator = Evaluator.standard console.host)
    (hintrospector : console.introspector = Introspector.standard) {base : List Char} {v : Value}
    (hbase : console.evaluator (String.ofList base) console.ns = .ok v) (hkin : v.GenuineKin)
    {name : List Char} (hname : MemberName name) (hhidden : String.ofList name ≠ hiddenName) :
    (String.ofList name ∈ console.allMemberNames v ↔
      ∃ found, console.evaluator (String.ofList (base ++ '.' :: name)) console.ns = .ok found) ∧
    ∀ found, console.evaluator (String.ofList (base ++ '.' :: name)) console.ns = .ok found ↔
      v.HasMember (String.ofList name) found := by
  have hstep (found : Value) :
      console.evaluator (String.ofList (base ++ '.' :: name)) console.ns = .ok found ↔
        v.member? (String.ofList name) = some found := by
    rw [hevaluator] at hbase ⊢
    rw [evaluate_member hbase hname, Expr.memberStep_eq_ok_iff]
  constructor
  · rw [mem_allMemberNames_iff_isSome hintrospector hkin, and_iff_right hhidden,
      Option.isSome_iff_exists]
    exact exists_congr fun found ↦ (hstep found).symm
  · intro found
    rw [hstep, Value.member?_eq_some_iff hkin]

end Standard

/-! ### Members of a diamond of types -/

/-- A console with standard settings on a host that provides nothing. -/
def seeing (ns : Namespace) : Console where
  host := Host.bare
  ns := ns
  evaluator := Evaluator.standard Host.bare
  introspector := Introspector.standard
  modules := ⟨[], []⟩
  keywords := []
  settings := Settings.standard

/-- A name resolves to what it is bound to. -/
theorem resolve_of_name {console : Console} {name : List Char} {v : Value}
    (standard : console.evaluator = Evaluator.standard console.host)
    (hname : isName name = true) (hconstant : name ∉ constants.map Prod.fst)
    (hcall : hasCall name = false) (hv : console.ns.get? (String.ofList name) = some v) :
    console.resolve name = some v := by
  have hread : readExpr name = .ok (.name (String.ofList name)) := readExpr_eq_ok_iff.2
    ⟨show 0 < maxNesting by decide, [], name, [], by simp, blank_nil, .name hname hconstant,
      blank_nil⟩
  have hvalue : (Expr.name (String.ofList name)).eval console.host console.ns = .ok v := by
    rw [Expr.eval, Expr.nameStep, hv]
  rw [resolve, hcall, standard, evaluate_of_readExpr hread, hvalue]
  rfl

/-- A type that is a value has what its ancestors declare, and of two that declare one name the
first. -/
theorem evaluates_inherited_of_diamond :
    let console := seeing (Namespace.empty.setGlobal "d" (.type Diamond.tip))
    console.evaluator "d" console.ns = .ok (.type Diamond.tip) ∧
      (Value.type Diamond.tip).GenuineKin ∧ "m" ∈ console.allMemberNames (.type Diamond.tip) ∧
      console.evaluator "d.m" console.ns = .ok (.int 1) := by
  intro console
  have hname : Spells (.name "d") "d".toList := .name (by decide) (by decide)
  have hbase :
      console.evaluator (String.ofList "d".toList) console.ns = .ok (.type Diamond.tip) :=
    evaluate_eq_ok_iff.2 ⟨_, readExpr_eq_ok_iff.2
      ⟨by decide, [], _, [], rfl, blank_nil, hname, blank_nil⟩, rfl⟩
  obtain ⟨hoffered, hgives⟩ := mem_allMemberNames_iff_evaluates rfl rfl hbase
    Diamond.genuineKin_tip (memberName_of_isName (s := "m".toList) (by decide)) (by decide)
  have hm : console.evaluator (String.ofList ("d".toList ++ '.' :: "m".toList)) console.ns =
      .ok (.int 1) := by
    refine (hgives _).2 ((Value.member?_eq_some_iff Diamond.genuineKin_tip).1 ?_)
    -- The walk comes to the shared type before it comes to the second one that has it as a base.
    obtain ⟨further, hancestors⟩ : ∃ further,
        Diamond.tip.ancestors = Diamond.tip :: Diamond.left :: Diamond.shared :: further := by
      simp [TypeDescriptor.ancestors, TypeDescriptor.walk, Diamond.tip, Diamond.left,
        Diamond.shared, TypeDescriptor.identity, TypeDescriptor.bases, objectIdentity]
    show (Diamond.tip.findMember "m" <|> _) = some (.int 1)
    rw [TypeDescriptor.findMember, hancestors]
    rfl
  exact ⟨hbase, Diamond.genuineKin_tip, hoffered.2 ⟨_, hm⟩, hm⟩

/-! ### Which members are offered -/

section Shaded

variable {console : Console} {v : Value} {start : List Char}

/-- A name is collected for a value, and goes on from a text. -/
structure Collects (console : Console) (v : Value) (start : List Char) (name : String) : Prop where
  /-- It is not the hidden one. -/
  shown : name ≠ hiddenName
  /-- It is found directly on the value, or on a type that it inherits from, or names its class. -/
  found : name = className ∨ name ∈ console.introspector.memberNames v ∨
    ∃ t ∈ console.introspector.ancestors v, name ∈ Bindings.names t.members
  /-- It starts with the text. -/
  starts : start <+: name.toList

/-- The names collected for a value that go on from a text. -/
def collectedNames (console : Console) (v : Value) (start : List Char) : List String :=
  (console.allMemberNames v).filter fun name ↦ start.isPrefixOf name.toList

/-- The names that are listed are those collected. -/
theorem mem_collectedNames_iff {name : String} :
    name ∈ console.collectedNames v start ↔ console.Collects v start name := by
  rw [collectedNames, List.mem_filter, mem_allMemberNames_iff, List.isPrefixOf_iff_prefix]
  exact ⟨fun ⟨⟨hshown, hfound⟩, hstarts⟩ ↦ ⟨hshown, hfound, hstarts⟩,
    fun ⟨hshown, hfound, hstarts⟩ ↦ ⟨⟨hshown, hfound⟩, hstarts⟩⟩

/-- Each of them is listed once. -/
theorem nodup_collectedNames : (console.collectedNames v start).Nodup :=
  ((nodup_sortedNames _).filter _).filter _

/-- **What is offered for the members of a value: each admitted name once, in the order of what the
names become.** The names collected for the value that go on from the text behind the dot are listed
as `names`, each once. Widening, which ends whatever the names are, goes on from the shading for the
text to a last one, and what that one leaves is `admitted`: the names that the text admits. Each is
offered as what it becomes as a member, with the hint of the member's value behind it, and what is
offered is sorted. So nothing is offered only when no name is collected. -/
theorem memberMatches_perm_admitted {base : List Char} (hstart : '.' ∉ start)
    (hbase : console.resolve base = some v) :
    ∃ (names admitted : List String) (completed : String → List Char),
      (names.Nodup ∧ ∀ name, name ∈ names ↔ console.Collects v start name) ∧
      (WellFounded (fun next shading ↦ Shading.Widens names shading next) ∧
        ∃ last, Shading.WidensTo names (Shading.ofStart start) last ∧
          admitted = last.left names) ∧
      (admitted.Nodup ∧
        ∀ name, name ∈ admitted ↔ Admitted (console.Collects v start) start name) ∧
      (∀ name, console.BecomesMember v base name (completed name)) ∧
      (console.memberMatches (base ++ '.' :: start)).Perm (admitted.map completed) ∧
      (console.memberMatches (base ++ '.' :: start)).Pairwise (fun s t ↦ precedes s t = true) ∧
      (console.memberMatches (base ++ '.' :: start) = [] ↔
        ∀ name, ¬ console.Collects v start name) := by
  have hmatches := memberMatches_eq (splitLastDot?_eq_some_iff.2 ⟨rfl, hstart⟩) hbase
  have hperm : (console.memberMatches (base ++ '.' :: start)).Perm
      ((console.shownMembers v start).map (console.completedMember v base)) := by
    rw [hmatches]
    exact List.mergeSort_perm _ _
  have hnamed : (· ∈ console.collectedNames v start) = console.Collects v start :=
    funext fun _ ↦ propext mem_collectedNames_iff
  obtain ⟨last, hlast, hshown⟩ :=
    Shading.exists_widensTo_visibleNames (Shading.ofStart start) (console.collectedNames v start)
  refine ⟨console.collectedNames v start, console.shownMembers v start,
    console.completedMember v base, ⟨nodup_collectedNames, fun _ ↦ mem_collectedNames_iff⟩,
    ⟨Shading.wellFounded_widens _, last, hlast, hshown⟩, ⟨?_, fun name ↦ ?_⟩,
    fun _ ↦ becomesMember_iff.2 rfl, hperm, ?_, ?_⟩
  · rw [show console.shownMembers v start = last.left (console.collectedNames v start) from hshown]
    exact nodup_collectedNames.filter _
  · rw [← hnamed]
    exact Shading.mem_visibleNames_ofStart_iff
  · rw [hmatches]
    exact pairwise_mergeSort_precedes _
  · simp only [← mem_collectedNames_iff, ← List.eq_nil_iff_forall_not_mem]
    have hnone : console.shownMembers v start = [] ↔ console.collectedNames v start = [] :=
      Shading.visibleNames_eq_nil_iff
    rw [← hnone, ← List.map_eq_nil_iff (f := console.completedMember v base)]
    exact ⟨fun hnil ↦ (hnil ▸ hperm).nil_eq.symm, fun hnil ↦ (hnil ▸ hperm).eq_nil⟩

/-- Where all names have a leading underscore, those with two are left out behind the dot. The
hidden name is not among them, and a name found twice is offered once. One of the members is a
mapping, offered with a bracket and a quote, and the other a function, offered with a parenthesis.
The order is that of the completed texts: by their names alone the mapping would come first. -/
theorem memberMatches_private_names :
    let console := { seeing (Namespace.empty.setGlobal "p" (.int 0)) with
      introspector := ⟨fun _ ↦ ["_x", "__init__", "_xB", "__builtins__", "_x"], fun _ ↦ [],
        fun _ name ↦ if name = "_x" then some (.dict []) else some (.function (.builtin "f"))⟩ }
    '.' ∉ ([] : List Char) ∧ console.resolve ['p'] = some (.int 0) ∧
      console.BecomesMember (.int 0) ['p'] "_x" "p._x['".toList ∧
      console.BecomesMember (.int 0) ['p'] "_xB" "p._xB(".toList ∧
      console.memberMatches (['p'] ++ ['.']) = ["p._xB(".toList, "p._x['".toList] := by
  intro console
  have hdot : '.' ∉ ([] : List Char) := List.not_mem_nil
  have hbase : console.resolve ['p'] = some (.int 0) :=
    resolve_of_name rfl (by decide) (by decide) (by decide) rfl
  have hdict : console.introspector.member? (.int 0) "_x" = some (.dict []) := rfl
  have hbuiltin : console.introspector.member? (.int 0) "_xB" = some (.function (.builtin "f")) :=
    rfl
  have hmapping : console.BecomesMember (.int 0) ['p'] "_x" "p._x['".toList :=
    .known hdict (.mapping rfl rfl)
  have hfunction : console.BecomesMember (.int 0) ['p'] "_xB" "p._xB(".toList :=
    .known hbuiltin (.callable rfl rfl (by simp [Value.isCallable]))
  obtain ⟨names, admitted, completed, -, -, ⟨hnodup, hadmitted⟩, hbecomes, hperm, hsorted, -⟩ :=
    memberMatches_perm_admitted hdot hbase
  have hcollects (name : String) : console.Collects (.int 0) [] name →
      name ∈ ["__class__", "_x", "__init__", "_xB"] := by
    rintro ⟨hshown, rfl | hname | ⟨_, ht, -⟩, -⟩
    · exact List.mem_cons_self
    · simp only [console, List.mem_cons, List.not_mem_nil, or_false] at hname ⊢
      rcases hname with rfl | rfl | rfl | rfl | rfl <;> simp [hiddenName] at hshown ⊢
    · exact absurd ht List.not_mem_nil
  have hnamed : ∀ name ∈ ["_x", "_xB"], console.Collects (.int 0) [] name := by
    intro name hname
    refine ⟨?_, .inr (.inl ?_), List.nil_prefix⟩
    all_goals simp only [List.mem_cons, List.not_mem_nil, or_false] at hname
    all_goals rcases hname with rfl | rfl <;> decide
  have htwo : admitted.Perm ["_x", "_xB"] := by
    refine (List.perm_ext_iff_of_nodup hnodup (by decide)).2 fun name ↦ ?_
    rw [hadmitted]
    constructor
    · intro h
      have hsingle := h.single (.inl rfl) ⟨"_x", hnamed "_x" List.mem_cons_self, by decide⟩
      have hfour := hcollects name h.named
      simp only [List.mem_cons, List.not_mem_nil, or_false] at hfour ⊢
      rcases hfour with rfl | rfl | rfl | rfl
      · exact absurd hsingle (by decide)
      · exact .inl rfl
      · exact absurd hsingle (by decide)
      · exact .inr rfl
    · intro hname
      have hall : ∀ other ∈ ["__class__", "_x", "__init__", "_xB"], ['_'] <+: other.toList := by
        decide
      have hone : ∀ other ∈ ["_x", "_xB"], ¬ ['_', '_'] <+: other.toList := by decide
      refine ⟨hnamed name hname, fun _ hplain ↦ ?_, fun _ _ ↦ hone name hname⟩
      obtain ⟨other, hother, hplain⟩ := hplain
      exact absurd (hall other (hcollects other hother)) hplain
  have hmap : (["_x", "_xB"].map completed).Perm ["p._xB(".toList, "p._x['".toList] := by
    rw [List.map_cons, List.map_singleton, becomesMember_iff.1 (hbecomes "_x"),
      becomesMember_iff.1 (hbecomes "_xB"), ← becomesMember_iff.1 hmapping,
      ← becomesMember_iff.1 hfunction]
    exact .swap ..
  exact ⟨hdot, hbase, hmapping, hfunction,
    (hperm.trans ((htwo.map completed).trans hmap)).eq_of_pairwise
      (fun _ _ _ _ ↦ precedes_antisymm) hsorted (by decide)⟩

end Shaded

end Console

end LineCompletion
