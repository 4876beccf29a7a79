import LineCompletion.Proofs.Value.Inheritance
import Mathlib.Logic.Relation

/-!
# The ancestors of a type as its graph gives them

The ancestors are found by a walk that keeps the types still to visit in one list, where a type may
stand several times before it is visited. Here the walk is compared with the plain way to go through
a graph, which visits a type and then goes through each of its bases before the next one (`visit`).

**Both give the same types in the same order**, but for the type of all values, which the walk
leaves out (`filter_visitAll`). The proof goes by the recursion of the walk, since a type that is
visited there puts its bases in front of all that is pending, and `visit` does the same by coming
back to what is left (`visitAll_append`). What the two carry along is not the same: the walk has the
identities that it has seen and never sees that of the type of all values, the other one has the
types that it has visited. `Tracks` says how they belong together, and has one lemma for a type that
is left out and one for a type that is taken.

**That the types found are those that can be reached** needs types of one identity to be one type,
which a graph of types has as a field (`TypeGraph`). The walk is closed under bases up to identity
(`settled_of_mem_bases`), and everything in it is reached (`exists_reaches_of_mem_walk`). Without
the field only the second holds: a type that stands behind another one of its identity is not
visited, and so neither are its bases.

The order goes depth first and is not the one that linearises multiple inheritance: a base that two
types share is met behind the first of them, before the second one, even if that declares the same
names. A diamond of types shows this (`Diamond`), with one base named twice and the type of all
values named in the middle. It is used wherever an example asks for types that share a base.

A cycle of bases is no question here, since bases are part of a type, and a type is a finite tree.
-/

namespace LineCompletion

namespace TypeDescriptor

/-! ### Going through a graph -/

mutual

/-- The types visited, in order, when those visited before are given and a type is visited next,
followed by what it derives from. A type that was visited before is not visited again. -/
def visit (visited : List TypeDescriptor) : TypeDescriptor → List TypeDescriptor
  | .mk identity bases members hook =>
    if visited.any (·.identity == identity) then visited
    else visitAll (visited ++ [.mk identity bases members hook]) bases

/-- The types visited, in order, when several are visited one after the other. -/
def visitAll (visited : List TypeDescriptor) : List TypeDescriptor → List TypeDescriptor
  | [] => visited
  | t :: rest => visitAll (visit visited t) rest

end

/-- A type is another or derives from it, through any number of bases. -/
def Reaches : TypeDescriptor → TypeDescriptor → Prop :=
  Relation.ReflTransGen fun t b ↦ b ∈ t.bases

variable {visited pending : List TypeDescriptor} {seen : List TypeIdentity} {t : TypeDescriptor}

/-- A type that was visited before is passed over. -/
theorem visit_of_mem (h : t.identity ∈ visited.map identity) : visit visited t = visited := by
  obtain ⟨u, hu, hsame⟩ := List.mem_map.1 h
  cases t
  rw [visit, if_pos]
  exact List.any_eq_true.2 ⟨u, hu, beq_iff_eq.2 hsame⟩

/-- A type that is visited for the first time is followed by its bases. -/
theorem visit_of_not_mem (h : t.identity ∉ visited.map identity) :
    visit visited t = visitAll (visited ++ [t]) t.bases := by
  cases t
  rw [visit, if_neg]
  · rfl
  · rw [List.any_eq_true]
    rintro ⟨u, hu, hsame⟩
    exact h (List.mem_map.2 ⟨u, hu, beq_iff_eq.1 hsame⟩)

/-- Types are visited one after the other: those in front, and then the rest. -/
theorem visitAll_append (visited ts us : List TypeDescriptor) :
    visitAll visited (ts ++ us) = visitAll (visitAll visited ts) us := by
  induction ts generalizing visited with
  | nil => rfl
  | cons t ts ih => exact ih _

/-- What a walk has seen is what has been visited, but for the type of all values. -/
def Tracks (seen : List TypeIdentity) (visited : List TypeDescriptor) : Prop :=
  ∀ i, i ∈ seen ↔ i ≠ objectIdentity ∧ i ∈ visited.map identity

/-- Before anything is visited nothing has been seen. -/
theorem tracks_nil : Tracks [] [] := fun _ ↦ by simp

/-- The type of all values is visited without being seen. -/
theorem Tracks.skip (h : Tracks seen visited) (hobject : t.identity = objectIdentity) :
    Tracks seen (visited ++ [t]) := fun i ↦ by
  rw [h i, List.map_append, List.mem_append, List.map_singleton, List.mem_singleton, hobject]
  exact and_congr_right fun hne ↦ (or_iff_left hne).symm

/-- Any other type is seen when it is visited. -/
theorem Tracks.take (h : Tracks seen visited) (hobject : t.identity ≠ objectIdentity) :
    Tracks (t.identity :: seen) (visited ++ [t]) := fun i ↦ by
  rw [List.mem_cons, h i, List.map_append, List.mem_append, List.map_singleton, List.mem_singleton,
    or_comm, and_or_left]
  exact or_congr_right ⟨fun hsame ↦ ⟨hsame ▸ hobject, hsame⟩, And.right⟩

/-! ### What the walk reaches -/

/-- Everything in the walk is reached from a pending type. -/
theorem exists_reaches_of_mem_walk (h : t ∈ walk seen pending) : ∃ u ∈ pending, Reaches u t := by
  fun_induction walk seen pending with
  | case1 => exact absurd h List.not_mem_nil
  | case2 seen u pending hskip ih =>
    obtain ⟨w, hw, hreaches⟩ := ih h
    exact ⟨w, List.mem_cons_of_mem _ hw, hreaches⟩
  | case3 seen u pending hfresh ih =>
    rcases List.mem_cons.1 h with rfl | h
    · exact ⟨t, List.mem_cons_self, .refl⟩
    · obtain ⟨w, hw, hreaches⟩ := ih h
      rcases List.mem_append.1 hw with hbase | hw
      · exact ⟨u, List.mem_cons_self, .head hbase hreaches⟩
      · exact ⟨w, List.mem_cons_of_mem _ hw, hreaches⟩

/-- From a type in a set that is closed under bases only types in it are reached. -/
theorem Reaches.mem_of_closed {S : List TypeDescriptor} (hbases : ∀ t ∈ S, ∀ b ∈ t.bases, b ∈ S)
    {u : TypeDescriptor} (hreaches : Reaches t u) (h : t ∈ S) : u ∈ S := by
  induction hreaches with
  | refl => exact h
  | tail _ hbase ih => exact hbases _ ih _ hbase

/-- The walk meets nothing but the types it starts from and their bases. -/
theorem mem_of_mem_walk {S : List TypeDescriptor} (hbases : ∀ t ∈ S, ∀ b ∈ t.bases, b ∈ S)
    (hpending : ∀ t ∈ pending, t ∈ S) (h : t ∈ walk seen pending) : t ∈ S := by
  obtain ⟨u, hu, hreaches⟩ := exists_reaches_of_mem_walk h
  exact hreaches.mem_of_closed hbases (hpending u hu)

/-- A walk settles a type: it was seen before, or it is the type of all values, or the walk visits
it. -/
def Settled (seen : List TypeIdentity) (pending : List TypeDescriptor) (t : TypeDescriptor) :
    Prop :=
  t.identity ∈ seen ∨ t.identity = objectIdentity ∨ t.identity ∈ (walk seen pending).map identity

/-- A type that the walk meets for the first time is visited, and its bases are met next. -/
theorem walk_cons_of_fresh (hseen : t.identity ∉ seen) (hobject : t.identity ≠ objectIdentity) :
    walk seen (t :: pending) = t :: walk (t.identity :: seen) (t.bases ++ pending) := by
  rw [walk, if_neg]
  simpa using ⟨hseen, hobject⟩

/-- A type that is settled when another has been visited was settled before. -/
theorem Settled.of_cons {u : TypeDescriptor} (hseen : u.identity ∉ seen)
    (hobject : u.identity ≠ objectIdentity)
    (h : Settled (u.identity :: seen) (u.bases ++ pending) t) : Settled seen (u :: pending) t := by
  rw [Settled, walk_cons_of_fresh hseen hobject, List.map_cons]
  rcases h with hmem | hobject | hwalk
  · rcases List.mem_cons.1 hmem with hsame | hmem
    · exact .inr (.inr (hsame ▸ List.mem_cons_self))
    · exact .inl hmem
  · exact .inr (.inl hobject)
  · exact .inr (.inr (List.mem_cons_of_mem _ hwalk))

/-- Every pending type is settled. -/
theorem settled_of_mem_pending (h : t ∈ pending) : Settled seen pending t := by
  fun_induction walk seen pending with
  | case1 => exact absurd h List.not_mem_nil
  | case2 seen u pending hskip ih =>
    rw [Settled, walk, if_pos hskip]
    rcases List.mem_cons.1 h with rfl | h
    · rw [Bool.or_eq_true, List.contains_iff_mem, beq_iff_eq] at hskip
      exact hskip.imp_right .inl
    · exact ih h
  | case3 seen u pending hfresh ih =>
    obtain ⟨hseen, hobject⟩ : u.identity ∉ seen ∧ u.identity ≠ objectIdentity := by
      simpa using hfresh
    rcases List.mem_cons.1 h with rfl | h
    · rw [Settled, walk_cons_of_fresh hseen hobject]
      exact .inr (.inr List.mem_cons_self)
    · exact (ih (List.mem_append_right _ h)).of_cons hseen hobject

/-- Every base of a type that the walk visits is settled. -/
theorem settled_of_mem_bases (h : t ∈ walk seen pending) {b : TypeDescriptor} (hb : b ∈ t.bases) :
    Settled seen pending b := by
  fun_induction walk seen pending with
  | case1 => exact absurd h List.not_mem_nil
  | case2 seen u pending hskip ih =>
    rw [Settled, walk, if_pos hskip]
    exact ih h
  | case3 seen u pending hfresh ih =>
    obtain ⟨hseen, hobject⟩ : u.identity ∉ seen ∧ u.identity ≠ objectIdentity := by
      simpa using hfresh
    rcases List.mem_cons.1 h with rfl | h
    -- The bases of the type visited first are pending from then on.
    · exact (settled_of_mem_pending (List.mem_append_left _ hb)).of_cons hseen hobject
    · exact (ih h).of_cons hseen hobject

end TypeDescriptor

/-! ### Graphs of types -/

/-- A graph of types, each with an identity of its own. It has no cycles, since bases are part of a
type. -/
structure TypeGraph where
  /-- The types. -/
  types : List TypeDescriptor
  /-- The bases of a type belong to the graph. -/
  closed : ∀ t ∈ types, ∀ b ∈ t.bases, b ∈ types
  /-- Types of one identity are one type, and none but the type of all values has its identity. -/
  apart : ∀ t ∈ objectType :: types, ∀ u ∈ objectType :: types, t.identity = u.identity → t = u

namespace TypeGraph

open TypeDescriptor

variable (g : TypeGraph) {visited pending : List TypeDescriptor} {seen : List TypeIdentity}
  {t u : TypeDescriptor}

/-- In a graph only the type of all values has its identity. -/
theorem eq_objectType (h : t ∈ g.types) (hobject : t.identity = objectIdentity) : t = objectType :=
  g.apart t (List.mem_cons_of_mem _ h) objectType List.mem_cons_self hobject

/-- **The walk finds what visiting adds**, in the same order, but for the type of all values. -/
theorem filter_visitAll (hpending : ∀ t ∈ pending, t ∈ g.types) (hseen : Tracks seen visited) :
    (visitAll visited pending).filter (·.identity != objectIdentity) =
      visited.filter (·.identity != objectIdentity) ++ walk seen pending := by
  fun_induction walk seen pending generalizing visited with
  | case1 => exact (List.append_nil _).symm
  | case2 seen t pending hskip ih =>
    obtain ⟨ht, hrest⟩ := List.forall_mem_cons.1 hpending
    rw [Bool.or_eq_true, List.contains_iff_mem, beq_iff_eq] at hskip
    by_cases hvisited : t.identity ∈ visited.map identity
    · rw [visitAll, visit_of_mem hvisited, ih hrest hseen]
    · -- The type of all values is visited here and left out by the walk.
      have hobject := hskip.resolve_left fun hmem ↦ hvisited ((hseen _).1 hmem).2
      have hbases : t.bases = [] := by rw [g.eq_objectType ht hobject]; rfl
      rw [visitAll, visit_of_not_mem hvisited, hbases, visitAll, ih hrest (hseen.skip hobject),
        List.filter_append, List.filter_cons_of_neg (by simpa using hobject), List.filter_nil,
        List.append_nil]
  | case3 seen t pending hfresh ih =>
    obtain ⟨ht, hrest⟩ := List.forall_mem_cons.1 hpending
    obtain ⟨hnew, hobject⟩ : t.identity ∉ seen ∧ t.identity ≠ objectIdentity := by
      simpa using hfresh
    have hvisited : t.identity ∉ visited.map identity := fun hmem ↦
      hnew ((hseen _).2 ⟨hobject, hmem⟩)
    have hpending' : ∀ u ∈ t.bases ++ pending, u ∈ g.types := fun u hu ↦
      (List.mem_append.1 hu).elim (g.closed t ht u) (hrest u)
    rw [visitAll, visit_of_not_mem hvisited, ← visitAll_append, ih hpending' (hseen.take hobject),
      List.filter_append, List.filter_cons_of_pos (by simpa using hobject), List.filter_nil,
      List.append_assoc, List.singleton_append]

/-- What a type of a graph reaches is among its ancestors. -/
theorem mem_ancestors_of_reaches (h : t ∈ g.types) (hreaches : Reaches t u) : u ∈ t.ancestors := by
  have hfound {w : TypeDescriptor} (hw : w ∈ g.types) (hsettled : Settled [] [t] w) :
      w ∈ t.ancestors := by
    rcases hsettled with hnone | hobject | hwalk
    · exact absurd hnone List.not_mem_nil
    · exact g.eq_objectType hw hobject ▸ List.mem_append_right _ List.mem_cons_self
    · obtain ⟨x, hx, hsame⟩ := List.mem_map.1 hwalk
      have hxg := mem_of_mem_walk g.closed (List.forall_mem_singleton.2 h) hx
      obtain rfl := g.apart x (List.mem_cons_of_mem _ hxg) w (List.mem_cons_of_mem _ hw) hsame
      exact List.mem_append_left _ hx
  induction hreaches with
  | refl => exact hfound h (settled_of_mem_pending List.mem_cons_self)
  | @tail v b hreaches hbase ih =>
    have hb := Reaches.mem_of_closed g.closed (hreaches.tail hbase) h
    rcases List.mem_append.1 ih with hv | hv
    · exact hfound hb (settled_of_mem_bases hv hbase)
    · obtain rfl := List.mem_singleton.1 hv
      exact absurd hbase List.not_mem_nil

/-- **The ancestors of a type are what a depth-first visit from it meets**, from left to right and
each once, with the type of all values taken out from where it was met and put at the end. No two
have one identity, they are the types that can be reached through bases and the type of all values,
and the type itself comes first. -/
theorem ancestors_eq_visit (h : t ∈ g.types) :
    t.ancestors = (visit [] t).filter (·.identity != objectIdentity) ++ [objectType] ∧
      (t.ancestors.map identity).Nodup ∧
      (∀ u, u ∈ t.ancestors ↔ Reaches t u ∨ u = objectType) ∧
      t.ancestors.head? = some t := by
  refine ⟨?_, List.pairwise_map.2 t.pairwise_ancestors, fun u ↦ ⟨fun hu ↦ ?_, ?_⟩, ?_⟩
  · have hvisit := g.filter_visitAll (fun u hu ↦ List.mem_singleton.1 hu ▸ h) tracks_nil
    exact congrArg (· ++ [objectType]) hvisit.symm
  · rcases List.mem_append.1 hu with hu | hu
    · obtain ⟨w, hw, hreaches⟩ := exists_reaches_of_mem_walk hu
      exact .inl (List.mem_singleton.1 hw ▸ hreaches)
    · exact .inr (List.mem_singleton.1 hu)
  · rintro (hreaches | rfl)
    · exact g.mem_ancestors_of_reaches h hreaches
    · exact List.mem_append_right _ List.mem_cons_self
  · obtain ⟨further, hancestors⟩ := exists_ancestors_eq_cons (g.eq_objectType h)
    rw [hancestors, List.head?_cons]

end TypeGraph

/-! ### A diamond of types -/

namespace Diamond

open TypeDescriptor

/-- A type that two others share as their base. -/
def shared : TypeDescriptor := .mk (.declared "Base" 0) [] [("m", .int 1)] none

/-- The first of the two. -/
def left : TypeDescriptor := .mk (.declared "Left" 1) [shared] [] none

/-- The second of the two, which declares the name that the shared base declares. -/
def right : TypeDescriptor := .mk (.declared "Right" 2) [shared] [("m", .int 2)] none

/-- A type with the first as its base twice, and between them the type of all values and the second
one. -/
def tip : TypeDescriptor := .mk (.declared "Child" 3) [left, objectType, right, left] [] none

/-- The graph of them. -/
def graph : TypeGraph where
  types := [tip, left, right, shared, objectType]
  closed := by simp [tip, left, right, shared, objectType, bases]
  apart t ht u hu hsame := by
    have hnodup : ([tip, left, right, shared, objectType].map identity).Nodup := by decide
    have hmem {w : TypeDescriptor} (hw : w ∈ objectType :: [tip, left, right, shared, objectType]) :
        w ∈ [tip, left, right, shared, objectType] := by
      rcases List.mem_cons.1 hw with rfl | hw
      · simp
      · exact hw
    exact List.inj_on_of_nodup_map hnodup (hmem ht) (hmem hu) hsame

/-- None of the types passes for one of the language. -/
theorem genuineKin_tip : (Value.type tip).GenuineKin := by
  intro t ht
  have hmem : t ∈ graph.types := by
    rcases List.mem_cons.1 ht with rfl | ht
    · exact List.mem_cons_self
    rcases List.mem_append.1 ht with hwalk | hobject
    · exact mem_of_mem_walk graph.closed (List.forall_mem_singleton.2 List.mem_cons_self) hwalk
    · rw [List.mem_singleton.1 hobject]
      simp [graph]
  simp only [graph, List.mem_cons, List.not_mem_nil, or_false] at hmem
  rcases hmem with rfl | rfl | rfl | rfl | rfl
  on_goal 5 => exact genuine_of_mem_builtinTypes List.mem_cons_self
  all_goals exact genuine_mk_declared _ _ _ _ _

end Diamond

/-- The type of all values is met in the middle and put at the end; the base met again is not
repeated. -/
theorem TypeGraph.ancestors_of_repeated_base :
    Diamond.tip ∈ Diamond.graph.types ∧
      TypeDescriptor.visit [] Diamond.tip =
        [Diamond.tip, Diamond.left, Diamond.shared, objectType, Diamond.right] ∧
      Diamond.tip.ancestors =
        [Diamond.tip, Diamond.left, Diamond.shared, Diamond.right, objectType] := by
  have hmem : Diamond.tip ∈ Diamond.graph.types := List.mem_cons_self
  have hvisit : TypeDescriptor.visit [] Diamond.tip =
      [Diamond.tip, Diamond.left, Diamond.shared, objectType, Diamond.right] := rfl
  obtain ⟨hancestors, -⟩ := Diamond.graph.ancestors_eq_visit hmem
  exact ⟨hmem, hvisit, by rw [hancestors, hvisit]; rfl⟩

end LineCompletion
