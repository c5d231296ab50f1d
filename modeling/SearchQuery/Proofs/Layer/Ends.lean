import SearchQuery.Proofs.Layer.Nodes
import SearchQuery.Proofs.Skeleton.Direct

/-! The ends of a level. A level that is read on takes over what stands after its last pair (`nodesFrom_append`), and a
    level that follows others gives them what stands before its first pair (`nodesFrom_append_run`); the nodes in
    between stay as they are. -/

namespace SearchQuery

open Skeleton (items item)

namespace Atom

/-- A dash that ends what stands before a run negates nothing once something else follows it. -/
theorem splitDash_append {as : List Atom} (has : as.getLast? ≠ some (.char '-')) (run : List Atom) :
    splitDash (as ++ run) = (as ++ (splitDash run).1, (splitDash run).2) := by
  rcases List.eq_nil_or_concat run with rfl | ⟨run, a, rfl⟩
  · rw [List.append_nil, splitDash, if_neg has]
    exact congrArg (·, false) (List.append_nil as).symm
  · rw [List.concat_eq_append, ← List.append_assoc, splitDash, splitDash, List.getLast?_concat, List.getLast?_concat,
      List.dropLast_concat, List.dropLast_concat]
    split
    · rfl
    · rw [List.append_assoc]

end Atom

namespace Nest

/-- The atoms after the last pair of a level that stands after a run. -/
def back (run : List Atom) : Nest → List Atom
  | nil => run
  | atom a later => back (run ++ [a]) later
  | pair _ later => back [] later

/-- The nodes up to the last pair. -/
def toBack (run : List Atom) : Nest → List ClosedNode
  | nil => []
  | atom a later => toBack (run ++ [a]) later
  | pair inside later =>
    Atom.segment (Atom.splitDash run).1 ++ .group (Atom.splitDash run).2 inside.nodes :: toBack [] later

/-- The atoms before the first pair, without a dash that negates it. -/
def front (run : List Atom) : Nest → List Atom
  | nil => run
  | atom a later => front (run ++ [a]) later
  | pair _ _ => (Atom.splitDash run).1

/-- The nodes from the first pair on. -/
def fromFront (run : List Atom) : Nest → List ClosedNode
  | nil => []
  | atom a later => fromFront (run ++ [a]) later
  | pair inside later => .group (Atom.splitDash run).2 inside.nodes :: later.nodes

/-! ### The nodes of a level and its ends -/

theorem nodesFrom_append (ms ns : Nest) (run : List Atom) :
    (ms ++ ns).nodesFrom run = ms.toBack run ++ ns.nodesFrom (ms.back run) := by
  induction ms generalizing run with
  | nil => rfl
  | atom a later ih => exact ih (run ++ [a])
  | pair inside later _ ih =>
    rw [pair_append, nodesFrom, ih, toBack, back, List.append_assoc]
    rfl

theorem nodesFrom_eq_toBack (ns : Nest) (run : List Atom) :
    ns.nodesFrom run = ns.toBack run ++ Atom.segment (ns.back run) := by
  have happend := nodesFrom_append ns nil run
  rwa [append_nil] at happend

theorem nodesFrom_eq_fromFront (ns : Nest) (run : List Atom) :
    ns.nodesFrom run = Atom.segment (ns.front run) ++ ns.fromFront run := by
  induction ns generalizing run with
  | nil => exact (List.append_nil _).symm
  | atom a later ih => exact ih (run ++ [a])
  | pair inside later _ _ => rfl

/-- A level gives what stands before its first pair to the run that it follows. -/
theorem nodesFrom_append_run {as : List Atom} (has : as.getLast? ≠ some (.char '-')) (ns : Nest) (run : List Atom) :
    ns.nodesFrom (as ++ run) = Atom.segment (as ++ ns.front run) ++ ns.fromFront run := by
  induction ns generalizing run with
  | nil => exact (List.append_nil _).symm
  | atom a later ih =>
    rw [nodesFrom, List.append_assoc]
    exact ih (run ++ [a])
  | pair inside later _ _ =>
    rw [nodesFrom, Atom.splitDash_append has]
    rfl

theorem forall_mem_back {p : Atom → Prop} {ns : Nest} (h : ns.Each p) {run : List Atom} (hrun : ∀ a ∈ run, p a) :
    ∀ a ∈ ns.back run, p a := by
  induction ns generalizing run with
  | nil => exact hrun
  | atom a later ih => exact ih h.2 (List.forall_mem_append.mpr ⟨hrun, List.forall_mem_singleton.mpr h.1⟩)
  | pair inside later _ ih => exact ih h.2 (by simp)

theorem forall_mem_front {p : Atom → Prop} {ns : Nest} (h : ns.Each p) {run : List Atom} (hrun : ∀ a ∈ run, p a) :
    ∀ a ∈ ns.front run, p a := by
  induction ns generalizing run with
  | nil => exact hrun
  | atom a later ih => exact ih h.2 (List.forall_mem_append.mpr ⟨hrun, List.forall_mem_singleton.mpr h.1⟩)
  | pair inside later _ _ => exact Atom.forall_mem_splitDash hrun

/-- The last node up to the last pair is its group, which ends with no OR. -/
theorem endsWithOr_toBack {ns : Nest} {run : List Atom} :
    ∀ x ∈ (items (ns.toBack run)).getLast?, x.endsWithOr = false := by
  induction ns generalizing run with
  | nil =>
    intro x hx
    rw [toBack, items] at hx
    cases hx
  | atom a later ih => exact ih
  | pair inside later _ ih =>
    intro x hx
    rw [toBack, Skeleton.items_eq_map, List.map_append, List.map_cons, ← Skeleton.items_eq_map,
      ← Skeleton.items_eq_map, List.getLast?_append_of_ne_nil _ (List.cons_ne_nil _ _)] at hx
    cases hlater : items (later.toBack []) with
    | nil =>
      rw [hlater, Skeleton.item_group] at hx
      cases hx
      rfl
    | cons y ys =>
      rw [hlater, List.getLast?_cons_cons, ← hlater] at hx
      exact ih x hx

/-- The first node from the first pair on is its group, which starts with no OR. -/
theorem startsWithOr_fromFront {ns : Nest} {run : List Atom} :
    ∀ x ∈ (items (ns.fromFront run)).head?, x.startsWithOr = false := by
  induction ns generalizing run with
  | nil =>
    intro x hx
    rw [fromFront, items] at hx
    cases hx
  | atom a later ih => exact ih
  | pair inside later _ _ =>
    intro x hx
    rw [fromFront, items, Skeleton.item_group] at hx
    cases hx
    rfl

end Nest
end SearchQuery
