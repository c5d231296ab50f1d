import SearchQuery.Proofs.Skeleton.Level

/-! The condition of a tree of layers, by recursion on the tree: a text brings what it is read as, a group brings
    the condition of its own level, and the items of a level are joined without a skeleton. Groups are joined
    from the inside out by the program; here an induction on the tree takes their place (`toCondition_eq`). -/

namespace SearchQuery.Skeleton

open Condition (Reduced)

mutual

/-- What a node is on its level. -/
def item : ClosedNode → Segment
  | .text s => Segment.read s
  | .group negated nodes =>
    let c := level (items nodes)
    ⟨false, if negated then Condition.simplify (.negation c) else c, false⟩
  | .foreign value => value.elim

/-- What the nodes of a level are. -/
def items : List ClosedNode → List Segment
  | [] => []
  | node :: nodes => item node :: items nodes

end

/-- The condition of a tree of layers, by recursion on the tree. -/
def direct (nodes : List ClosedNode) : ClosedCondition := level (items nodes)

theorem items_eq_map (nodes : List ClosedNode) : items nodes = nodes.map item := by
  induction nodes with
  | nil => rw [items]; rfl
  | cons node nodes ih => rw [items, ih]; rfl

theorem item_text (s : Text) : item (.text s) = Segment.read s := by
  rw [item]

theorem item_group (negated : Bool) (nodes : List ClosedNode) :
    item (.group negated nodes) =
      ⟨false, if negated then Condition.simplify (.negation (direct nodes)) else direct nodes, false⟩ := by
  rw [item]
  rfl

theorem reduced_direct (nodes : List ClosedNode) : (direct nodes).Reduced := reduced_level _

theorem reduced_item (node : ClosedNode) : (item node).condition.Reduced := by
  cases node with
  | text s =>
    rw [item_text, Segment.read_eq]
    exact Segment.reduced_condition _
  | group negated nodes =>
    rw [item_group]
    cases negated
    · exact reduced_direct nodes
    · exact Condition.reduced_simplify _
  | foreign value => exact value.elim

theorem reduced_of_mem_items {nodes : List ClosedNode} : ∀ x ∈ items nodes, x.condition.Reduced := by
  intro x hx
  rw [items_eq_map] at hx
  obtain ⟨node, -, rfl⟩ := List.mem_map.mp hx
  exact reduced_item node

theorem combine_eq_direct {parts : List (Part Empty)} {nodes : List ClosedNode}
    (h : parts.map Part.item = items nodes) : combine parts = .ok (direct nodes) := by
  rw [direct, ← h]
  refine combine_eq fun part hpart => ?_
  have hitem : part.item ∈ items nodes := h ▸ List.mem_map_of_mem hpart
  exact reduced_of_mem_items part.item hitem

mutual

/-- A node is drafted, and its draft is closed to a part that is the node's item. -/
theorem draft_eq : ∀ node : ClosedNode, ∃ d p, draft node = .ok d ∧ Part.item p = item node ∧
    ∀ ds ps, close ds = .ok ps → close (d :: ds) = .ok (p :: ps)
  | .text s => by
    refine ⟨.text s, .text s, by rw [draft], by rw [item]; rfl, fun ds ps h => ?_⟩
    rw [close, h]
    rfl
  | .group negated nodes => by
    obtain ⟨drafts, parts, hdrafts, hparts, hitems⟩ := draftAll_eq nodes
    have hcombine := combine_eq_direct hitems
    have hdraft : draft (.group negated nodes) = .ok (.group negated parts) := by
      rw [draft, hdrafts]
      show (do let parts ← close drafts; pure _) = _
      rw [hparts]
      rfl
    refine ⟨.group negated parts, .condition (if negated then (direct nodes).negate else direct nodes), hdraft,
      ?_, fun ds ps h => ?_⟩
    · rw [item_group, Part.item, Condition.simplify_negation, (reduced_direct nodes).simplify]
    · rw [close, h]
      show (do let c ← combine parts; _) = _
      rw [hcombine]
      rfl
  | .foreign value => value.elim

theorem draftAll_eq : ∀ nodes : List ClosedNode, ∃ drafts parts, draftAll nodes = .ok drafts ∧
    close drafts = .ok parts ∧ parts.map Part.item = items nodes
  | [] => ⟨[], [], by rw [draftAll], by rw [close], by rw [items]; rfl⟩
  | node :: nodes => by
    obtain ⟨d, p, hdraft, hitem, hclose⟩ := draft_eq node
    obtain ⟨ds, ps, hdrafts, hparts, hitems⟩ := draftAll_eq nodes
    refine ⟨d :: ds, p :: ps, by rw [draftAll, hdraft, hdrafts]; rfl, hclose ds ps hparts, ?_⟩
    rw [List.map_cons, hitem, hitems, items]

end

/-- A tree of layers is given the condition that the recursion gives it. -/
theorem toCondition_eq (nodes : List ClosedNode) : toCondition nodes = .ok (direct nodes) := by
  obtain ⟨drafts, parts, hdrafts, hparts, hitems⟩ := draftAll_eq nodes
  rw [toCondition, hdrafts]
  show (do let parts ← close drafts; combine parts) = _
  rw [hparts]
  exact combine_eq_direct hitems

/-- The condition of a tree of layers is given by recursion on the tree, with no skeleton text: a text brings the
    condition and the connectives that it is read with as a segment, a group the condition of its nodes, negated
    if it is negated, with no connectives; a level is cut between two neighbours where the left one ends with an
    OR or the right one starts with one, and asks for one of its runs. -/
theorem toCondition_eq_direct :
    (∀ nodes : List ClosedNode, toCondition nodes = .ok (direct nodes)) ∧
    (∀ nodes : List ClosedNode, direct nodes = Condition.simplify (.compound .or
      (((nodes.map item).splitBy fun left right => !(left.endsWithOr || right.startsWithOr)).map fun run =>
        .compound .and (run.map Segment.condition)))) ∧
    (∀ s : Text, Segment.ofText s = .ok (item (.text s))) ∧
    (∀ nodes : List ClosedNode, item (.group false nodes) = ⟨false, direct nodes, false⟩) ∧
    (∀ nodes : List ClosedNode,
      item (.group true nodes) = ⟨false, Condition.simplify (.negation (direct nodes)), false⟩) := by
  refine ⟨toCondition_eq, fun nodes => ?_, fun s => ?_, item_group false, item_group true⟩
  · rw [direct, items_eq_map]
    rfl
  · rw [item_text]
    exact Segment.ofText_eq_read s

end SearchQuery.Skeleton
