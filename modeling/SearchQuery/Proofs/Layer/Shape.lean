import SearchQuery.Proofs.Layer.Nodes

/-! The shape of the layers of a query. Pairs around blanks are left out when brackets are paired, so every pair that is
    left has something inside (`Nest.Solid`), and a level with something on it has a node. Between two texts stands a
    group, and what a text is typed from holds no mark of a placeholder (`Nest.shaped_nodesFrom`). -/

namespace SearchQuery

/-- The atom is typed without a mark of a placeholder. -/
def Atom.MarkFree : Atom → Prop := Atom.Has fun c => Phrase.isMark c = false

namespace Layer

mutual

/-- A text is not blank and holds no mark of a placeholder; a group is not empty and shaped inside. -/
def NodeShaped : ClosedNode → Prop
  | .text s => s.notBlank = true ∧ ∀ c ∈ s, Phrase.isMark c = false
  | .group _ nodes => nodes ≠ [] ∧ Shaped nodes
  | .foreign value => value.elim

/-- Every node is shaped, and no two texts stand next to each other. -/
def Shaped : List ClosedNode → Prop
  | [] => True
  | node :: nodes => NodeShaped node ∧ (∀ s t, node = .text s → nodes.head? ≠ some (.text t)) ∧ Shaped nodes

end

theorem shaped_group {negated : Bool} {inside nodes : List ClosedNode} (hne : inside ≠ []) (hinside : Shaped inside)
    (hnodes : Shaped nodes) : Shaped (.group negated inside :: nodes) := by
  rw [Shaped, NodeShaped]
  exact ⟨⟨hne, hinside⟩, by simp, hnodes⟩

theorem shaped_segment_append {run : List Atom} (hrun : ∀ a ∈ run, a.MarkFree) {nodes : List ClosedNode}
    (hnodes : Shaped nodes) (hhead : ∀ t, nodes.head? ≠ some (.text t)) : Shaped (Atom.segment run ++ nodes) := by
  rw [Atom.segment]
  split
  · next hblank =>
    have hpad : ∀ a ∈ Atom.pad run, a.MarkFree := Atom.forall_mem_pad (p := Atom.MarkFree) rfl hrun
    have htext := Atom.mem_text (p := fun c => Phrase.isMark c = false) rfl rfl hpad
    rw [List.singleton_append, Shaped, NodeShaped]
    exact ⟨⟨hblank, htext⟩, fun _ t _ => hhead t, hnodes⟩
  · exact hnodes

end Layer

namespace Nest

open Layer (Shaped shaped_group shaped_segment_append)

/-! ### Pairs with something inside -/

/-- No pair of the level, or of the levels inside it, is around blanks. -/
def Solid : Nest → Prop
  | nil => True
  | atom _ later => Solid later
  | pair inside later => inside.isBlank = false ∧ Solid inside ∧ Solid later

variable {ms ns current : Nest} {opens : List Nest}

theorem Solid.append (hm : ms.Solid) (hn : ns.Solid) : (ms ++ ns).Solid := by
  induction ms with
  | nil => exact hn
  | atom a later ih => exact ih hm
  | pair inside later _ ih =>
    obtain ⟨hinside, hsolid, hlater⟩ := hm
    exact ⟨hinside, hsolid, ih hlater⟩

theorem Solid.closed (h : current.Solid) : (closed current).Solid := by
  cases hblank : current.isBlank with
  | true =>
    rw [closed_of_isBlank hblank]
    trivial
  | false =>
    rw [closed_of_not_isBlank hblank]
    exact ⟨hblank, h, trivial⟩

theorem Solid.spliced (hopens : ∀ outer ∈ opens, outer.Solid) (hcurrent : current.Solid) :
    (spliced opens current).Solid := by
  induction opens generalizing current with
  | nil => exact hcurrent
  | cons outer opens ih =>
    obtain ⟨houter, hopens⟩ := List.forall_mem_cons.mp hopens
    exact ih hopens (houter.append hcurrent)

theorem solid_ofAtoms (as : List Atom) : (ofAtoms as).Solid := by
  induction as with
  | nil => trivial
  | cons a as ih => exact ih

/-- Pairing brackets leaves no pair around blanks. -/
theorem Solid.resume (hopens : ∀ outer ∈ opens, outer.Solid) (hcurrent : current.Solid) (h : ns.Solid) :
    (resume opens current ns).Solid := by
  induction ns generalizing opens current with
  | nil => exact Solid.spliced hopens hcurrent
  | pair inside later _ ih =>
    obtain ⟨hinside, hsolid, hlater⟩ := h
    exact ih hopens (hcurrent.append ⟨hinside, hsolid, trivial⟩) hlater
  | atom a later ih =>
    have hstep : (current ++ atom a nil).Solid := hcurrent.append trivial
    by_cases ha : isBracket a = true
    · cases a with
      | phrase => cases ha
      | char c =>
        rcases eq_of_isBracket ha with rfl | rfl
        · exact ih (List.forall_mem_cons.mpr ⟨hcurrent, hopens⟩) trivial h
        · cases opens with
          | nil => exact ih hopens hstep h
          | cons outer opens =>
            obtain ⟨houter, hopens⟩ := List.forall_mem_cons.mp hopens
            exact ih hopens (houter.append hcurrent.closed) h
    · rw [resume_atom (by simpa using ha)]
      exact ih hopens hstep h

theorem Solid.dropBrackets (h : ns.Solid) : ns.dropBrackets.Solid := by
  induction ns with
  | nil => trivial
  | pair inside later _ ih =>
    obtain ⟨hinside, hsolid, hlater⟩ := h
    exact ⟨hinside, hsolid, ih hlater⟩
  | atom a later ih =>
    rw [Nest.dropBrackets]
    split
    · exact ih h
    · exact ih h

theorem solid_nest (settings : Settings) (as : List Atom) : (Layer.nest settings as).Solid := by
  have hresume : (resume [] nil (ofAtoms as)).Solid := Solid.resume (by simp) trivial (solid_ofAtoms as)
  rw [Layer.nest]
  split
  · exact hresume.dropBrackets
  · exact hresume

/-! ### Nodes -/

/-- A level with something on it has a node. -/
theorem nodesFrom_ne_nil {run : List Atom} (h : (Atom.text (Atom.pad run)).notBlank = true ∨ ns.isBlank = false) :
    ns.nodesFrom run ≠ [] := by
  induction ns generalizing run with
  | nil =>
    have hrun := h.resolve_right (by simp [isBlank])
    rw [nodesFrom, Atom.segment, if_pos hrun]
    exact List.cons_ne_nil _ _
  | pair inside later _ _ =>
    rw [nodesFrom]
    exact List.append_ne_nil_of_right_ne_nil _ (List.cons_ne_nil _ _)
  | atom a later ih =>
    refine ih ?_
    rw [Atom.pad_append, Atom.text_append, Text.notBlank_append, Bool.or_eq_true]
    rcases h with hrun | hblank
    · exact Or.inl (Or.inl hrun)
    · cases a with
      | phrase negated words =>
        refine Or.inl (Or.inr (Text.notBlank_of_mem (c := '"') ?_ (by decide)))
        cases negated <;> simp [Atom.spaced, Atom.typed]
      | char c =>
        rw [isBlank, Bool.and_eq_false_iff] at hblank
        rcases hblank with hc | hlater
        · exact Or.inl (Or.inr (Text.notBlank_of_mem (c := c) (by simp [Atom.spaced, Atom.typed]) hc))
        · exact Or.inr hlater

theorem shaped_nodesFrom (hsolid : ns.Solid) (hns : ns.Each Atom.MarkFree) {run : List Atom}
    (hrun : ∀ a ∈ run, a.MarkFree) : Shaped (ns.nodesFrom run) := by
  induction ns generalizing run with
  | nil =>
    have hnil : Shaped [] := by rw [Shaped]; trivial
    have hsegment := shaped_segment_append hrun hnil (by simp)
    rwa [List.append_nil] at hsegment
  | atom a later ih =>
    obtain ⟨ha, hlater⟩ := hns
    exact ih hsolid hlater (List.forall_mem_append.mpr ⟨hrun, List.forall_mem_singleton.mpr ha⟩)
  | pair inside later ihinside ih =>
    obtain ⟨hinside, hlater⟩ := hns
    obtain ⟨hblank, hsolidInside, hsolidLater⟩ := hsolid
    refine shaped_segment_append (Atom.forall_mem_splitDash hrun) ?_ (by simp)
    exact shaped_group (nodesFrom_ne_nil (Or.inr hblank)) (ihinside hsolidInside hinside (by simp))
      (ih hsolidLater hlater (by simp))

end Nest

namespace Layer

theorem markFree_of_mem_atoms {query : Text} : ∀ a ∈ atoms query, a.MarkFree := by
  refine forall_mem_atoms (p := Atom.MarkFree) rfl rfl rfl fun a ha => ?_
  have hextracted := Phrase.extracted_scan (p := fun _ => True) (fun _ _ => trivial) a ha
  cases a with
  | char c => exact hextracted.2
  | phrase negated words => exact fun c hc => (hextracted.2 c hc).2.2

/-- The layers of a query have texts that are not blank and hold no mark of a placeholder, a group between any two texts
    of a level, and at least one node in every group. -/
theorem shaped_ofQuery (settings : Settings) (query : Text) :
    ∃ nodes, ofQuery settings query = .ok nodes ∧ Shaped nodes := by
  refine ⟨_, ofQuery_eq settings query, Nest.shaped_nodesFrom (Nest.solid_nest settings _) ?_ (by simp)⟩
  exact each_nest (p := Atom.MarkFree) rfl settings markFree_of_mem_atoms

end Layer
end SearchQuery
