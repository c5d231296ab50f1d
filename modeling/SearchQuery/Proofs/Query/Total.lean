import SearchQuery.Query
import SearchQuery.Proofs.Layer.Nodes
import SearchQuery.Proofs.Skeleton.Direct

/-! Reading a query never fails. The layers of any text are those of a nest, and the condition of a tree of layers
    is given by recursion, so every placeholder leads somewhere (`Query.parse_eq`). The condition is canonical
    because each level is simplified, and its leaves are made of the characters of the query. -/

namespace SearchQuery

open Layer (each_nest)
open Skeleton (items direct)

namespace Query

/-- Every leaf of a condition that is read is made of the characters of its query: no term holds a blank or a mark
    of a placeholder, no phrase a quote or a mark. -/
def Readable (p : Char → Prop) : ClosedCondition → Prop :=
  Condition.Every (fun term => ∀ c ∈ term, isBlank c = false ∧ Phrase.isMark c = false)
    (fun words => ∀ c ∈ words, c ≠ '"' ∧ p c ∧ Phrase.isMark c = false)

variable {p : Char → Prop}

theorem readable_segment (hquote : p '"') (hdash : p '-') (hspace : p ' ') {run : List Atom}
    (h : ∀ a ∈ run, a.Has p) : ∀ x ∈ items (Atom.segment run), Readable p x.condition := by
  intro x hx
  rw [Atom.segment] at hx
  split at hx
  · rw [items, items, List.mem_singleton, Skeleton.item_text] at hx
    rw [hx]
    exact Segment.every_read (Atom.mem_text hquote hdash (Atom.forall_mem_pad hspace h))
  · rw [items] at hx
    cases hx

theorem readable_direct {nodes : List ClosedNode} (h : ∀ x ∈ items nodes, Readable p x.condition) :
    Readable p (direct nodes) :=
  Skeleton.every_level h

/-- The items of a nest are made of the characters of its atoms. -/
theorem readable_nodesFrom (hquote : p '"') (hdash : p '-') (hspace : p ' ') {ns : Nest} {run : List Atom}
    (hrun : ∀ a ∈ run, a.Has p) (h : ns.Each (Atom.Has p)) :
    ∀ x ∈ items (ns.nodesFrom run), Readable p x.condition := by
  induction ns generalizing run with
  | nil => exact readable_segment hquote hdash hspace hrun
  | atom a later ih =>
    refine ih (fun b hb => ?_) h.2
    rcases List.mem_append.mp hb with hb | hb
    · exact hrun b hb
    · exact List.mem_singleton.mp hb ▸ h.1
  | pair inside later ihinside ih =>
    have hinside : Readable p (direct (inside.nodesFrom [])) := readable_direct (ihinside (by simp) h.1)
    intro x hx
    rw [Nest.nodesFrom, Skeleton.items_eq_map, List.map_append, ← Skeleton.items_eq_map] at hx
    rcases List.mem_append.mp hx with hx | hx
    · exact readable_segment hquote hdash hspace (Atom.forall_mem_splitDash hrun) x hx
    · rw [List.map_cons, ← Skeleton.items_eq_map, Skeleton.item_group] at hx
      rcases List.mem_cons.mp hx with rfl | hx
      · show Readable p (if _ then _ else _)
        split
        · exact Condition.Every.simplify (.negation hinside)
        · exact hinside
      · exact ih (by simp) h.2 x hx

/-- The condition of a query is that of the nest that its atoms are read as. -/
theorem parse_eq (settings : Settings) (query : Text) :
    parse settings query = .ok (direct (Layer.nest settings (Layer.atoms query)).nodes) := by
  rw [parse, Layer.ofQuery_eq]
  exact Skeleton.toCondition_eq _

theorem has_of_mem_atoms {query : Text} : ∀ a ∈ Layer.atoms query, a.Has fun c => c ≠ '”' := by
  have hscan : ∀ a ∈ Phrase.scan query.normalizeQuotes, a.Has fun c => c ≠ '”' := fun a ha => by
    have hextracted := Phrase.extracted_scan Text.ne_of_mem_normalizeQuotes a ha
    cases a with
    | char c => exact hextracted.1
    | phrase negated words => exact fun c hc => (hextracted.2 c hc).2.1
  have hsymbol : '(' ≠ '”' ∧ ')' ≠ '”' ∧ ' ' ≠ '”' := by decide
  exact Layer.forall_mem_atoms hsymbol.1 hsymbol.2.1 hsymbol.2.2 hscan

/-- Every query has a condition: it is blank or canonical, its terms hold no blanks and no marks of placeholders,
    and its phrases no quotes, typed either way, and no marks. -/
theorem exists_parse_eq (settings : Settings) (query : Text) :
    ∃ c, parse settings query = .ok c ∧ c.Reduced ∧
      c.Every (fun term => ∀ d ∈ term, isBlank d = false ∧ Phrase.isMark d = false)
        (fun words => ∀ d ∈ words, d ≠ '"' ∧ d ≠ '”' ∧ Phrase.isMark d = false) := by
  refine ⟨_, parse_eq settings query, Skeleton.reduced_direct _, readable_direct ?_⟩
  have hopen : Atom.Has (fun c => c ≠ '”') (.char '(') := show '(' ≠ '”' by decide
  exact readable_nodesFrom (by decide) (by decide) (by decide) (by simp) (each_nest hopen settings has_of_mem_atoms)

end Query
end SearchQuery
