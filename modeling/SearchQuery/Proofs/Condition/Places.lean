import SearchQuery.Proofs.Condition.Canonical

/-! Canonical form, place by place. Nothing has to be known of the whole of a condition to see that it is canonical: it
    is when each place in it is in order by what stands there and right below (`reduced_iff`). Simplifying brings every
    place in order in one pass from the leaves up, so it has nothing left to do with what it gives. -/

namespace SearchQuery.Condition

/-- The condition stands somewhere in the other, or is the other itself. -/
inductive StandsIn (d : ClosedCondition) : ClosedCondition → Prop where
  | here : StandsIn d d
  | negation {c : ClosedCondition} (h : StandsIn d c) : StandsIn d (.negation c)
  | part {op : Connective} {parts : List ClosedCondition} {c : ClosedCondition} (hc : c ∈ parts) (h : StandsIn d c) :
      StandsIn d (.compound op parts)

/-- What canonical form asks of one place: no leaf is blank, no negation stands on a blank condition or on a negation,
    and a compound has at least two parts, none of them blank or joined the same way. -/
def InOrder : ClosedCondition → Prop
  | .blank => True
  | .keyword term => term.notBlank = true
  | .phrase words => words.notBlank = true
  | .negation c => c.isBlank = false ∧ c.isNegation = false
  | .compound op parts => 2 ≤ parts.length ∧ ∀ c ∈ parts, c.isBlank = false ∧ c.isJoined op = false

variable {c d : ClosedCondition}

theorem Canonical.inOrder (h : Canonical c) : c.InOrder := by
  cases h with
  | keyword h => exact h
  | phrase h => exact h
  | negation h hneg => exact ⟨h.isBlank, hneg⟩
  | compound hlen h hop => exact ⟨hlen, fun c hc => ⟨(h c hc).isBlank, hop c hc⟩⟩

/-- What stands in a canonical condition is canonical. -/
theorem Canonical.of_standsIn (hd : StandsIn d c) (h : Canonical c) : Canonical d := by
  induction hd with
  | here => exact h
  | negation _ ih =>
    cases h with
    | negation h _ => exact ih h
  | part hc _ ih =>
    cases h with
    | compound _ h _ => exact ih (h _ hc)

theorem Reduced.inOrder (h : Reduced c) (hd : StandsIn d c) : d.InOrder := by
  rcases h with rfl | h
  · cases hd
    trivial
  · exact (h.of_standsIn hd).inOrder

/-- A condition is reduced when every place in it is in order. -/
theorem reduced_of_inOrder (c : ClosedCondition) (h : ∀ d, StandsIn d c → d.InOrder) : Reduced c := by
  induction c using byParts with
  | blank => exact reduced_blank
  | keyword term => exact (Canonical.keyword (h _ .here)).reduced
  | phrase words => exact (Canonical.phrase (h _ .here)).reduced
  | negation c ih =>
    obtain ⟨hblank, hneg⟩ : c.isBlank = false ∧ c.isNegation = false := h _ .here
    have hc := ih fun d hd => h d (.negation hd)
    exact (Canonical.negation (hc.canonical hblank) hneg).reduced
  | compound op parts ih =>
    obtain ⟨hlen, hparts⟩ : 2 ≤ parts.length ∧ ∀ c ∈ parts, c.isBlank = false ∧ c.isJoined op = false := h _ .here
    refine (Canonical.compound hlen (fun c hc => ?_) fun c hc => (hparts c hc).2).reduced
    exact (ih c hc fun d hd => h d (.part hc hd)).canonical (hparts c hc).1

theorem reduced_iff : Reduced c ↔ ∀ d, StandsIn d c → d.InOrder :=
  ⟨fun h _ => h.inOrder, reduced_of_inOrder c⟩

theorem simplify_eq_self_iff : c.simplify = c ↔ Reduced c :=
  ⟨fun h => h ▸ reduced_simplify c, fun h => h.simplify⟩

/-- Simplifying brings every place of a condition in order. It leaves a condition as it is when every place is in order
    already, and only then; so it changes nothing when it is done again, and these are the conditions that it gives. -/
theorem simplify_onto_reduced (c : ClosedCondition) :
    (∀ d, StandsIn d c.simplify → d.InOrder) ∧
      (c.simplify = c ↔ ∀ d, StandsIn d c → d.InOrder) ∧
      c.simplify.simplify = c.simplify ∧
      ((∃ b : ClosedCondition, b.simplify = c) ↔ ∀ d, StandsIn d c → d.InOrder) := by
  refine ⟨fun d hd => ?_, ?_, ?_, ?_⟩
  · exact (reduced_simplify c).inOrder hd
  · rw [simplify_eq_self_iff, reduced_iff]
  · exact (reduced_simplify c).simplify
  · rw [← reduced_iff]
    constructor
    · rintro ⟨b, rfl⟩
      exact reduced_simplify b
    · intro h
      exact ⟨c, h.simplify⟩

/-- The part that takes the place of its compound may itself have to give way: a negation cancels with the one above it,
    and the compound below them comes to stand in one of its kind. -/
example : simplify (.compound .and [.keyword ['a'], .negation (.compound .or [.negation (.compound .and
    [.blank, .compound .and [.keyword ['b'], .phrase ['c']]])])]) =
      .compound .and [.keyword ['a'], .keyword ['b'], .phrase ['c']] := rfl

end SearchQuery.Condition
