import SearchQuery.Proofs.Condition.Canonical

/-! The terms and phrases of a condition. Joining and negating conditions brings no leaf that was not there. -/

namespace SearchQuery.Condition

/-- Every term of the condition satisfies `term`, and the words of every phrase satisfy `phrase`. -/
inductive Every (term phrase : Text → Prop) : ClosedCondition → Prop where
  | blank : Every term phrase .blank
  | keyword {t : Text} (h : term t) : Every term phrase (.keyword t)
  | phrase {w : Text} (h : phrase w) : Every term phrase (.phrase w)
  | negation {c : ClosedCondition} (h : Every term phrase c) : Every term phrase (.negation c)
  | compound {op : Connective} {parts : List ClosedCondition} (h : ∀ c ∈ parts, Every term phrase c) :
      Every term phrase (.compound op parts)

namespace Every

variable {term phrase : Text → Prop} {c : ClosedCondition} {cs : List ClosedCondition} {op : Connective}

theorem of_keyword {t : Text} (h : Every term phrase (.keyword t)) : term t := by
  cases h with
  | keyword h => exact h

theorem of_phrase {w : Text} (h : Every term phrase (.phrase w)) : phrase w := by
  cases h with
  | phrase h => exact h

theorem of_negation (h : Every term phrase (.negation c)) : Every term phrase c := by
  cases h with
  | negation h => exact h

theorem of_compound (h : Every term phrase (.compound op cs)) : ∀ c ∈ cs, Every term phrase c := by
  cases h with
  | compound h => exact h

theorem negate (h : Every term phrase c) : Every term phrase c.negate := by
  cases h with
  | blank => exact .blank
  | negation h => exact h
  | keyword h => exact .negation (.keyword h)
  | phrase h => exact .negation (.phrase h)
  | compound h => exact .negation (.compound h)

theorem of_mem_partsUnder (h : Every term phrase c) {p : ClosedCondition} (hp : p ∈ c.partsUnder op) :
    Every term phrase p := by
  cases c with
  | compound op' parts =>
    rw [partsUnder] at hp
    split at hp
    · exact h.of_compound p hp
    · exact List.mem_singleton.mp hp ▸ h
  | _ => exact List.mem_singleton.mp hp ▸ h

theorem join (h : ∀ c ∈ cs, Every term phrase c) : Every term phrase (Condition.join op cs) := by
  rw [Condition.join]
  have hfilter : ∀ c ∈ cs.filter (fun c => !c.isBlank), Every term phrase c := fun c hc =>
    h c (List.mem_filter.mp hc).1
  rcases hcs : cs.filter (fun c => !c.isBlank) with _ | ⟨c, _ | ⟨d, cs'⟩⟩ <;> rw [hcs] at hfilter <;> rw [hcs]
  · exact .blank
  · exact hfilter c List.mem_cons_self
  · refine .compound fun p hp => ?_
    obtain ⟨c, hc, hp⟩ := List.mem_flatMap.mp hp
    exact (hfilter c hc).of_mem_partsUnder hp

theorem simplify (h : Every term phrase c) : Every term phrase c.simplify := by
  induction h with
  | blank =>
    rw [simplify_blank]
    exact .blank
  | keyword h =>
    rw [simplify_keyword, ofTerm]
    split
    · exact .keyword h
    · exact .blank
  | phrase h =>
    rw [simplify_phrase, ofPhrase]
    split
    · exact .phrase h
    · exact .blank
  | negation _ ih =>
    rw [simplify_negation]
    exact ih.negate
  | compound _ ih =>
    rw [simplify_compound]
    refine join fun c hc => ?_
    obtain ⟨d, hd, rfl⟩ := List.mem_map.mp hc
    exact ih d hd

theorem mono {P P' Q Q' : Text → Prop} (h : Every P Q c) (hterm : ∀ t, P t → P' t)
    (hwords : ∀ w, Q w → Q' w) : Every P' Q' c := by
  induction h with
  | blank => exact .blank
  | keyword h => exact .keyword (hterm _ h)
  | phrase h => exact .phrase (hwords _ h)
  | negation _ ih => exact ih.negation
  | compound _ ih => exact .compound ih

end Every

/-- The leaves of a canonical condition are not blank, and what is known of them in two ways holds at once. -/
theorem Canonical.every {P P' P'' Q Q' Q'' : Text → Prop} {c : ClosedCondition} (hc : Canonical c) (h : c.Every P Q)
    (h' : c.Every P' Q') (hterm : ∀ t : Text, t.notBlank = true → P t → P' t → P'' t)
    (hwords : ∀ w : Text, w.notBlank = true → Q w → Q' w → Q'' w) : c.Every P'' Q'' := by
  induction hc with
  | keyword hb => exact .keyword (hterm _ hb h.of_keyword h'.of_keyword)
  | phrase hb => exact .phrase (hwords _ hb h.of_phrase h'.of_phrase)
  | negation _ _ ih => exact (ih h.of_negation h'.of_negation).negation
  | compound _ _ _ ih =>
    exact .compound fun d hd => ih d hd (h.of_compound d hd) (h'.of_compound d hd)

end SearchQuery.Condition
