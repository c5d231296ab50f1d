import SearchQuery.Proofs.Condition.Canonical

/-! How many alternatives a condition brings. Conditions joined by AND are one alternative as soon as two of them ask
    for something, so an AND around alternatives is not what it is around each of them (`partsOf_join_and_iff`). -/

namespace SearchQuery.Condition

theorem join_blank_cons (op : Connective) (cs : List ClosedCondition) : join op (.blank :: cs) = join op cs := rfl

theorem join_append_blank (op : Connective) (cs : List ClosedCondition) : join op (cs ++ [.blank]) = join op cs := by
  rw [← join_filter, ← join_filter op cs, List.filter_append]
  exact congrArg (join op) (List.append_nil _)

theorem join_append {op : Connective} {cs ds : List ClosedCondition} (hc : ∀ c ∈ cs, Reduced c)
    (hd : ∀ d ∈ ds, Reduced d) : join op (cs ++ ds) = join op [join op cs, join op ds] := by
  have hcds : ∀ c ∈ cs ++ ds, Reduced c := fun c h => (List.mem_append.mp h).elim (hc c) (hd c)
  have hjoins : ∀ c ∈ [join op cs, join op ds], Reduced c := by
    simpa using ⟨reduced_join hc, reduced_join hd⟩
  rw [join_eq hcds, join_eq hjoins, List.flatMap_append, List.flatMap_cons, List.flatMap_singleton, partsOf_join hc,
    partsOf_join hd]

theorem isBlank_join (op : Connective) (cs : List ClosedCondition) : (join op cs).isBlank = cs.all isBlank := by
  have hall : cs.all isBlank = (cs.filter fun c => !c.isBlank).isEmpty := by
    rw [Bool.eq_iff_iff, List.all_eq_true, List.isEmpty_iff, List.filter_eq_nil_iff]
    simp
  rw [hall, join]
  rcases hcs : cs.filter (fun c => !c.isBlank) with _ | ⟨c, _ | ⟨d, cs'⟩⟩ <;> rw [hcs]
  · rfl
  · have hc : c ∈ cs.filter (fun c => !c.isBlank) := hcs ▸ List.mem_cons_self
    simpa using (List.mem_filter.mp hc).2
  · rfl

theorem isBlank_join_two (op : Connective) {c d : ClosedCondition} (h : c.isBlank = false ∨ d.isBlank = false) :
    (join op [c, d]).isBlank = false := by
  rw [isBlank_join, List.all_cons, List.all_cons, List.all_nil, Bool.and_true, Bool.and_eq_false_iff]
  exact h

theorem isBlank_iff {c : ClosedCondition} : c.isBlank = true ↔ c = .blank := by
  cases c <;> simp [isBlank]

theorem one_le_length_partsOf (op : Connective) {c : ClosedCondition} (h : Reduced c) (hc : c.isBlank = false) :
    1 ≤ (partsOf op c).length := by
  rw [partsOf, hc]
  exact one_le_length_partsUnder op (h.canonical hc)

/-- Conditions of which two ask for something are one alternative when they are joined by AND. -/
theorem length_partsOf_join_and {c d : ClosedCondition} {cs : List ClosedCondition} (h : [c, d].Sublist cs)
    (hc : c.isBlank = false) (hd : d.isBlank = false) : (partsOf .or (join .and cs)).length = 1 := by
  have htwo : 2 ≤ (cs.filter fun c => !c.isBlank).length := by
    have hsub := (h.filter fun c => !c.isBlank).length_le
    rwa [List.filter_eq_self.mpr (by simp [hc, hd])] at hsub
  rw [join]
  rcases hcs : cs.filter (fun c => !c.isBlank) with _ | ⟨c, _ | ⟨d, cs'⟩⟩ <;> rw [hcs] at htwo ⊢
  · exact absurd htwo (by simp)
  · exact absurd htwo (by simp)
  · rfl

theorem isBlank_eq_false {c : ClosedCondition} (h : c ≠ .blank) : c.isBlank = false := by
  rw [Bool.eq_false_iff, Ne, isBlank_iff]
  exact h

variable {a t h b : ClosedCondition}

/-- An AND of two conditions is one alternative, and so it is no sum of alternatives. -/
theorem partsOf_join_and_ne (ha : Reduced a) (ht : Reduced t) (hh : Reduced h) (hb : Reduced b) {c d : ClosedCondition}
    (hcd : [c, d].Sublist [a, join .or [t, h], b]) (hc : c.isBlank = false) (hd : d.isBlank = false)
    (hleft : a.isBlank = false ∨ t.isBlank = false) (hright : h.isBlank = false ∨ b.isBlank = false) :
    partsOf .or (join .and [a, join .or [t, h], b]) ≠
      partsOf .or (join .and [a, t]) ++ partsOf .or (join .and [h, b]) := by
  have hat : Reduced (join .and [a, t]) := reduced_join (by simpa using ⟨ha, ht⟩)
  have hhb : Reduced (join .and [h, b]) := reduced_join (by simpa using ⟨hh, hb⟩)
  have hl := one_le_length_partsOf .or hat (isBlank_join_two .and hleft)
  have hr := one_le_length_partsOf .or hhb (isBlank_join_two .and hright)
  intro heq
  have hone := length_partsOf_join_and hcd hc hd
  rw [heq, List.length_append] at hone
  omega

/-- Alternatives joined by AND with what stands beside them come to what they are beside it one by one only if
    nothing stands there, or only one side has an alternative and the other has nothing beside it. -/
theorem partsOf_join_and_iff (ha : Reduced a) (ht : Reduced t) (hh : Reduced h) (hb : Reduced b) :
    partsOf .or (join .and [a, join .or [t, h], b]) = partsOf .or (join .and [a, t]) ++ partsOf .or (join .and [h, b]) ↔
      (a = .blank ∧ b = .blank) ∨ (a = .blank ∧ t = .blank) ∨ (b = .blank ∧ h = .blank) := by
  have hblank : ∀ c : ClosedCondition, join .and [c, .blank] = c := fun c =>
    (join_append_blank .and [c]).trans join_singleton
  -- The AND goes away where nothing stands beside the alternatives; else the left is one part and the right is two.
  by_cases hA : a = .blank <;> by_cases hB : b = .blank
  · subst hA hB
    have hth : ∀ c ∈ [t, h], Reduced c := by simpa using ⟨ht, hh⟩
    rw [join_blank_cons, join_blank_cons, hblank, hblank, join_singleton, partsOf_join hth, List.flatMap_cons,
      List.flatMap_singleton]
    simp
  · by_cases hT : t = .blank
    · subst hA hT
      rw [join_blank_cons, join_blank_cons, join_blank_cons, join_singleton, join_singleton]
      simp [partsOf, isBlank]
    · have hT' := isBlank_eq_false hT
      have hB' := isBlank_eq_false hB
      exact iff_of_false (partsOf_join_and_ne ha ht hh hb (.cons a (.refl _)) (isBlank_join_two .or (.inl hT')) hB'
        (.inr hT') (.inr hB')) (by simp [hB, hT])
  · by_cases hH : h = .blank
    · subst hB hH
      have hjoin : join .and [a, join .or [t, .blank], .blank] = join .and [a, t] := by
        rw [show join .or [t, .blank] = t from (join_append_blank .or [t]).trans join_singleton]
        exact join_append_blank .and [a, t]
      rw [hjoin, hblank]
      simp [partsOf, isBlank]
    · have hA' := isBlank_eq_false hA
      have hH' := isBlank_eq_false hH
      exact iff_of_false (partsOf_join_and_ne ha ht hh hb (.cons_cons a (.cons_cons _ (List.nil_sublist _))) hA'
        (isBlank_join_two .or (.inr hH')) (.inl hA') (.inl hH')) (by simp [hA, hH])
  · have hA' := isBlank_eq_false hA
    have hB' := isBlank_eq_false hB
    exact iff_of_false (partsOf_join_and_ne ha ht hh hb (.cons_cons a (.cons _ (.refl _))) hA' hB' (.inl hA') (.inr hB'))
      (by simp [hA, hB])

end SearchQuery.Condition
