import SearchQuery.Proofs.Condition.Leaves

/-! Leaves renamed. Bringing a condition into canonical form looks at its leaves only to see whether they are blank, so
    new leaves that are blank where the old ones were can be put in before or after (`simplify_mapLeaves`). -/

namespace SearchQuery.Condition

mutual

/-- The condition in its shape, with other terms and other words in its phrases. -/
def mapLeaves (term words : Text → Text) : ClosedCondition → ClosedCondition
  | .blank => .blank
  | .keyword t => .keyword (term t)
  | .phrase w => .phrase (words w)
  | .negation c => .negation (mapLeaves term words c)
  | .compound op parts => .compound op (mapLeavesAll term words parts)

/-- Several conditions with other terms and other words. -/
def mapLeavesAll (term words : Text → Text) : List ClosedCondition → List ClosedCondition
  | [] => []
  | c :: cs => mapLeaves term words c :: mapLeavesAll term words cs

end

variable {term words : Text → Text}

theorem mapLeavesAll_eq (cs : List ClosedCondition) : mapLeavesAll term words cs = cs.map (mapLeaves term words) := by
  induction cs with
  | nil => rw [mapLeavesAll]; rfl
  | cons c cs ih => rw [mapLeavesAll, ih]; rfl

@[simp] theorem mapLeaves_blank : mapLeaves term words .blank = .blank := by
  rw [mapLeaves]

@[simp] theorem mapLeaves_keyword (t : Text) : mapLeaves term words (.keyword t) = .keyword (term t) := by
  rw [mapLeaves]

@[simp] theorem mapLeaves_phrase (w : Text) : mapLeaves term words (.phrase w) = .phrase (words w) := by
  rw [mapLeaves]

@[simp] theorem mapLeaves_negation (c : ClosedCondition) :
    mapLeaves term words (.negation c) = .negation (mapLeaves term words c) := by
  rw [mapLeaves]

@[simp] theorem mapLeaves_compound (op : Connective) (parts : List ClosedCondition) :
    mapLeaves term words (.compound op parts) = .compound op (parts.map (mapLeaves term words)) := by
  rw [mapLeaves, mapLeavesAll_eq]

/-! ### Canonical form -/

theorem isBlank_mapLeaves (c : ClosedCondition) : (mapLeaves term words c).isBlank = c.isBlank := by
  cases c with
  | foreign value => exact value.elim
  | _ => rfl

theorem partsUnder_mapLeaves (op : Connective) (c : ClosedCondition) :
    (mapLeaves term words c).partsUnder op = (c.partsUnder op).map (mapLeaves term words) := by
  cases c with
  | foreign value => exact value.elim
  | compound op' parts =>
    rw [mapLeaves_compound, partsUnder, partsUnder]
    split
    · rfl
    · rw [List.map_singleton, mapLeaves_compound]
  | _ => rfl

theorem negate_mapLeaves (c : ClosedCondition) : (mapLeaves term words c).negate = mapLeaves term words c.negate := by
  cases c with
  | foreign value => exact value.elim
  | _ => rfl

theorem join_mapLeaves (op : Connective) (cs : List ClosedCondition) :
    join op (cs.map (mapLeaves term words)) = mapLeaves term words (join op cs) := by
  have hfilter : (cs.map (mapLeaves term words)).filter (fun c => !c.isBlank) =
      (cs.filter fun c => !c.isBlank).map (mapLeaves term words) := by
    rw [List.filter_map]
    simp only [Function.comp_def, isBlank_mapLeaves]
  rw [join, join, hfilter]
  rcases hcs : cs.filter (fun c => !c.isBlank) with _ | ⟨c, _ | ⟨d, cs'⟩⟩ <;> rw [hcs]
  · rfl
  · rfl
  · show Condition.compound op (((c :: d :: cs').map (mapLeaves term words)).flatMap (partsUnder op)) =
      mapLeaves term words (.compound op ((c :: d :: cs').flatMap (partsUnder op)))
    rw [mapLeaves_compound, List.flatMap_map, List.map_flatMap]
    simp only [partsUnder_mapLeaves]

variable (hterm : ∀ t, (term t).notBlank = t.notBlank) (hwords : ∀ w, (words w).notBlank = w.notBlank)

include hterm hwords in
/-- Leaves can be renamed before or after a condition is brought into canonical form. -/
theorem simplify_mapLeaves (c : ClosedCondition) :
    (mapLeaves term words c).simplify = mapLeaves term words c.simplify := by
  induction c using byParts with
  | blank => rw [simplify_blank, mapLeaves_blank, simplify_blank]
  | keyword t =>
    rw [mapLeaves_keyword, simplify_keyword, simplify_keyword, ofTerm, ofTerm, hterm]
    split
    · exact (mapLeaves_keyword t).symm
    · exact mapLeaves_blank.symm
  | phrase w =>
    rw [mapLeaves_phrase, simplify_phrase, simplify_phrase, ofPhrase, ofPhrase, hwords]
    split
    · exact (mapLeaves_phrase w).symm
    · exact mapLeaves_blank.symm
  | negation c ih => rw [mapLeaves_negation, simplify_negation, simplify_negation, ih, negate_mapLeaves]
  | compound op parts ih =>
    rw [mapLeaves_compound, simplify_compound, simplify_compound, ← join_mapLeaves, List.map_map, List.map_map]
    exact congrArg (join op) (List.map_congr_left ih)

include hterm hwords in
theorem reduced_mapLeaves {c : ClosedCondition} (h : c.Reduced) : (mapLeaves term words c).Reduced := by
  rw [← h.simplify, ← simplify_mapLeaves hterm hwords]
  exact reduced_simplify _

theorem Every.mapLeaves {term words : Text → Text} {P Q : Text → Prop} {c : ClosedCondition}
    (h : c.Every (fun t => P (term t)) fun w => Q (words w)) : (c.mapLeaves term words).Every P Q := by
  induction h with
  | blank => exact .blank
  | keyword h => exact .keyword h
  | phrase h => exact .phrase h
  | negation _ ih =>
    rw [mapLeaves_negation]
    exact ih.negation
  | compound _ ih =>
    rw [mapLeaves_compound]
    refine .compound fun c hc => ?_
    obtain ⟨d, hd, rfl⟩ := List.mem_map.mp hc
    exact ih d hd

/-! ### Leaves renamed again -/

theorem mapLeaves_id (c : ClosedCondition) : mapLeaves id id c = c := by
  induction c using byParts with
  | blank => rfl
  | keyword t => rfl
  | phrase w => rfl
  | negation c ih => rw [mapLeaves_negation, ih]
  | compound op parts ih =>
    rw [mapLeaves_compound]
    exact congrArg (Condition.compound op) ((List.map_congr_left ih).trans (List.map_id _))

theorem mapLeaves_mapLeaves (term' words' : Text → Text) (c : ClosedCondition) :
    mapLeaves term' words' (mapLeaves term words c) = mapLeaves (term' ∘ term) (words' ∘ words) c := by
  induction c using byParts with
  | blank => rfl
  | keyword t => rfl
  | phrase w => rfl
  | negation c ih => rw [mapLeaves_negation, mapLeaves_negation, mapLeaves_negation, ih]
  | compound op parts ih =>
    rw [mapLeaves_compound, mapLeaves_compound, mapLeaves_compound, List.map_map]
    exact congrArg (Condition.compound op) (List.map_congr_left ih)

theorem mapLeaves_of_leftInverse {term' words' : Text → Text} (hterm : Function.LeftInverse term' term)
    (hwords : Function.LeftInverse words' words) (c : ClosedCondition) :
    mapLeaves term' words' (mapLeaves term words c) = c := by
  have hterm : term' ∘ term = id := funext hterm
  have hwords : words' ∘ words = id := funext hwords
  rw [mapLeaves_mapLeaves, hterm, hwords, mapLeaves_id]

end SearchQuery.Condition
