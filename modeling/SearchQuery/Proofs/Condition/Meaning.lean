import SearchQuery.Proofs.Condition.Canonical

/-! What a condition says of a document. Its terms and phrases hold there or not; a condition that asks for nothing
    neither holds nor fails, it is absent. What is absent can be taken neither for true nor for false: an empty AND in
    an OR has to leave the OR to its other parts, and under a negation it stays absent. Joining and negating conditions
    keep what they say (`holds?_join`, `holds?_negate`), and a canonical condition is never absent. -/

namespace SearchQuery

/-- Which terms and which phrases hold. -/
structure Assignment where
  term : Text → Bool
  phrase : Text → Bool

namespace Connective

/-- What conditions with these values say when they are joined: nothing if there are none of them. -/
def value? : Connective → List Bool → Option Bool
  | _, [] => none
  | .and, values => some (values.all id)
  | .or, values => some (values.any id)

/-- What a connective makes of two values. -/
def apply : Connective → Bool → Bool → Bool
  | .and => Bool.and
  | .or => Bool.or

variable (op : Connective)

theorem value?_singleton (b : Bool) : op.value? [b] = some b := by
  cases op <;> cases b <;> rfl

theorem value?_eq_none_iff {values : List Bool} : op.value? values = none ↔ values = [] := by
  cases values with
  | nil => cases op <;> simp [value?]
  | cons b values => cases op <;> simp [value?]

theorem value?_toList (b : Option Bool) : op.value? b.toList = b := by
  cases b with
  | none => cases op <;> rfl
  | some b => exact op.value?_singleton b

/-- Values can be joined in two parts, of which an absent one does not count. -/
theorem value?_append (xs ys : List Bool) :
    op.value? (xs ++ ys) = Option.merge op.apply (op.value? xs) (op.value? ys) := by
  cases xs with
  | nil => cases op <;> exact Option.merge_none_left.symm
  | cons x xs =>
    cases ys with
    | nil =>
      rw [List.append_nil]
      cases op <;> exact Option.merge_none_right.symm
    | cons y ys => cases op <;> simp [value?, apply, Bool.and_assoc, Bool.or_assoc]

/-- Values can be joined group by group: each group counts by what it comes to on its own. -/
theorem value?_flatMap_congr {α : Type} {f g : α → List Bool} (h : ∀ x, op.value? (f x) = op.value? (g x))
    (xs : List α) : op.value? (xs.flatMap f) = op.value? (xs.flatMap g) := by
  induction xs with
  | nil => rfl
  | cons x xs ih => rw [List.flatMap_cons, List.flatMap_cons, value?_append, value?_append, h, ih]

end Connective

namespace Condition

mutual

/-- Whether a condition holds, if it asks for anything. -/
def holds? (v : Assignment) : ClosedCondition → Option Bool
  | .blank => none
  | .keyword term => if term.notBlank then some (v.term term) else none
  | .phrase words => if words.notBlank then some (v.phrase words) else none
  | .negation c => (holds? v c).map not
  | .compound op parts => op.value? (values v parts)

/-- The values of the conditions that are not absent. -/
def values (v : Assignment) : List ClosedCondition → List Bool
  | [] => []
  | c :: cs => (holds? v c).toList ++ values v cs

end

variable (v : Assignment)

theorem values_eq (cs : List ClosedCondition) : values v cs = cs.flatMap fun c => (holds? v c).toList := by
  induction cs with
  | nil => rw [values]; rfl
  | cons c cs ih => rw [values, ih, List.flatMap_cons]

theorem holds?_blank : holds? v .blank = none := by
  rw [holds?]

theorem holds?_negation (c : ClosedCondition) : holds? v (.negation c) = (holds? v c).map not := by
  rw [holds?]

theorem holds?_compound (op : Connective) (cs : List ClosedCondition) :
    holds? v (.compound op cs) = op.value? (cs.flatMap fun c => (holds? v c).toList) := by
  rw [holds?, values_eq]

/-! ### Negating and joining -/

theorem map_not_map_not (b : Option Bool) : (b.map not).map not = b := by
  cases b with
  | none => rfl
  | some b => exact congrArg some (Bool.not_not b)

theorem holds?_negate (c : ClosedCondition) : holds? v c.negate = (holds? v c).map not := by
  cases c with
  | blank =>
    rw [negate, holds?_blank]
    rfl
  | negation c => rw [negate, holds?_negation, map_not_map_not]
  | foreign value => exact value.elim
  | _ => exact holds?_negation v _

/-- The parts that a condition brings to a compound say there what the condition says. -/
theorem value?_partsUnder (op : Connective) (c : ClosedCondition) :
    op.value? ((c.partsUnder op).flatMap fun c => (holds? v c).toList) = op.value? (holds? v c).toList := by
  have hself : op.value? ([c].flatMap fun c => (holds? v c).toList) = op.value? (holds? v c).toList := by
    rw [List.flatMap_singleton]
  cases c with
  | compound op' parts =>
    rw [partsUnder]
    split
    · next hop => rw [op.value?_toList, holds?_compound, hop]
    · exact hself
  | _ => exact hself

/-- Joined conditions say what a compound of them says. -/
theorem holds?_join (op : Connective) (cs : List ClosedCondition) :
    holds? v (join op cs) = op.value? (cs.flatMap fun c => (holds? v c).toList) := by
  rw [← flatMap_filter_isBlank (congrArg Option.toList (holds?_blank v)), join]
  rcases hcs : cs.filter (fun c => !c.isBlank) with _ | ⟨c, _ | ⟨d, cs'⟩⟩ <;> rw [hcs]
  · rw [holds?_blank]
    cases op <;> rfl
  · rw [List.flatMap_singleton, op.value?_toList]
  · show holds? v (.compound op _) = _
    rw [holds?_compound, List.flatMap_assoc]
    exact op.value?_flatMap_congr (value?_partsUnder v op) _

/-! ### Simplifying -/

theorem holds?_simplify (c : ClosedCondition) : holds? v c.simplify = holds? v c := by
  induction c using byParts with
  | blank => rw [simplify_blank]
  | keyword term =>
    rw [simplify_keyword, ofTerm]
    split
    · rfl
    · next h => rw [holds?, holds?, if_neg h]
  | phrase words =>
    rw [simplify_phrase, ofPhrase]
    split
    · rfl
    · next h => rw [holds?, holds?, if_neg h]
  | negation c ih => rw [simplify_negation, holds?_negate, ih, holds?_negation]
  | compound op parts ih =>
    have hparts : parts.map (fun c => (holds? v c.simplify).toList) = parts.map fun c => (holds? v c).toList :=
      List.map_congr_left fun c hc => congrArg Option.toList (ih c hc)
    rw [simplify_compound, holds?_join, List.flatMap_map, List.flatMap_def, hparts, ← List.flatMap_def,
      holds?_compound]

theorem Canonical.holds?_ne_none {c : ClosedCondition} (h : Canonical c) : holds? v c ≠ none := by
  induction h with
  | keyword h => rw [holds?, if_pos h]; exact Option.some_ne_none _
  | phrase h => rw [holds?, if_pos h]; exact Option.some_ne_none _
  | negation _ _ ih =>
    rw [holds?_negation]
    exact mt Option.map_eq_none_iff.mp ih
  | @compound op parts hlen _ _ ih =>
    -- One part that says something is enough, and there are two.
    obtain ⟨c, hc⟩ := List.exists_mem_of_length_pos (Nat.lt_of_lt_of_le Nat.zero_lt_two hlen)
    rw [holds?_compound, Ne, op.value?_eq_none_iff, List.flatMap_eq_nil_iff]
    intro hnone
    exact ih c hc (Option.toList_eq_nil_iff.mp (hnone c hc))

/-- A condition and its canonical form say the same of every document, and it is absent there exactly when its
    canonical form is blank. -/
theorem holds?_simplify_absent (c : ClosedCondition) :
    holds? v c.simplify = holds? v c ∧ (holds? v c = none ↔ c.simplify = .blank) := by
  refine ⟨holds?_simplify v c, ?_⟩
  rw [← holds?_simplify]
  constructor
  · intro hnone
    rcases reduced_simplify c with hblank | hcanonical
    · exact hblank
    · exact absurd hnone (hcanonical.holds?_ne_none v)
  · intro hblank
    rw [hblank, holds?_blank]

/-- An empty AND does not make the OR around it true, and it stays absent below a negation. -/
example : holds? ⟨fun _ => false, fun _ => true⟩
    (.compound .or [.compound .and [], .negation (.compound .and [.phrase [' ']]), .keyword ['a']]) = some false := rfl

end Condition
end SearchQuery
