import SearchQuery.Proofs.Condition.Canonical

/-! The signs of leaves. A condition refuses a leaf below an odd number of negations and asks for it below an even
    number. Negating a condition turns all of its signs, and joining conditions puts their leaves one after another,
    so neither loses a leaf or brings one; and so the canonical form of a condition has its leaves but for the blank
    ones. -/

namespace SearchQuery.Condition

mutual

/-- The terms and phrases of a condition from left to right, each with the parity of the negations above it, which
    starts from `negated`. -/
def signedLeaves (negated : Bool) : ClosedCondition → List (ClosedCondition × Bool)
  | .blank => []
  | .keyword term => [(.keyword term, negated)]
  | .phrase words => [(.phrase words, negated)]
  | .negation c => signedLeaves (!negated) c
  | .compound _ parts => signedLeavesAll negated parts

/-- The terms and phrases of several conditions, one condition after another. -/
def signedLeavesAll (negated : Bool) : List ClosedCondition → List (ClosedCondition × Bool)
  | [] => []
  | c :: cs => signedLeaves negated c ++ signedLeavesAll negated cs

end

variable (negated : Bool)

theorem signedLeavesAll_eq (cs : List ClosedCondition) :
    signedLeavesAll negated cs = cs.flatMap (signedLeaves negated) := by
  induction cs with
  | nil => rfl
  | cons c cs ih => rw [signedLeavesAll, ih, List.flatMap_cons]

theorem signedLeaves_compound (op : Connective) (parts : List ClosedCondition) :
    signedLeaves negated (.compound op parts) = parts.flatMap (signedLeaves negated) := by
  rw [signedLeaves, signedLeavesAll_eq]

theorem signedLeaves_negate (c : ClosedCondition) : signedLeaves negated c.negate = signedLeaves (!negated) c := by
  cases c with
  | negation c => rw [negate, signedLeaves, Bool.not_not]
  | foreign value => exact value.elim
  | _ => rfl

theorem flatMap_partsUnder (op : Connective) (c : ClosedCondition) :
    (c.partsUnder op).flatMap (signedLeaves negated) = signedLeaves negated c := by
  cases c with
  | compound op' parts =>
    rw [partsUnder]
    split
    · rw [signedLeaves_compound]
    · exact List.flatMap_singleton _ _
  | _ => exact List.flatMap_singleton _ _

/-- Joined conditions keep their leaves, in their order and with their signs. -/
theorem signedLeaves_join (op : Connective) (cs : List ClosedCondition) :
    signedLeaves negated (join op cs) = cs.flatMap (signedLeaves negated) := by
  rw [← flatMap_filter_isBlank rfl, join]
  rcases hcs : cs.filter (fun c => !c.isBlank) with _ | ⟨c, _ | ⟨d, cs'⟩⟩ <;> rw [hcs]
  · rfl
  · exact (List.flatMap_singleton _ _).symm
  · show signedLeaves negated (.compound op _) = _
    rw [signedLeaves_compound, List.flatMap_assoc]
    exact congrArg (fun f => List.flatMap f _) (funext (flatMap_partsUnder negated op))

/-- So do conditions that are joined in runs. -/
theorem signedLeaves_join_runs (op op' : Connective) (runs : List (List ClosedCondition)) :
    signedLeaves negated (join op (runs.map (join op'))) = runs.flatten.flatMap (signedLeaves negated) := by
  rw [signedLeaves_join, List.flatMap_map, ← List.flatMap_id, List.flatMap_assoc]
  exact congrArg (fun f => List.flatMap f runs) (funext (signedLeaves_join negated op'))

/-! ### Simplifying -/

/-- The condition is a leaf that means nothing. -/
def isBlankLeaf : ClosedCondition → Bool
  | .keyword term => !term.notBlank
  | .phrase words => !words.notBlank
  | _ => false

/-- Simplifying drops the blank leaves. The others keep their order, their number and their signs. -/
theorem signedLeaves_simplify (c : ClosedCondition) :
    signedLeaves negated c.simplify = (signedLeaves negated c).filter fun leaf => !leaf.1.isBlankLeaf := by
  induction c using byParts generalizing negated with
  | blank =>
    rw [simplify_blank]
    rfl
  | keyword term =>
    rw [simplify_keyword, ofTerm, signedLeaves]
    cases hterm : term.notBlank <;> simp [signedLeaves, isBlankLeaf, hterm]
  | phrase words =>
    rw [simplify_phrase, ofPhrase, signedLeaves]
    cases hwords : words.notBlank <;> simp [signedLeaves, isBlankLeaf, hwords]
  | negation c ih => rw [simplify_negation, signedLeaves_negate, ih, signedLeaves]
  | compound op parts ih =>
    rw [simplify_compound, signedLeaves_join, signedLeaves_compound, List.filter_flatMap, List.flatMap_map,
      List.flatMap_def, List.flatMap_def]
    exact congrArg List.flatten (List.map_congr_left fun c hc => ih c hc negated)

/-- Equal leaves stay apart, and a leaf below two negations that are not next to each other keeps its sign. -/
example : signedLeaves false (simplify (.compound .or [.keyword ['a'], .negation (.compound .and [.keyword [' '],
    .negation (.keyword ['a']), .keyword ['a']])])) =
      [(.keyword ['a'], false), (.keyword ['a'], false), (.keyword ['a'], true)] := rfl

end SearchQuery.Condition
