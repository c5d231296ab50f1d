import Mathlib.Logic.Relation
import SearchQuery.Proofs.Condition.Canonical

/-! Simplifying one rule at a time. A rule takes a blank leaf, a negation or a compound that is not canonical to what it
    stands for, anywhere in a condition. No rule changes the canonical form (`Step.simplify_eq`), each makes the condition
    lighter (`Step.weight_lt`), and where no rule applies the condition is in canonical form (`reduced_of_normal`). So in
    whatever order the rules are applied, they come to an end, and the end is the canonical form. -/

namespace SearchQuery.Condition

open Relation (ReflTransGen)

/-- What a rule makes of a condition that it applies to. -/
inductive Rule : ClosedCondition → ClosedCondition → Prop where
  | keyword {term : Text} (h : term.notBlank = false) : Rule (.keyword term) .blank
  | phrase {words : Text} (h : words.notBlank = false) : Rule (.phrase words) .blank
  | negationBlank : Rule (.negation .blank) .blank
  | negationTwice (c : ClosedCondition) : Rule (.negation (.negation c)) c
  | drop (op : Connective) (before after : List ClosedCondition) :
      Rule (.compound op (before ++ .blank :: after)) (.compound op (before ++ after))
  | empty (op : Connective) : Rule (.compound op []) .blank
  | lone (op : Connective) (c : ClosedCondition) : Rule (.compound op [c]) c
  | splice (op : Connective) (before parts after : List ClosedCondition) :
      Rule (.compound op (before ++ .compound op parts :: after)) (.compound op (before ++ parts ++ after))

/-- What one rule makes of a condition when it is applied somewhere in it. -/
inductive Step : ClosedCondition → ClosedCondition → Prop where
  | rule {c d : ClosedCondition} (h : Rule c d) : Step c d
  | negation {c d : ClosedCondition} (h : Step c d) : Step (.negation c) (.negation d)
  | part {c d : ClosedCondition} (op : Connective) (before after : List ClosedCondition) (h : Step c d) :
      Step (.compound op (before ++ c :: after)) (.compound op (before ++ d :: after))

/-- No rule applies anywhere in the condition. -/
def Normal (c : ClosedCondition) : Prop := ∀ d, ¬Step c d

variable {c d : ClosedCondition}

/-! ### The canonical form stays -/

/-- A join in a join of the same kind might as well bring its own parts. -/
theorem join_splice (op : Connective) {cs ds es : List ClosedCondition} (hc : ∀ c ∈ cs, Reduced c)
    (hd : ∀ d ∈ ds, Reduced d) (he : ∀ e ∈ es, Reduced e) :
    join op (cs ++ join op ds :: es) = join op (cs ++ ds ++ es) := by
  have hjoin : ∀ c ∈ cs ++ join op ds :: es, Reduced c := fun c h => by
    rcases List.mem_append.mp h with h | h
    · exact hc c h
    · rcases List.mem_cons.mp h with rfl | h
      · exact reduced_join hd
      · exact he c h
  have hparts : ∀ c ∈ cs ++ ds ++ es, Reduced c := fun c h => by
    rcases List.mem_append.mp h with h | h
    · exact (List.mem_append.mp h).elim (hc c) (hd c)
    · exact he c h
  rw [join_eq hjoin, join_eq hparts, List.flatMap_append, List.flatMap_cons, partsOf_join hd, List.flatMap_append,
    List.flatMap_append, List.append_assoc]

theorem forall_reduced_map_simplify (cs : List ClosedCondition) : ∀ c ∈ cs.map simplify, Reduced c := fun c hc => by
  obtain ⟨d, -, rfl⟩ := List.mem_map.mp hc
  exact reduced_simplify d

theorem Rule.simplify_eq (h : Rule c d) : c.simplify = d.simplify := by
  cases h with
  | keyword h => rw [simplify_keyword, ofTerm, h, simplify_blank]; rfl
  | phrase h => rw [simplify_phrase, ofPhrase, h, simplify_blank]; rfl
  | negationBlank => rw [simplify_negation, simplify_blank]; rfl
  | negationTwice c => rw [simplify_negation, simplify_negation, (reduced_simplify _).negate_negate]
  | drop op before after =>
    rw [simplify_compound, simplify_compound, List.map_append, List.map_append, List.map_cons, simplify_blank,
      ← join_filter, ← join_filter op (_ ++ after.map simplify), List.filter_append, List.filter_append]
    rfl
  | empty op => rw [simplify_compound, simplify_blank]; rfl
  | lone op c => rw [simplify_compound]; exact join_singleton
  | splice op before parts after =>
    rw [simplify_compound, simplify_compound, List.map_append, List.map_cons, simplify_compound,
      join_splice op (forall_reduced_map_simplify before) (forall_reduced_map_simplify parts)
        (forall_reduced_map_simplify after), List.map_append, List.map_append]

theorem Step.simplify_eq (h : Step c d) : c.simplify = d.simplify := by
  induction h with
  | rule h => exact h.simplify_eq
  | negation _ ih => rw [simplify_negation, simplify_negation, ih]
  | part op before after _ ih =>
    rw [simplify_compound, simplify_compound, List.map_append, List.map_append, List.map_cons, List.map_cons, ih]

theorem simplify_eq_of_steps (h : ReflTransGen Step c d) : c.simplify = d.simplify := by
  induction h with
  | refl => rfl
  | tail _ h ih => exact ih.trans h.simplify_eq

/-! ### The rules come to an end -/

mutual

/-- The size of a condition, in which a blank condition counts less than any other. -/
def weight : ClosedCondition → Nat
  | .blank => 1
  | .keyword _ => 2
  | .phrase _ => 2
  | .negation c => weight c + 1
  | .compound _ parts => weightAll parts + 2

/-- The size of several conditions. -/
def weightAll : List ClosedCondition → Nat
  | [] => 0
  | c :: cs => weight c + weightAll cs

end

theorem weightAll_append (cs ds : List ClosedCondition) : weightAll (cs ++ ds) = weightAll cs + weightAll ds := by
  induction cs with
  | nil => rw [List.nil_append, weightAll, Nat.zero_add]
  | cons c cs ih => rw [List.cons_append, weightAll, weightAll, ih, Nat.add_assoc]

theorem Rule.weight_lt (h : Rule c d) : weight d < weight c := by
  cases h with
  | splice op before parts after =>
    simp only [weight, weightAll_append, weightAll]
    omega
  | drop op before after =>
    simp only [weight, weightAll_append, weightAll]
    omega
  | _ =>
    simp only [weight, weightAll]
    omega

theorem Step.weight_lt (h : Step c d) : weight d < weight c := by
  induction h with
  | rule h => exact h.weight_lt
  | negation _ ih =>
    simp only [weight]
    omega
  | part op before after _ ih =>
    simp only [weight, weightAll_append, weightAll]
    omega

theorem wellFounded_step : WellFounded fun d c : ClosedCondition => Step c d :=
  Subrelation.wf (fun h => h.weight_lt) (InvImage.wf weight Nat.lt_wfRel.wf)

theorem weight_le_of_steps (h : ReflTransGen Step c d) : weight d ≤ weight c := by
  induction h with
  | refl => exact Nat.le_refl _
  | tail _ h ih => exact Nat.le_trans (Nat.le_of_lt h.weight_lt) ih

/-! ### Where they end -/

theorem reduced_of_normal (c : ClosedCondition) : Normal c → Reduced c := by
  induction c using byParts with
  | blank => exact fun _ => reduced_blank
  | keyword term =>
    intro hnormal
    refine (Canonical.keyword ?_).reduced
    rw [← Bool.not_eq_false]
    exact fun h => hnormal _ (.rule (.keyword h))
  | phrase words =>
    intro hnormal
    refine (Canonical.phrase ?_).reduced
    rw [← Bool.not_eq_false]
    exact fun h => hnormal _ (.rule (.phrase h))
  | negation c ih =>
    intro hnormal
    rcases ih fun d h => hnormal _ (.negation h) with rfl | hc
    · exact absurd (.rule .negationBlank) (hnormal _)
    · refine (Canonical.negation hc ?_).reduced
      cases c with
      | negation c => exact absurd (.rule (.negationTwice c)) (hnormal _)
      | _ => rfl
  | compound op parts ih =>
    intro hnormal
    have hpart : ∀ c ∈ parts, Canonical c ∧ c.isJoined op = false := fun c hc => by
      obtain ⟨before, after, rfl⟩ := List.append_of_mem hc
      refine ⟨?_, ?_⟩
      · rcases ih c hc fun d h => hnormal _ (.part op before after h) with rfl | h
        · exact absurd (.rule (.drop op before after)) (hnormal _)
        · exact h
      · rw [← Bool.not_eq_true]
        intro hop
        cases c with
        | compound op' ds =>
          obtain rfl : op' = op := by simpa [isJoined] using hop
          exact absurd (.rule (.splice op' before ds after)) (hnormal _)
        | _ => cases hop
    rcases parts with _ | ⟨c, _ | ⟨d, cs⟩⟩
    · exact absurd (.rule (.empty op)) (hnormal _)
    · exact absurd (.rule (.lone op c)) (hnormal _)
    · exact (Canonical.compound (by simp) (fun c hc => (hpart c hc).1) fun c hc => (hpart c hc).2).reduced

/-- A condition that the rules end in is the canonical form. -/
theorem eq_simplify_of_normal (h : ReflTransGen Step c d) (hnormal : Normal d) : d = c.simplify := by
  rw [simplify_eq_of_steps h, (reduced_of_normal d hnormal).simplify]

theorem reflTransGen_simplify (c : ClosedCondition) : ReflTransGen Step c c.simplify := by
  induction c using wellFounded_step.induction with
  | _ c ih =>
    by_cases hnormal : Normal c
    · rw [← eq_simplify_of_normal .refl hnormal]
    · obtain ⟨d, hd⟩ := Classical.not_forall_not.mp hnormal
      rw [hd.simplify_eq]
      exact .head hd (ih d hd)

theorem normal_simplify (c : ClosedCondition) : Normal c.simplify := fun d h => by
  have hd : d.simplify = c.simplify := by rw [← h.simplify_eq, (reduced_simplify c).simplify]
  have hle := weight_le_of_steps (reflTransGen_simplify d)
  rw [hd] at hle
  exact absurd h.weight_lt (Nat.not_lt.mpr hle)

/-- One rule leaves the canonical form as it is; the rules cannot be applied for ever; and the conditions that are reached
    when none applies any more are the canonical form and no other. -/
theorem steps_confluent :
    (∀ c d, Step c d → c.simplify = d.simplify) ∧
      WellFounded (fun d c : ClosedCondition => Step c d) ∧
      ∀ c d, ReflTransGen Step c d ∧ Normal d ↔ d = c.simplify := by
  refine ⟨fun c d h => h.simplify_eq, wellFounded_step, fun c d => ⟨fun ⟨h, hnormal⟩ => ?_, ?_⟩⟩
  · exact eq_simplify_of_normal h hnormal
  · rintro rfl
    exact ⟨reflTransGen_simplify c, normal_simplify c⟩

/-- Where rules overlap: the compound in the compound can be spliced, or loses its double negation first. -/
theorem steps_confluent_overlap :
    Step (.compound .and [.keyword ['a'], .compound .and [.negation (.negation (.compound .and []))]])
        (.compound .and [.keyword ['a'], .negation (.negation (.compound .and []))]) ∧
      simplify (.compound .and [.keyword ['a'], .compound .and [.negation (.negation (.compound .and []))]]) =
        simplify (.compound .and [.keyword ['a'], .negation (.negation (.compound .and []))]) ∧
      ReflTransGen Step (.compound .and [.keyword ['a'], .compound .and [.negation (.negation (.compound .and []))]])
        (.keyword ['a']) :=
  have hstep : Step _ _ := .rule (.splice .and [.keyword ['a']] [.negation (.negation (.compound .and []))] [])
  ⟨hstep, steps_confluent.1 _ _ hstep, ((steps_confluent.2.2 _ (.keyword ['a'])).mpr rfl).1⟩

end SearchQuery.Condition
