import SearchQuery.Condition.Simplify

/-! Canonical conditions. A condition that asks for something is canonical when none of its terms and phrases
    is blank, no negation stands on a negation, and every compound has at least two parts, none of them joined
    the same way. What `join` makes of canonical conditions is determined by the parts that they bring
    (`join_eq`), so joining in steps comes to the same as joining at once. -/

namespace SearchQuery.Condition

/-! ### Canonical form -/

/-- The condition is a negation. -/
def isNegation : ClosedCondition → Bool
  | .negation _ => true
  | _ => false

/-- The condition is a compound joined by `op`. -/
def isJoined (op : Connective) : ClosedCondition → Bool
  | .compound op' _ => op' == op
  | _ => false

/-- The condition asks for something and is in canonical form. -/
inductive Canonical : ClosedCondition → Prop where
  | keyword {term : Text} (h : term.notBlank = true) : Canonical (.keyword term)
  | phrase {words : Text} (h : words.notBlank = true) : Canonical (.phrase words)
  | negation {c : ClosedCondition} (h : Canonical c) (hneg : c.isNegation = false) : Canonical (.negation c)
  | compound {op : Connective} {parts : List ClosedCondition} (hlen : 2 ≤ parts.length)
      (h : ∀ c ∈ parts, Canonical c) (hop : ∀ c ∈ parts, c.isJoined op = false) :
      Canonical (.compound op parts)

/-- The condition asks for nothing, or it is in canonical form. -/
def Reduced (c : ClosedCondition) : Prop := c = .blank ∨ Canonical c

theorem Canonical.isBlank {c : ClosedCondition} (h : Canonical c) : c.isBlank = false := by
  cases h <;> rfl

theorem Canonical.reduced {c : ClosedCondition} (h : Canonical c) : Reduced c := Or.inr h

theorem reduced_blank : Reduced .blank := Or.inl rfl

theorem Reduced.canonical {c : ClosedCondition} (h : Reduced c) (hb : c.isBlank = false) : Canonical c := by
  rcases h with rfl | h
  · cases hb
  · exact h

/-! ### The parts that a condition brings -/

/-- The parts that a condition brings to a compound joined by `op`, none if it is blank. -/
def partsOf (op : Connective) (c : ClosedCondition) : List ClosedCondition :=
  if c.isBlank then [] else c.partsUnder op

/-- The compound of the parts, or what stands for it if there are fewer than two. -/
def ofParts (op : Connective) : List ClosedCondition → ClosedCondition
  | [] => .blank
  | [c] => c
  | c :: d :: cs => .compound op (c :: d :: cs)

/-- The condition can stand in a canonical compound joined by `op`. -/
def IsPart (op : Connective) (c : ClosedCondition) : Prop := Canonical c ∧ c.isJoined op = false

theorem ofParts_of_two_le {op : Connective} {ps : List ClosedCondition} (h : 2 ≤ ps.length) :
    ofParts op ps = .compound op ps := by
  match ps, h with
  | _ :: _ :: _, _ => rfl

theorem partsUnder_of_isJoined {op : Connective} {c : ClosedCondition} (h : c.isJoined op = false) :
    c.partsUnder op = [c] := by
  cases c <;> simp_all [partsUnder, isJoined]

theorem partsOf_of_isPart {op : Connective} {c : ClosedCondition} (h : IsPart op c) : partsOf op c = [c] := by
  rw [partsOf, h.1.isBlank, partsUnder_of_isJoined h.2]
  rfl

theorem partsOf_compound (op : Connective) (ps : List ClosedCondition) : partsOf op (.compound op ps) = ps := by
  simp [partsOf, isBlank, partsUnder]

theorem flatMap_partsOf {op : Connective} {ps : List ClosedCondition} (h : ∀ p ∈ ps, IsPart op p) :
    ps.flatMap (partsOf op) = ps := by
  induction ps with
  | nil => rfl
  | cons p ps ih =>
    rw [List.flatMap_cons, partsOf_of_isPart (h p List.mem_cons_self),
      ih fun q hq => h q (List.mem_cons_of_mem p hq)]
    rfl

theorem partsOf_ofParts {op : Connective} {ps : List ClosedCondition} (h : ∀ p ∈ ps, IsPart op p) :
    partsOf op (ofParts op ps) = ps := by
  match ps with
  | [] => rfl
  | [p] => exact partsOf_of_isPart (h p List.mem_cons_self)
  | p :: q :: ps => exact partsOf_compound op _

theorem Reduced.isPart_of_mem {op : Connective} {c p : ClosedCondition} (h : Reduced c) (hp : p ∈ partsOf op c) :
    IsPart op p := by
  rcases h with rfl | h
  · cases hp
  · by_cases hop : c.isJoined op = true
    · cases h with
      | @compound op' ps hlen hps hops =>
        obtain rfl : op' = op := by simpa [isJoined] using hop
        rw [partsOf_compound] at hp
        exact ⟨hps p hp, hops p hp⟩
      | _ => cases hop
    · have hop : c.isJoined op = false := by simpa using hop
      rw [partsOf_of_isPart ⟨h, hop⟩, List.mem_singleton] at hp
      exact hp ▸ ⟨h, hop⟩

theorem isPart_of_mem_flatMap {op : Connective} {cs : List ClosedCondition} (h : ∀ c ∈ cs, Reduced c) :
    ∀ p ∈ cs.flatMap (partsOf op), IsPart op p := by
  intro p hp
  obtain ⟨c, hc, hp⟩ := List.mem_flatMap.mp hp
  exact (h c hc).isPart_of_mem hp

theorem reduced_ofParts {op : Connective} {ps : List ClosedCondition} (h : ∀ p ∈ ps, IsPart op p) :
    Reduced (ofParts op ps) := by
  match ps with
  | [] => exact reduced_blank
  | [p] => exact (h p List.mem_cons_self).1.reduced
  | p :: q :: ps =>
    exact (Canonical.compound (by simp) (fun c hc => (h c hc).1) fun c hc => (h c hc).2).reduced

theorem ofParts_partsOf {op : Connective} {c : ClosedCondition} (h : Reduced c) : ofParts op (partsOf op c) = c := by
  rcases h with rfl | h
  · rfl
  · by_cases hop : c.isJoined op = true
    · cases h with
      | @compound op' ps hlen hps hops =>
        obtain rfl : op' = op := by simpa [isJoined] using hop
        rw [partsOf_compound, ofParts_of_two_le hlen]
      | _ => cases hop
    · rw [partsOf_of_isPart ⟨h, by simpa using hop⟩]
      rfl

/-! ### Joining -/

/-- What is gathered from conditions is gathered from those that are not blank, if a blank one gives nothing. -/
theorem flatMap_filter_isBlank {β : Type} {g : ClosedCondition → List β} (hg : g .blank = [])
    (cs : List ClosedCondition) : (cs.filter fun c => !c.isBlank).flatMap g = cs.flatMap g := by
  induction cs with
  | nil => rfl
  | cons c cs ih =>
    rw [List.filter_cons, List.flatMap_cons, ← ih]
    cases c with
    | blank => rw [hg]; rfl
    | foreign value => exact value.elim
    | _ => rfl

theorem filter_flatMap_partsUnder (op : Connective) (cs : List ClosedCondition) :
    (cs.filter fun c => !c.isBlank).flatMap (partsUnder op) = cs.flatMap (partsOf op) := by
  induction cs with
  | nil => rfl
  | cons c cs ih =>
    rw [List.filter_cons, List.flatMap_cons, ← ih, partsOf]
    cases c.isBlank <;> simp

theorem one_le_length_partsUnder (op : Connective) {c : ClosedCondition} (h : Canonical c) :
    1 ≤ (c.partsUnder op).length := by
  cases h with
  | compound hlen _ _ =>
    simp only [partsUnder]
    split
    · omega
    · exact Nat.le_refl 1
  | _ => exact Nat.le_refl 1

/-- What a join makes of canonical conditions depends only on the parts that they bring. -/
theorem join_eq {op : Connective} {cs : List ClosedCondition} (h : ∀ c ∈ cs, Reduced c) :
    join op cs = ofParts op (cs.flatMap (partsOf op)) := by
  have hcanonical : ∀ c ∈ cs.filter (fun c => !c.isBlank), Canonical c := fun c hc => by
    obtain ⟨hc, hb⟩ := List.mem_filter.mp hc
    exact (h c hc).canonical (by simpa using hb)
  -- Two conditions that are not blank bring two parts, so only a lone one can stand for itself.
  rw [← filter_flatMap_partsUnder, join]
  rcases hcs : cs.filter (fun c => !c.isBlank) with _ | ⟨c, _ | ⟨d, cs'⟩⟩ <;> rw [hcs]
  · rfl
  · have hc := hcanonical c (by simp [hcs])
    have hparts : partsOf op c = c.partsUnder op := by simp [partsOf, hc.isBlank]
    rw [List.flatMap_singleton, ← hparts, ofParts_partsOf hc.reduced]
  · have hc := one_le_length_partsUnder op (hcanonical c (by simp [hcs]))
    have hd := one_le_length_partsUnder op (hcanonical d (by simp [hcs]))
    rw [ofParts_of_two_le]
    simp only [List.flatMap_cons, List.length_append]
    omega

theorem reduced_join {op : Connective} {cs : List ClosedCondition} (h : ∀ c ∈ cs, Reduced c) :
    Reduced (join op cs) := by
  rw [join_eq h]
  exact reduced_ofParts (isPart_of_mem_flatMap h)

theorem partsOf_join {op : Connective} {cs : List ClosedCondition} (h : ∀ c ∈ cs, Reduced c) :
    partsOf op (join op cs) = cs.flatMap (partsOf op) := by
  rw [join_eq h, partsOf_ofParts (isPart_of_mem_flatMap h)]

theorem join_singleton {op : Connective} {c : ClosedCondition} : join op [c] = c := by
  cases c <;> rfl

theorem join_filter (op : Connective) (cs : List ClosedCondition) :
    join op (cs.filter fun c => !c.isBlank) = join op cs := by
  unfold join
  rw [List.filter_filter]
  simp only [Bool.and_self]

/-- Values that give the blank condition can be left out of a join. -/
theorem join_map_filter {α : Type} (op : Connective) {f : α → ClosedCondition} {p : α → Bool} {xs : List α}
    (h : ∀ x ∈ xs, p x = false → f x = .blank) : join op ((xs.filter p).map f) = join op (xs.map f) := by
  rw [← join_filter, ← join_filter op (xs.map f)]
  congr 1
  induction xs with
  | nil => rfl
  | cons x xs ih =>
    have ih := ih fun y hy => h y (List.mem_cons_of_mem x hy)
    rw [List.filter_cons]
    split
    · rw [List.map_cons, List.map_cons, List.filter_cons, List.filter_cons, ih]
    · next hx =>
      rw [ih, List.map_cons, h x List.mem_cons_self (by simpa using hx)]
      rfl

/-! ### Negation -/

theorem Reduced.negate {c : ClosedCondition} (h : Reduced c) : Reduced c.negate := by
  rcases h with rfl | h
  · exact reduced_blank
  · cases h with
    | negation h _ => exact h.reduced
    | _ => exact (Canonical.negation (by constructor <;> assumption) rfl).reduced

theorem Reduced.negate_negate {c : ClosedCondition} (h : Reduced c) : c.negate.negate = c := by
  rcases h with rfl | h
  · rfl
  · cases h with
    | @negation d h hneg => cases h <;> first | rfl | cases hneg
    | _ => rfl

/-! ### Simplifying -/

theorem ok_certain {β : Type} (x : Except Empty β) : x = .ok (certain x) := by
  cases x with
  | error e => exact e.elim
  | ok b => rfl

theorem simplifyAll?_eq (cs : List ClosedCondition) : simplifyAll? cs = .ok (cs.map simplify) := by
  induction cs with
  | nil => rw [simplifyAll?]; rfl
  | cons c cs ih =>
    rw [simplifyAll?, ok_certain (simplify? c), ih]
    rfl

@[simp] theorem simplify_blank : simplify .blank = .blank := by
  rw [simplify, simplify?]
  rfl

@[simp] theorem simplify_keyword (term : Text) : simplify (.keyword term) = ofTerm term := by
  rw [simplify, simplify?]
  rfl

@[simp] theorem simplify_phrase (words : Text) : simplify (.phrase words) = ofPhrase words := by
  rw [simplify, simplify?]
  rfl

@[simp] theorem simplify_negation (c : ClosedCondition) : simplify (.negation c) = (simplify c).negate := by
  rw [simplify, simplify?, ok_certain (simplify? c)]
  rfl

@[simp] theorem simplify_compound (op : Connective) (cs : List ClosedCondition) :
    simplify (.compound op cs) = join op (cs.map simplify) := by
  rw [simplify, simplify?, simplifyAll?_eq]
  rfl

/-- What holds of a compound if it holds of its parts, and so on down to the leaves, holds of every condition. -/
theorem byNodes {α : Type} {motive : Condition α → Prop} (blank : motive .blank) (keyword : ∀ term, motive (.keyword term))
    (phrase : ∀ words, motive (.phrase words)) (negation : ∀ c, motive c → motive (.negation c))
    (compound : ∀ op parts, (∀ c ∈ parts, motive c) → motive (.compound op parts))
    (foreign : ∀ value, motive (.foreign value)) : ∀ c, motive c
  | .blank => blank
  | .keyword term => keyword term
  | .phrase words => phrase words
  | .negation c => negation c (byNodes blank keyword phrase negation compound foreign c)
  | .compound op parts => compound op parts fun c _ => byNodes blank keyword phrase negation compound foreign c
  | .foreign value => foreign value

theorem byParts {motive : ClosedCondition → Prop} (blank : motive .blank) (keyword : ∀ term, motive (.keyword term))
    (phrase : ∀ words, motive (.phrase words)) (negation : ∀ c, motive c → motive (.negation c))
    (compound : ∀ op parts, (∀ c ∈ parts, motive c) → motive (.compound op parts)) : ∀ c, motive c :=
  byNodes blank keyword phrase negation compound fun value => value.elim

theorem reduced_simplify (c : ClosedCondition) : Reduced c.simplify := by
  induction c using byParts with
  | blank =>
    rw [simplify_blank]
    exact reduced_blank
  | keyword term =>
    rw [simplify_keyword, ofTerm]
    split
    · next h => exact (Canonical.keyword h).reduced
    · exact reduced_blank
  | phrase words =>
    rw [simplify_phrase, ofPhrase]
    split
    · next h => exact (Canonical.phrase h).reduced
    · exact reduced_blank
  | negation c ih =>
    rw [simplify_negation]
    exact ih.negate
  | compound op parts ih =>
    rw [simplify_compound]
    refine reduced_join fun c hc => ?_
    obtain ⟨d, hd, rfl⟩ := List.mem_map.mp hc
    exact ih d hd

theorem Canonical.simplify {c : ClosedCondition} (h : Canonical c) : c.simplify = c := by
  induction h with
  | keyword h => rw [simplify_keyword, ofTerm, if_pos h]
  | phrase h => rw [simplify_phrase, ofPhrase, if_pos h]
  | @negation c h hneg ih =>
    rw [simplify_negation, ih]
    cases h <;> first | rfl | cases hneg
  | @compound op parts hlen h hop ih =>
    have hmap : parts.map Condition.simplify = parts := (List.map_congr_left ih).trans (List.map_id parts)
    have hparts : ∀ p ∈ parts, IsPart op p := fun p hp => ⟨h p hp, hop p hp⟩
    rw [simplify_compound, hmap, join_eq fun p hp => (h p hp).reduced, flatMap_partsOf hparts,
      ofParts_of_two_le hlen]

/-- Simplifying leaves a reduced condition as it is. -/
theorem Reduced.simplify {c : ClosedCondition} (h : Reduced c) : c.simplify = c := by
  rcases h with rfl | h
  · exact simplify_blank
  · exact h.simplify

theorem map_simplify {cs : List ClosedCondition} (h : ∀ c ∈ cs, Reduced c) : cs.map simplify = cs :=
  (List.map_congr_left fun c hc => (h c hc).simplify).trans (List.map_id cs)

end SearchQuery.Condition
