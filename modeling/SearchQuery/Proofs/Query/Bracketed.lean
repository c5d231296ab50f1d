import SearchQuery.Proofs.Bracket.Matched
import SearchQuery.Proofs.Query.Operands
import SearchQuery.Proofs.Query.Total

/-! Queries in brackets. A query without quotes whose brackets match is read as one nest, and in brackets it is a
    group with that nest inside, or nothing if nothing but blanks is left of it. So joining queries in brackets
    joins their conditions, negating one negates its condition, and more brackets change nothing. -/

namespace SearchQuery.Query

open SearchQuery.Bracket (Matched nestOf atomsOf)
open Condition (Reduced)
open Skeleton (direct)

/-! ### Queries without quotes -/

/-- The query has no quotes and no marks of placeholders. -/
def Unquoted (query : Text) : Prop := ∀ c ∈ query, c ≠ '"' ∧ c ≠ '”' ∧ Phrase.isMark c = false

instance : DecidablePred Unquoted := fun query => List.decidableBAll _ query

theorem Unquoted.append {p q : Text} (hp : Unquoted p) (hq : Unquoted q) : Unquoted (p ++ q) := by
  intro c hc
  rcases List.mem_append.mp hc with hc | hc
  · exact hp c hc
  · exact hq c hc

theorem atoms_of_unquoted {query : Text} (h : Unquoted query) : Layer.atoms query = atomsOf query := by
  have hfilter : (query.filter fun c => !Phrase.isMark c) = query :=
    List.filter_eq_self.mpr fun c hc => by rw [(h c hc).2.2]; rfl
  rw [Layer.atoms_of_no_quote fun c hc => ⟨(h c hc).1, (h c hc).2.1⟩, hfilter, Text.normalizeSymbols, List.map_map]
  rfl

/-- Atoms whose brackets match are read as their nest, whatever the settings. -/
theorem parse_of_closes (settings : Settings) {query : Text} {as : List Atom} {ns : Nest}
    (hatoms : Layer.atoms query = as) (hcloses : Nest.Closes as ns) (heach : ns.Each Bracket.Unbracketed) :
    parse settings query = .ok (direct ns.nodes) := by
  have hnest : Layer.nest settings as = ns := by
    rw [Layer.nest, hcloses.resume_eq]
    show (if settings.dropUnmatchedBrackets then ns.dropBrackets else ns) = ns
    rw [Bracket.dropBrackets_eq_self heach, ite_self]
  rw [parse_eq, hatoms, hnest]

/-- A query without quotes whose brackets match is read as its nest, whatever the settings. -/
theorem parse_of_matched (settings : Settings) {query : Text} (hquery : Unquoted query) (hmatched : Matched query) :
    parse settings query = .ok (direct (nestOf query).nodes) :=
  parse_of_closes settings (atoms_of_unquoted hquery) hmatched.closes hmatched.each_nestOf

/-! ### Brackets around a query -/

/-- The query in brackets. -/
def bracketed (query : Text) : Text := '(' :: query ++ [')']

/-- The query in brackets, with a dash before them. -/
def negated (query : Text) : Text := '-' :: bracketed query

variable {query : Text}

theorem Unquoted.bracketed (h : Unquoted query) : Unquoted (bracketed query) :=
  Unquoted.append (p := '(' :: query) (Unquoted.append (p := ['(']) (by decide) h) (by decide)

theorem Unquoted.negated (h : Unquoted query) : Unquoted (negated query) :=
  Unquoted.append (p := ['-']) (by decide) h.bracketed

theorem matched_bracketed (h : Matched query) : Matched (bracketed query) :=
  .pair (Or.inl rfl) (Or.inl rfl) h .nil

theorem matched_negated (h : Matched query) : Matched (negated query) :=
  .char (by decide) (by decide) (matched_bracketed h)

theorem nestOf_bracketed (h : Matched query) : nestOf (bracketed query) = Nest.closed (nestOf query) :=
  Bracket.nestOf_bracketed (Or.inl rfl) (Or.inl rfl) h

theorem nestOf_negated (h : Matched query) (hblank : (nestOf query).isBlank = false) :
    nestOf (negated query) = (Operand.group true (nestOf query)).nest := by
  have hdash : Matched ['-'] := .char (by decide) (by decide) .nil
  rw [negated, ← List.singleton_append, Bracket.nestOf_append hdash (matched_bracketed h), nestOf_bracketed h,
    Nest.closed_of_not_isBlank hblank]
  rfl

/-! ### Queries that come to nothing -/

theorem notBlank_text_of_isBlank {run : List Atom} (h : (Nest.ofAtoms run).isBlank = true) :
    (Atom.text (Atom.pad run)).notBlank = false := by
  induction run with
  | nil => rfl
  | cons a run ih =>
    cases a with
    | phrase => cases h
    | char c =>
      rw [Nest.ofAtoms_cons, Nest.isBlank, Bool.and_eq_true] at h
      rw [Atom.pad_cons, Atom.spaced, Atom.text_append, Text.notBlank_append, ih h.2, Bool.or_false]
      simp [Atom.typed, Text.notBlank, h.1]

theorem nodesFrom_of_isBlank {ns : Nest} (h : ns.isBlank = true) {run : List Atom}
    (hrun : (Nest.ofAtoms run).isBlank = true) : ns.nodesFrom run = [] := by
  induction ns generalizing run with
  | nil => exact if_neg (by simp [notBlank_text_of_isBlank hrun])
  | pair inside later _ _ => cases h
  | atom a later ih =>
    cases a with
    | phrase => cases h
    | char c =>
      rw [Nest.isBlank, Bool.and_eq_true] at h
      refine ih h.2 ?_
      rw [Nest.ofAtoms_append, Nest.isBlank_append, hrun, Bool.true_and]
      simp [Nest.isBlank, h.1]

theorem direct_of_isBlank {ns : Nest} (h : ns.isBlank = true) : direct ns.nodes = .blank := by
  rw [Nest.nodes, nodesFrom_of_isBlank h rfl]
  exact Operand.direct_nest .nothing

/-! ### Brackets as operands -/

/-- The operand that a query in brackets is. -/
def operandOf (query : Text) : Operand :=
  if (nestOf query).isBlank then .nothing else .group false (nestOf query)

theorem nest_operandOf (query : Text) : (operandOf query).nest = Nest.closed (nestOf query) := by
  rw [operandOf, Nest.closed]
  split <;> rfl

theorem means_operandOf (query : Text) : (operandOf query).Means (direct (nestOf query).nodes) := by
  rw [operandOf]
  split
  · next h =>
    rw [direct_of_isBlank h]
    exact .nothing
  · exact .group (nestOf query)

/-- Queries in brackets, joined by a connective in words. -/
def joinedText (op : Connective) (queries : List Text) : Text :=
  Text.joinWith (separator op) (queries.map bracketed)

theorem joinedText_cons_cons (op : Connective) (p q : Text) (qs : List Text) :
    joinedText op (p :: q :: qs) = bracketed p ++ (separator op ++ joinedText op (q :: qs)) :=
  Text.joinWith_cons (List.cons_ne_nil _ _)

theorem unquoted_separator (op : Connective) : Unquoted (separator op) := by
  cases op <;> decide

theorem matched_separator (op : Connective) : Matched (separator op) :=
  .of_plain (List.all_iff_forall_prop.mp (by cases op <;> decide))

theorem nestOf_separator (op : Connective) : nestOf (separator op) = .ofAtoms ((separator op).map .char) := by
  cases op <;> decide

theorem joinedText_spec (op : Connective) {queries : List Text} (h : ∀ q ∈ queries, Unquoted q ∧ Matched q) :
    Unquoted (joinedText op queries) ∧ Matched (joinedText op queries) ∧
      nestOf (joinedText op queries) = Operand.joined op (queries.map operandOf) := by
  induction queries with
  | nil => exact ⟨show Unquoted [] by decide, .nil, rfl⟩
  | cons p queries ih =>
    obtain ⟨hquoted, hmatched⟩ := h p List.mem_cons_self
    have hclosed := nestOf_bracketed hmatched
    rw [← nest_operandOf] at hclosed
    cases queries with
    | nil =>
      have hsingle : joinedText op [p] = bracketed p := by simp [joinedText, Text.joinWith]
      rw [hsingle]
      refine ⟨hquoted.bracketed, matched_bracketed hmatched, ?_⟩
      rw [hclosed, List.map_singleton, Operand.joined, Operand.trail, Nest.append_nil]
    | cons q qs =>
      obtain ⟨ihquoted, ihmatched, ihnest⟩ := ih fun r hr => h r (List.mem_cons_of_mem p hr)
      rw [joinedText_cons_cons]
      have hlater := (matched_separator op).append ihmatched
      refine ⟨hquoted.bracketed.append ((unquoted_separator op).append ihquoted),
        (matched_bracketed hmatched).append hlater, ?_⟩
      rw [Bracket.nestOf_append (matched_bracketed hmatched) hlater,
        Bracket.nestOf_append (matched_separator op) ihmatched, hclosed, ihnest, nestOf_separator]
      rfl

/-! ### What queries in brackets ask for -/

theorem parse_bracketed (settings : Settings) (hquoted : Unquoted query) (hmatched : Matched query) :
    parse settings (bracketed query) = parse settings query := by
  rw [parse_of_matched settings hquoted.bracketed (matched_bracketed hmatched), nestOf_bracketed hmatched,
    ← nest_operandOf, Operand.direct_nest (means_operandOf query), parse_of_matched settings hquoted hmatched]

theorem parse_negated (settings : Settings) (hquoted : Unquoted query) (hmatched : Matched query)
    (hblank : (nestOf query).isBlank = false) :
    parse settings (negated query) = .ok (Condition.simplify (.negation (direct (nestOf query).nodes))) := by
  rw [parse_of_matched settings hquoted.negated (matched_negated hmatched), nestOf_negated hmatched hblank,
    Operand.direct_nest (.negated (nestOf query))]

theorem parse_joinedText (settings : Settings) (op : Connective) {queries : List Text}
    (h : ∀ q ∈ queries, Unquoted q ∧ Matched q) :
    ∃ cs, List.Forall₂ (fun q c => parse settings q = .ok c) queries cs ∧
      parse settings (joinedText op queries) = .ok (Condition.simplify (.compound op cs)) := by
  obtain ⟨hquoted, hmatched, hnest⟩ := joinedText_spec op h
  refine ⟨queries.map fun q => direct (nestOf q).nodes, ?_, ?_⟩
  · rw [List.forall₂_map_right_iff, List.forall₂_same]
    exact fun q hq => parse_of_matched settings (h q hq).1 (h q hq).2
  · have hmeans : List.Forall₂ Operand.Means (queries.map operandOf)
        (queries.map fun q => direct (nestOf q).nodes) := by
      rw [List.forall₂_map_right_iff, List.forall₂_map_left_iff, List.forall₂_same]
      exact fun q _ => means_operandOf q
    rw [parse_of_matched settings hquoted hmatched, hnest, Operand.direct_joined hmeans]

theorem negated_iterate (hquoted : Unquoted query) (hmatched : Matched query) (hblank : (nestOf query).isBlank = false)
    (n : Nat) : Unquoted (negated^[n] query) ∧ Matched (negated^[n] query) ∧
      (nestOf (negated^[n] query)).isBlank = false := by
  induction n with
  | zero => exact ⟨hquoted, hmatched, hblank⟩
  | succ n ih =>
    obtain ⟨ihquoted, ihmatched, ihblank⟩ := ih
    rw [Function.iterate_succ_apply']
    refine ⟨ihquoted.negated, matched_negated ihmatched, ?_⟩
    rw [nestOf_negated ihmatched ihblank]
    rfl

theorem parse_negated_negated (settings : Settings) (hquoted : Unquoted query) (hmatched : Matched query)
    (hblank : (nestOf query).isBlank = false) : parse settings (negated (negated query)) = parse settings query := by
  have hreduced := Skeleton.reduced_direct (nestOf query).nodes
  have hagain : (nestOf (negated query)).isBlank = false := by
    rw [nestOf_negated hmatched hblank]
    rfl
  rw [parse_negated settings hquoted.negated (matched_negated hmatched) hagain, nestOf_negated hmatched hblank,
    Operand.direct_nest (.negated (nestOf query)), Condition.simplify_negation, Condition.simplify_negation,
    hreduced.simplify, hreduced.negate.simplify, hreduced.negate_negate, parse_of_matched settings hquoted hmatched]

theorem parse_bracketed_iterate (settings : Settings) (hquoted : Unquoted query) (hmatched : Matched query) (n : Nat) :
    parse settings (bracketed^[n] query) = parse settings query ∧ Unquoted (bracketed^[n] query) ∧
      Matched (bracketed^[n] query) := by
  induction n with
  | zero => exact ⟨rfl, hquoted, hmatched⟩
  | succ n ih =>
    obtain ⟨ihparse, ihquoted, ihmatched⟩ := ih
    rw [Function.iterate_succ_apply', parse_bracketed settings ihquoted ihmatched]
    exact ⟨ihparse, ihquoted.bracketed, matched_bracketed ihmatched⟩

/-- Reading carries queries in brackets to conditions: queries joined by a connective ask for what they ask for,
    joined by it; a query of which something is left when its pairs around blanks have been deleted asks, negated,
    for the opposite; more brackets change nothing, and negations cancel in pairs, however many there are. -/
theorem parse_homomorphism (settings : Settings) :
    (∀ (op : Connective) (queries : List Text), (∀ q ∈ queries, Unquoted q ∧ Matched q) →
      ∃ cs, List.Forall₂ (fun q c => parse settings q = .ok c) queries cs ∧
        parse settings (Text.joinWith (' ' :: op.word ++ [' ']) (queries.map fun q => '(' :: q ++ [')'])) =
          .ok (Condition.simplify (.compound op cs))) ∧
    (∀ query : Text, Unquoted query → Matched query → Bracket.LeavesSomething query →
      ∃ c, parse settings query = .ok c ∧
        parse settings ('-' :: '(' :: query ++ [')']) = .ok (Condition.simplify (.negation c))) ∧
    (∀ (n : Nat) (query : Text), Unquoted query → Matched query →
      parse settings (bracketed^[n] query) = parse settings query) ∧
    (∀ (n : Nat) (query : Text), Unquoted query → Matched query → Bracket.LeavesSomething query →
      parse settings (negated^[n + 2] query) = parse settings (negated^[n] query)) := by
  refine ⟨fun op queries h => parse_joinedText settings op h, fun query hquoted hmatched hleaves => ?_,
    fun n query hquoted hmatched => (parse_bracketed_iterate settings hquoted hmatched n).1,
    fun n query hquoted hmatched hleaves => ?_⟩
  · exact ⟨_, parse_of_matched settings hquoted hmatched,
      parse_negated settings hquoted hmatched (Bracket.isBlank_nestOf hmatched hleaves)⟩
  · obtain ⟨hquoted, hmatched, hblank⟩ :=
      negated_iterate hquoted hmatched (Bracket.isBlank_nestOf hmatched hleaves) n
    rw [Function.iterate_succ_apply', Function.iterate_succ_apply',
      parse_negated_negated settings hquoted hmatched hblank]

/-- Two terms in brackets, and one of them negated. -/
theorem parse_homomorphism_terms :
    (∃ cs, List.Forall₂ (fun q c => parse {} q = .ok c) [['a'], ['b']] cs ∧
      parse {} "(a) OR (b)".toList = .ok (Condition.simplify (.compound .or cs))) ∧
    (∃ c, parse {} ['a'] = .ok c ∧ parse {} "-(a)".toList = .ok (Condition.simplify (.negation c))) ∧
    parse {} "(((a)))".toList = parse {} ['a'] ∧ parse {} "-(-(-(a)))".toList = parse {} "-(a)".toList := by
  obtain ⟨hjoined, hnegated, hbracketed, hcancel⟩ := parse_homomorphism {}
  have ha : Unquoted ['a'] ∧ Matched ['a'] := ⟨by decide, .char (by decide) (by decide) .nil⟩
  have hb : Unquoted ['b'] ∧ Matched ['b'] := ⟨by decide, .char (by decide) (by decide) .nil⟩
  have hleaves : Bracket.LeavesSomething ['a'] := by
    refine ⟨['a'], .refl, fun u ⟨x, o, blanks, c, y, _, _, _, hdeletes, _⟩ => ?_, by decide⟩
    have hlength := congrArg List.length hdeletes
    simp only [List.length_append, List.length_cons, List.length_nil] at hlength
    omega
  exact ⟨hjoined .or [['a'], ['b']] (by simpa using ⟨ha, hb⟩), hnegated ['a'] ha.1 ha.2 hleaves,
    hbracketed 3 ['a'] ha.1 ha.2, hcancel 1 ['a'] ha.1 ha.2 hleaves⟩

end SearchQuery.Query
