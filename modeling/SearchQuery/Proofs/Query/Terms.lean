import SearchQuery.Proofs.Condition.Signs
import SearchQuery.Proofs.Layer.Pairing
import SearchQuery.Proofs.Query.Operands
import SearchQuery.Proofs.Query.Total

/-! The terms of a query without quotes, read off its text. With its brackets turned into spaces the text falls into
    words, and every word that is no connective is a leaf of the condition, in the same order. A dash at the start
    of a word negates it, and so does every dash before a bracket around it (`signedLeaves_parse`). -/

namespace SearchQuery

open Condition (signedLeaves)
open Skeleton (items item direct)

/-! ### Words with signs -/

/-- The text of a level that stands after the text of a run, with a space for every bracket of a pair and without
    the dashes that negate pairs. Every character has the parity of the negated pairs around it. -/
def Nest.spread (negated : Bool) (run : Text) : Nest → List (Char × Bool)
  | nil => run.map (·, negated)
  | atom a later => spread negated (run ++ a.typed) later
  | pair inside later =>
    (Layer.splitDash run).1.map (·, negated) ++ (' ', negated) ::
      (spread (negated ^^ (Layer.splitDash run).2) [] inside ++ (' ', negated) :: spread negated [] later)

/-- The longest runs of characters that are not blank, each with the sign of its first character. -/
def signedWords (s : List (Char × Bool)) : List (Text × Bool) :=
  (s.splitOnP fun x => isBlank x.1).filterMap fun w => w.head?.map fun x => (w.map Prod.fst, x.2)

/-- A dash at the start of a term turns its sign if anything follows it. -/
def signedTerm (negated : Bool) : Text → ClosedCondition × Bool
  | '-' :: c :: t => (.keyword (c :: t), !negated)
  | t => (.keyword t, negated)

/-- The terms that words ask for: a word that is spelled like a connective asks for nothing. -/
def signedTerms (ws : List (Text × Bool)) : List (ClosedCondition × Bool) :=
  (ws.filter fun w => !(Connective.and.spells w.1 || Connective.or.spells w.1)).map fun w => signedTerm w.2 w.1

theorem signedWords_append {x : Char × Bool} (hx : isBlank x.1 = true) (s t : List (Char × Bool)) :
    signedWords (s ++ x :: t) = signedWords s ++ signedWords t := by
  rw [signedWords, List.splitOnP_append_cons (p := fun x : Char × Bool => isBlank x.1) s t hx, List.filterMap_append]
  rfl

theorem signedWords_cons {x : Char × Bool} (hx : isBlank x.1 = true) (s : List (Char × Bool)) :
    signedWords (x :: s) = signedWords s := signedWords_append hx [] s

/-- A text whose characters have one sign falls into its words, with that sign. -/
theorem signedWords_map (negated : Bool) (s : Text) :
    signedWords (s.map (·, negated)) = (Text.words s).map (·, negated) := by
  induction s using Text.byWords with
  | nil => rfl
  | blank c s hc ih => rw [Text.words_cons_blank hc, ← ih, List.map_cons, signedWords_cons hc]
  | word w s hne hw hs ih =>
    have hplain : ∀ x ∈ w.map (·, negated), isBlank x.1 = false := fun x hx => by
      obtain ⟨c, hc, rfl⟩ := List.mem_map.mp hx
      exact hw c hc
    have hword : signedWords (w.map (·, negated)) = [(w, negated)] := by
      obtain ⟨c, t, rfl⟩ := List.exists_cons_of_ne_nil hne
      rw [signedWords, List.splitOnP_eq_singleton hplain]
      simp [Function.comp_def]
    rw [Text.words_word_append hne hw hs, List.map_cons, ← ih, List.map_append]
    cases s with
    | nil => rw [List.map_nil, List.append_nil, hword]; rfl
    | cons c s =>
      have hc : isBlank c = true := hs c rfl
      rw [List.map_cons, signedWords_append hc, signedWords_cons hc, hword]
      rfl

/-! ### The leaves of a level -/

theorem signedLeaves_ofTerm {t : Text} (hne : t ≠ []) (ht : ∀ c ∈ t, isBlank c = false) (negated : Bool) :
    signedLeaves negated (Condition.ofTerm t) = [(.keyword t, negated)] := by
  obtain ⟨c, hc⟩ := List.exists_mem_of_ne_nil t hne
  rw [Condition.ofTerm, if_pos (Text.notBlank_of_mem hc (ht c hc))]
  rfl

theorem Word.condition?_of_dash {c : Char} {t : Text}
    (h : (Connective.and.spells ('-' :: c :: t) || Connective.or.spells ('-' :: c :: t)) = false) :
    (Word.term ('-' :: c :: t)).condition? = some (.negation (.keyword (c :: t))) := by
  simp only [condition?, h, Bool.false_eq_true, ite_false]

theorem Word.condition?_of_not_dash {t : Text} (h : (Connective.and.spells t || Connective.or.spells t) = false)
    (hdash : ∀ c u, t ≠ '-' :: c :: u) : (Word.term t).condition? = some (.keyword t) := by
  rw [Bool.or_eq_false_iff] at h
  match t with
  | [] => rfl
  | [c] => rfl
  | c :: d :: u =>
    refine condition?_of_plain (fun op => ?_) fun hc => ?_
    · cases op
      · exact h.1
      · exact h.2
    · cases hc
      exact hdash d u rfl

theorem signedTerm_of_not_dash {t : Text} (hdash : ∀ c u, t ≠ '-' :: c :: u) (negated : Bool) :
    signedTerm negated t = (.keyword t, negated) := by
  rw [signedTerm]
  exact hdash

/-- A word without blanks asks for its term, with the sign that it has, or for nothing. -/
theorem Word.flatMap_condition? {t : Text} (hne : t ≠ []) (ht : ∀ c ∈ t, isBlank c = false) (negated : Bool) :
    (Word.term t).condition?.toList.flatMap (fun c => signedLeaves negated c.simplify) =
      signedTerms [(t, negated)] := by
  cases hspells : Connective.and.spells t || Connective.or.spells t with
  | true =>
    have hnone : (Word.term t).condition? = none := by
      rcases Bool.or_eq_true_iff.mp hspells with h | h
      · exact Word.condition?_of_spells h
      · exact Word.condition?_of_spells h
    rw [hnone, signedTerms, List.filter_cons_of_neg (by rw [hspells]; decide)]
    rfl
  | false =>
    have hterms : signedTerms [(t, negated)] = [signedTerm negated t] := by
      rw [signedTerms, List.filter_cons_of_pos (by rw [hspells]; rfl)]
      rfl
    rw [hterms]
    by_cases hdash : ∃ c u, t = '-' :: c :: u
    · obtain ⟨c, u, rfl⟩ := hdash
      rw [Word.condition?_of_dash hspells, Option.toList_some, List.flatMap_singleton, Condition.simplify_negation,
        Condition.signedLeaves_negate, Condition.simplify_keyword, signedLeaves_ofTerm (List.cons_ne_nil c u)]
      · rfl
      · exact fun d hd => ht d (List.mem_cons_of_mem _ hd)
    · have hdash : ∀ c u, t ≠ '-' :: c :: u := fun c u h => hdash ⟨c, u, h⟩
      rw [Word.condition?_of_not_dash hspells hdash, Option.toList_some, List.flatMap_singleton,
        Condition.simplify_keyword, signedLeaves_ofTerm hne ht, signedTerm_of_not_dash hdash]

theorem Segment.signedLeaves_ofAtoms (negated : Bool) (as : List Atom) :
    signedLeaves negated (ofAtoms as).condition =
      ((Atom.words as).filterMap Word.condition?).flatMap fun c => signedLeaves negated c.simplify := by
  have hruns := Condition.signedLeaves_join_runs negated .or .and ((Word.runs (Atom.words as)).map (List.map .simplify))
  rw [List.map_map, ← List.map_flatten, Word.flatten_runs, List.flatMap_map] at hruns
  rw [ofAtoms, alternate_eq]
  exact hruns

theorem Skeleton.signedLeaves_level (negated : Bool) {xs : List Segment} (h : ∀ x ∈ xs, x.condition.Reduced) :
    signedLeaves negated (level xs) = xs.flatMap fun x => signedLeaves negated x.condition := by
  have hruns := Condition.signedLeaves_join_runs negated .or .and
    ((xs.splitBy adjoins).map (List.map Segment.condition))
  rw [List.map_map, ← List.map_flatten, List.flatten_splitBy, List.flatMap_map] at hruns
  rw [level_eq_join_runs h]
  exact hruns

/-! ### The words of a query -/

theorem signedTerms_append (vs ws : List (Text × Bool)) : signedTerms (vs ++ ws) = signedTerms vs ++ signedTerms ws := by
  rw [signedTerms, List.filter_append, List.map_append]
  rfl

theorem flatMap_condition?_words (negated : Bool) {ws : List Text}
    (h : ∀ w ∈ ws, w ≠ [] ∧ ∀ c ∈ w, isBlank c = false) :
    ((ws.map Word.term).filterMap Word.condition?).flatMap (fun c => signedLeaves negated c.simplify) =
      signedTerms (ws.map (·, negated)) := by
  induction ws with
  | nil => rfl
  | cons w ws ih =>
    obtain ⟨hne, hw⟩ := h w List.mem_cons_self
    have hterm := Word.flatMap_condition? hne hw negated
    have hlater := ih fun v hv => h v (List.mem_cons_of_mem w hv)
    have hsplit : signedTerms ((w, negated) :: ws.map (·, negated)) =
        signedTerms [(w, negated)] ++ signedTerms (ws.map (·, negated)) := signedTerms_append [(w, negated)] _
    rw [List.map_cons, List.map_cons, hsplit, ← hterm, ← hlater, List.filterMap_eq_flatMap_toList,
      List.filterMap_eq_flatMap_toList, List.flatMap_cons, List.flatMap_append]

open Skeleton (Plain)

theorem flatMap_items_textNode (negated : Bool) {run : Text} (h : ∀ c ∈ run, Plain c) :
    (items (Nest.textNode run)).flatMap (fun x => signedLeaves negated x.condition) =
      signedTerms ((Text.words run).map (·, negated)) := by
  have htypable : ∀ a ∈ run.map Atom.char, Phrase.Typable a := fun a ha => by
    obtain ⟨c, hc, rfl⟩ := List.mem_map.mp ha
    exact h c hc
  rw [← Nest.segment_map_char, Operand.items_segment htypable, Atom.words_map_char,
    ← flatMap_condition?_words negated Text.ne_nil_of_mem_words]
  split
  · next hwords =>
    rw [List.isEmpty_iff] at hwords
    rw [hwords]
    rfl
  · rw [List.flatMap_singleton, Segment.signedLeaves_ofAtoms, Atom.words_pad, Atom.words_map_char]

theorem signedLeaves_item_group (negated dash : Bool) (nodes : List ClosedNode) :
    signedLeaves negated (item (.group dash nodes)).condition =
      (items nodes).flatMap fun x => signedLeaves (negated ^^ dash) x.condition := by
  rw [← Skeleton.signedLeaves_level _ Skeleton.reduced_of_mem_items, Skeleton.item_group]
  cases dash with
  | false => rw [Bool.xor_false]; rfl
  | true =>
    rw [Bool.xor_true, ← Condition.signedLeaves_negate]
    show signedLeaves negated (Condition.simplify (.negation (direct nodes))) = _
    rw [Condition.simplify_negation, (Skeleton.reduced_direct nodes).simplify]
    rfl

/-- The leaves of a level are the words of its text. -/
theorem Nest.flatMap_items_tree (negated : Bool) {ns : Nest} (h : ns.Each (IsChar Plain)) {run : Text}
    (hrun : ∀ c ∈ run, Plain c) :
    (items (ns.tree run)).flatMap (fun x => signedLeaves negated x.condition) =
      signedTerms (signedWords (ns.spread negated run)) := by
  -- The spaces for the brackets keep words of different levels apart; a negated pair turns the sign for its inside.
  induction ns generalizing run negated with
  | nil => rw [tree, spread, signedWords_map, flatMap_items_textNode negated hrun]
  | atom a later ih =>
    obtain ⟨⟨c, rfl, hc⟩, hlater⟩ := h
    refine ih negated hlater fun d hd => ?_
    rcases List.mem_append.mp hd with hd | hd
    · exact hrun d hd
    · exact List.mem_singleton.mp hd ▸ hc
  | pair inside later ihinside ih =>
    have hbefore : ∀ c ∈ (Layer.splitDash run).1, Plain c := fun c hc => by
      rw [Layer.splitDash] at hc
      split at hc
      · exact hrun c (List.dropLast_subset run hc)
      · exact hrun c hc
    rw [tree, spread, Operand.items_append, Operand.items_cons, List.flatMap_append, List.flatMap_cons,
      flatMap_items_textNode negated hbefore, signedLeaves_item_group, ihinside _ h.1 (by simp), ih negated h.2 (by simp),
      signedWords_append Text.isBlank_space, signedWords_append Text.isBlank_space, signedTerms_append,
      signedTerms_append, signedWords_map]

/-- No term is lost or moved, none is brought, and each has the sign of the dashes before it and around it. -/
theorem Query.signedLeaves_parse (settings : Settings) {query : Text} (h : ∀ c ∈ query, c ≠ '"' ∧ c ≠ '”') :
    ∃ c, parse settings query = .ok c ∧ c.signedLeaves false = signedTerms (signedWords
      ((Layer.pairing settings (Text.normalizeSymbols (query.filter fun d => !Phrase.isMark d))).spread false [])) := by
  refine ⟨_, parse_eq settings query, ?_⟩
  rw [Layer.atoms_of_no_quote h, Layer.nodes_nest_map_char, direct,
    Skeleton.signedLeaves_level _ Skeleton.reduced_of_mem_items]
  refine Nest.flatMap_items_tree false (Layer.each_pairing (by decide) settings fun c hc => ?_) (by simp)
  obtain ⟨d, hd, rfl⟩ := List.mem_map.mp hc
  obtain ⟨hd, hmark⟩ := List.mem_filter.mp hd
  exact Text.normalizeSymbol_induction (by decide) (by decide) (by decide) ⟨(h d hd).1, by simpa using hmark⟩

/-- Negations inside one another, a pair around a blank, a connective and a bracket without a partner. -/
theorem Query.signedLeaves_parse_nested :
    (∀ c ∈ "-(a (-b（ ）) or -(c AND -d)) -e (".toList, c ≠ '"' ∧ c ≠ '”') ∧
      ∃ c, parse {} "-(a (-b（ ）) or -(c AND -d)) -e (".toList = .ok c ∧ c.signedLeaves false =
        [(.keyword ['a'], true), (.keyword ['b'], false), (.keyword ['c'], false), (.keyword ['d'], true),
          (.keyword ['e'], true), (.keyword ['('], false)] := by
  have hquery : ∀ c ∈ "-(a (-b（ ）) or -(c AND -d)) -e (".toList, c ≠ '"' ∧ c ≠ '”' :=
    List.all_iff_forall_prop.mp (by decide)
  obtain ⟨c, hparse, hleaves⟩ := signedLeaves_parse {} hquery
  exact ⟨hquery, c, hparse, hleaves.trans rfl⟩

end SearchQuery
