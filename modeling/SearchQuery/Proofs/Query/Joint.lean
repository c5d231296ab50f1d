import SearchQuery.Proofs.Layer.Ends
import SearchQuery.Proofs.Query.Bracketed
import SearchQuery.Proofs.Skeleton.Joint

/-! Two queries joined by OR. The words after the last group of the first query and those before the first group of the
    second are read as one segment, and the OR stands inside it. Between words this segment is one of alternatives,
    but beside a group it is joined to the group as a whole, unless an OR at its own end keeps it apart. So the
    joined query asks for one of the two only under a condition, which `parse_or_iff` states. -/

namespace SearchQuery

open Condition (Reduced partsOf)
open Skeleton (items direct adjoins together drawn spared AllReduced)

namespace Segment

/-! ### The segment that two queries share -/

/-- The words of two runs of atoms with an OR between them. -/
def between (left right : List Atom) : Segment := ofAtoms (Atom.pad (left ++ (separator .or).map .char ++ right))

variable {left right as : List Atom}

theorem words_between (left right : List Atom) :
    Atom.words (left ++ (separator .or).map .char ++ right) =
      Atom.words left ++ .term Connective.or.word :: Atom.words right := words_append_separator .or left right

theorem runs_append_or {vs ws : List Word} {w : Word} (h : w.spells .or = true) :
    Word.runs (vs ++ w :: ws) = Word.runs vs ++ Word.runs ws := by
  rw [Word.runs, List.splitOnP_append_cons vs ws h, List.map_append]
  rfl

theorem alternate_append (rs ss : List (List ClosedCondition)) :
    alternate (rs ++ ss) = .join .or [alternate rs, alternate ss] := by
  have hreduced : ∀ rs : List (List ClosedCondition),
      ∀ c ∈ rs.map fun run => Condition.join .and (run.map Condition.simplify), Reduced c := fun rs c hc => by
    obtain ⟨run, -, rfl⟩ := List.mem_map.mp hc
    refine Condition.reduced_join fun d hd => ?_
    obtain ⟨e, -, rfl⟩ := List.mem_map.mp hd
    exact Condition.reduced_simplify e
  rw [alternate_eq, alternate_eq, alternate_eq, List.map_append, Condition.join_append (hreduced rs) (hreduced ss)]

/-- The shared segment asks for what stands on one side of the OR. -/
theorem condition_between (left right : List Atom) :
    (between left right).condition =
      .join .or [(ofAtoms (Atom.pad left)).condition, (ofAtoms (Atom.pad right)).condition] := by
  rw [between, ofAtoms, ofAtoms, ofAtoms, Atom.words_pad, Atom.words_pad, Atom.words_pad, words_between,
    runs_append_or (spells_word .or), alternate_append]

theorem exists_word_of_condition (h : (ofAtoms as).condition ≠ .blank) :
    ∃ w ∈ Atom.words as, w.spells .and = false := by
  by_contra hwords
  refine h (Condition.isBlank_iff.mp ?_)
  have hand : ∀ w ∈ Atom.words as, w.spells .and = true := fun w hw => by
    by_contra hspells
    exact hwords ⟨w, hw, by simpa using hspells⟩
  have hflatten : (Word.runs (Atom.words as)).flatten = [] := by
    rw [Word.flatten_runs, List.filterMap_eq_nil_iff]
    exact fun w hw => Word.condition?_of_spells (hand w hw)
  rw [ofAtoms, alternate_eq, Condition.isBlank_join, List.all_eq_true]
  intro c hc
  obtain ⟨run, hrun, rfl⟩ := List.mem_map.mp hc
  rw [List.flatten_eq_nil_iff.mp hflatten run hrun]
  rfl

theorem pad_ne_nil_of_condition (h : (ofAtoms (Atom.pad as)).condition ≠ .blank) : Atom.pad as ≠ [] := by
  intro hnil
  rw [hnil] at h
  exact h rfl

/-- A side that asks for something has its own end of the shared segment. -/
theorem startsWithOr_between (h : (ofAtoms (Atom.pad left)).condition ≠ .blank) (right : List Atom) :
    (between left right).startsWithOr = (ofAtoms (Atom.pad left)).startsWithOr := by
  have hword := exists_word_of_condition h
  rw [Atom.words_pad] at hword
  have hfirst : (Atom.pad (left ++ (separator .or).map .char ++ right)).head? = (Atom.pad left).head? := by
    rw [Atom.pad_append, Atom.pad_append, List.append_assoc, List.head?_append_of_ne_nil _ (pad_ne_nil_of_condition h)]
  rw [between, ofAtoms, ofAtoms, hfirst, Atom.words_pad, Atom.words_pad, words_between]
  exact congrArg (Option.any _) (head?_undelimited_append hword _ _ _ _)

theorem endsWithOr_between (h : (ofAtoms (Atom.pad right)).condition ≠ .blank) (left : List Atom) :
    (between left right).endsWithOr = (ofAtoms (Atom.pad right)).endsWithOr := by
  have hword := exists_word_of_condition h
  rw [Atom.words_pad] at hword
  have hlast : (Atom.pad (left ++ (separator .or).map .char ++ right)).getLast? = (Atom.pad right).getLast? := by
    rw [Atom.pad_append, List.getLast?_append_of_ne_nil _ (pad_ne_nil_of_condition h)]
  rw [between, ofAtoms, ofAtoms, hlast, Atom.words_pad, Atom.words_pad, words_between, List.append_cons]
  exact congrArg (Option.any _) (getLast?_undelimited_append hword _ _ _ _)

end Segment

/-! ### What stands beside the shared segment -/

section Sides

variable {run : List Segment} {left right : List Atom}

theorem items_segment_eq {as : List Atom} (has : ∀ a ∈ as, Phrase.Typable a)
    (h : (Segment.ofAtoms (Atom.pad as)).condition ≠ .blank) :
    items (Atom.segment as) = [Segment.ofAtoms (Atom.pad as)] := by
  rw [Operand.items_segment has, if_neg]
  intro hwords
  rw [List.isEmpty_iff] at hwords
  rw [Segment.ofAtoms, Atom.words_pad, hwords] at h
  exact h rfl

theorem allReduced_ofAtoms (as : List Atom) : AllReduced [Segment.ofAtoms as] := by
  simpa [AllReduced] using Segment.reduced_condition as

/-- The first query on its own: its last segment draws as much as the shared one, or asks for nothing. -/
theorem partsOf_level_left (hrun : run.IsChain fun x y => adjoins x y = true) (hreduced : AllReduced run)
    (hend : ∀ x ∈ run.getLast?, x.endsWithOr = false) (hleft : ∀ a ∈ left, Phrase.Typable a) (right : List Atom) :
    partsOf .or (Skeleton.level (run ++ items (Atom.segment left))) =
      partsOf .or (together (spared (Segment.between left right).startsWithOr run)) ++
        partsOf .or (.join .and [together (drawn (Segment.between left right).startsWithOr run),
          (Segment.ofAtoms (Atom.pad left)).condition]) := by
  by_cases hblank : (Segment.ofAtoms (Atom.pad left)).condition = .blank
  · rw [hblank, Skeleton.spared_append_drawn, Operand.items_segment hleft]
    split
    · rw [List.append_nil, Skeleton.partsOf_level_of_adjoins hrun hreduced]
    · have hall : AllReduced (run ++ [Segment.ofAtoms (Atom.pad left)]) :=
        Skeleton.allReduced_append.mpr ⟨hreduced, allReduced_ofAtoms _⟩
      rw [Skeleton.partsOf_level_last hrun hend hall, hblank, Skeleton.spared_append_drawn]
  · have hall : AllReduced (run ++ [Segment.ofAtoms (Atom.pad left)]) :=
      Skeleton.allReduced_append.mpr ⟨hreduced, allReduced_ofAtoms _⟩
    rw [items_segment_eq hleft hblank, Skeleton.partsOf_level_last hrun hend hall, Segment.startsWithOr_between hblank]

theorem partsOf_level_right (hrun : run.IsChain fun x y => adjoins x y = true) (hreduced : AllReduced run)
    (hstart : ∀ x ∈ run.head?, x.startsWithOr = false) (hright : ∀ a ∈ right, Phrase.Typable a) (left : List Atom) :
    partsOf .or (Skeleton.level (items (Atom.segment right) ++ run)) =
      partsOf .or (.join .and [(Segment.ofAtoms (Atom.pad right)).condition,
          together (drawn (Segment.between left right).endsWithOr run)]) ++
        partsOf .or (together (spared (Segment.between left right).endsWithOr run)) := by
  by_cases hblank : (Segment.ofAtoms (Atom.pad right)).condition = .blank
  · rw [hblank, Skeleton.drawn_append_spared, Operand.items_segment hright]
    split
    · rw [List.nil_append, Skeleton.partsOf_level_of_adjoins hrun hreduced]
    · have hall : AllReduced ([Segment.ofAtoms (Atom.pad right)] ++ run) :=
        Skeleton.allReduced_append.mpr ⟨allReduced_ofAtoms _, hreduced⟩
      rw [Skeleton.partsOf_level_first hrun hstart hall, hblank, Skeleton.drawn_append_spared]
  · have hall : AllReduced ([Segment.ofAtoms (Atom.pad right)] ++ run) :=
      Skeleton.allReduced_append.mpr ⟨allReduced_ofAtoms _, hreduced⟩
    rw [items_segment_eq hright hblank, Skeleton.partsOf_level_first hrun hstart hall,
      Segment.endsWithOr_between hblank]

end Sides

/-! ### Two queries with an OR between them -/

namespace Query

open SearchQuery.Bracket (Matched nestOf)

/-- The segment that two queries share when they are joined by OR. -/
def shared (p q : Text) : Segment := .between ((nestOf p).back []) ((nestOf q).front [])

/-- What the shared segment draws from the groups before it. -/
def drawnBefore (p q : Text) : ClosedCondition :=
  together (drawn (shared p q).startsWithOr (lastRun adjoins (items ((nestOf p).toBack []))))

/-- What the shared segment draws from the groups after it. -/
def drawnAfter (p q : Text) : ClosedCondition :=
  together (drawn (shared p q).endsWithOr (firstRun adjoins (items ((nestOf q).fromFront []))))

theorem reduced_drawnBefore (p q : Text) : (drawnBefore p q).Reduced :=
  Skeleton.reduced_together
    ((Skeleton.lastRun_spec Skeleton.reduced_of_mem_items Nest.endsWithOr_toBack).2.1.drawn _)

theorem reduced_drawnAfter (p q : Text) : (drawnAfter p q).Reduced :=
  Skeleton.reduced_together
    ((Skeleton.firstRun_spec Skeleton.reduced_of_mem_items Nest.startsWithOr_fromFront).2.1.drawn _)

/-- What the words of the first query ask for in the shared segment. -/
def asksBefore (p : Text) : ClosedCondition := (Segment.ofAtoms (Atom.pad ((nestOf p).back []))).condition

/-- What the words of the second query ask for in the shared segment. -/
def asksAfter (q : Text) : ClosedCondition := (Segment.ofAtoms (Atom.pad ((nestOf q).front []))).condition

/-- Nothing is drawn across the OR between two queries: nothing is drawn at all, or it is drawn on one side only and
    the words on the other side of the OR ask for nothing. -/
def StaysApart (p q : Text) : Prop :=
  (drawnBefore p q = .blank ∧ drawnAfter p q = .blank) ∨ (drawnBefore p q = .blank ∧ asksBefore p = .blank) ∨
    (drawnAfter p q = .blank ∧ asksAfter q = .blank)

theorem typable_of_unquoted {query : Text} (h : Unquoted query) : (nestOf query).Each Phrase.Typable := by
  have hopen : Phrase.Typable (.char '(') := ⟨by decide, by decide⟩
  refine Nest.Each.resume hopen (by simp) trivial (Nest.each_ofAtoms fun a ha => ?_)
  obtain ⟨c, hc, rfl⟩ := List.mem_map.mp ha
  exact Text.normalizeSymbol_induction (p := fun c => c ≠ '"' ∧ Phrase.isMark c = false) (by decide) (by decide) (by decide)
    ⟨(h c hc).1, (h c hc).2.2⟩

theorem items_joined {p q : Text} (hp : Unquoted p) (hq : Unquoted q) :
    items (nestOf p ++ (.ofAtoms ((separator .or).map .char) ++ nestOf q)).nodes =
      items ((nestOf p).toBack []) ++ ([shared p q] ++ items ((nestOf q).fromFront [])) := by
  have hdash : ((nestOf p).back [] ++ (separator .or).map Atom.char).getLast? ≠ some (.char '-') := by
    rw [List.getLast?_append_of_ne_nil _ (by decide)]
    decide
  have htypable : ∀ a ∈ (nestOf p).back [] ++ (separator .or).map Atom.char ++ (nestOf q).front [], Phrase.Typable a := by
    intro a ha
    rcases List.mem_append.mp ha with ha | ha
    · rcases List.mem_append.mp ha with ha | ha
      · exact Nest.forall_mem_back (typable_of_unquoted hp) (by simp) a ha
      · obtain ⟨c, hc, rfl⟩ := List.mem_map.mp ha
        exact plain_separator .or c hc
    · exact Nest.forall_mem_front (typable_of_unquoted hq) (by simp) a ha
  have hrun := Nest.nodesFrom_append_run hdash (nestOf q) []
  rw [List.append_nil] at hrun
  rw [Nest.nodes, Nest.nodesFrom_append, Operand.nodesFrom_ofAtoms_append, hrun, Operand.items_append,
    Operand.items_append, Operand.items_segment htypable, Segment.words_between, if_neg (by simp)]
  rfl

theorem eq_iff_partsOf_eq {c d : ClosedCondition} (hc : Reduced c) (hd : Reduced d) :
    c = d ↔ partsOf .or c = partsOf .or d := by
  refine ⟨congrArg _, fun h => ?_⟩
  have hofParts : Condition.ofParts .or (partsOf .or c) = c := Condition.ofParts_partsOf hc
  rw [← hofParts, h, Condition.ofParts_partsOf hd]

/-- The alternatives of two queries and of both with an OR between them differ only where the queries meet. -/
theorem exists_alternatives {p q : Text} (hp : Unquoted p) (hq : Unquoted q) :
    ∃ ps qs,
      partsOf .or (direct (nestOf p).nodes) = ps ++ partsOf .or (.join .and [drawnBefore p q, asksBefore p]) ∧
      partsOf .or (direct (nestOf q).nodes) = partsOf .or (.join .and [asksAfter q, drawnAfter p q]) ++ qs ∧
      partsOf .or (direct (nestOf p ++ (.ofAtoms ((separator .or).map .char) ++ nestOf q)).nodes) =
        ps ++ (partsOf .or (.join .and
          [drawnBefore p q, .join .or [asksBefore p, asksAfter q], drawnAfter p q]) ++ qs) := by
  have hbefore : AllReduced (items ((nestOf p).toBack [])) := Skeleton.reduced_of_mem_items
  have hafter : AllReduced (items ((nestOf q).fromFront [])) := Skeleton.reduced_of_mem_items
  obtain ⟨hchainp, hreducedp, hend⟩ := Skeleton.lastRun_spec hbefore Nest.endsWithOr_toBack
  obtain ⟨hchainq, hreducedq, hstart⟩ := Skeleton.firstRun_spec hafter Nest.startsWithOr_fromFront
  -- All but the last run before the shared words and the first run after them is the same in the three levels.
  obtain ⟨ps, hps⟩ := Skeleton.exists_partsOf_level_lastRun hbefore
  obtain ⟨qs, hqs⟩ := Skeleton.exists_partsOf_level_firstRun hafter
  have hback : ∀ a ∈ (nestOf p).back [], Phrase.Typable a := Nest.forall_mem_back (typable_of_unquoted hp) (by simp)
  have hfront : ∀ a ∈ (nestOf q).front [], Phrase.Typable a := Nest.forall_mem_front (typable_of_unquoted hq) (by simp)
  refine ⟨ps ++ partsOf .or (together (spared (shared p q).startsWithOr (lastRun adjoins (items ((nestOf p).toBack []))))),
    partsOf .or (together (spared (shared p q).endsWithOr (firstRun adjoins (items ((nestOf q).fromFront []))))) ++ qs,
    ?_, ?_, ?_⟩
  · rw [direct, Nest.nodes, Nest.nodesFrom_eq_toBack, Operand.items_append, hps _ Skeleton.reduced_of_mem_items,
      partsOf_level_left hchainp hreducedp hend hback ((nestOf q).front []), List.append_assoc]
    rfl
  · rw [direct, Nest.nodes, Nest.nodesFrom_eq_fromFront, Operand.items_append, hqs _ Skeleton.reduced_of_mem_items,
      partsOf_level_right hchainq hreducedq hstart hfront ((nestOf p).back []), List.append_assoc]
    rfl
  · have hshared : AllReduced [shared p q] := allReduced_ofAtoms _
    have hlast := Skeleton.allReduced_append.mpr ⟨hreducedp, hshared⟩
    have hjoint := Skeleton.partsOf_level_joint hchainp hchainq hend hstart
      (Skeleton.allReduced_append.mpr ⟨hlast, hreducedq⟩)
    rw [direct, items_joined hp hq, hps _ (Skeleton.allReduced_append.mpr ⟨hshared, hafter⟩), ← List.append_assoc,
      hqs _ hlast, hjoint, shared, Segment.condition_between]
    simp only [List.append_assoc]
    rfl

/-- Two queries without quotes whose brackets match, with an OR between them, ask for what one of them asks for exactly
    when nothing is drawn across the OR. -/
theorem parse_or_iff (settings : Settings) {p q : Text} (hp : Unquoted p) (hmp : Matched p) (hq : Unquoted q)
    (hmq : Matched q) :
    ∃ c d, parse settings p = .ok c ∧ parse settings q = .ok d ∧
      (parse settings (p ++ separator .or ++ q) = .ok (Condition.simplify (.compound .or [c, d])) ↔ StaysApart p q) := by
  refine ⟨_, _, parse_of_matched settings hp hmp, parse_of_matched settings hq hmq, ?_⟩
  have hunquoted : Unquoted (p ++ separator .or ++ q) := (hp.append (unquoted_separator .or)).append hq
  have hmatched : Matched (p ++ separator .or ++ q) := (hmp.append (matched_separator .or)).append hmq
  have hnest : nestOf (p ++ separator .or ++ q) = nestOf p ++ (.ofAtoms ((separator .or).map .char) ++ nestOf q) := by
    rw [Bracket.nestOf_append (hmp.append (matched_separator .or)) hmq, Bracket.nestOf_append hmp (matched_separator .or),
      nestOf_separator, Nest.append_assoc]
  have hcd : ∀ c ∈ [direct (nestOf p).nodes, direct (nestOf q).nodes], Reduced c := by
    simpa using ⟨Skeleton.reduced_direct _, Skeleton.reduced_direct _⟩
  obtain ⟨ps, qs, hleft, hright, hjoined⟩ := exists_alternatives hp hq
  rw [parse_of_matched settings hunquoted hmatched, hnest, Except.ok.injEq,
    eq_iff_partsOf_eq (Skeleton.reduced_direct _) (Condition.reduced_simplify _), hjoined, Condition.simplify_compound,
    Condition.map_simplify hcd, Condition.partsOf_join hcd, List.flatMap_cons, List.flatMap_singleton, hleft, hright,
    List.append_assoc, List.append_cancel_left_eq, ← List.append_assoc, List.append_cancel_right_eq]
  exact Condition.partsOf_join_and_iff (reduced_drawnBefore p q) (Segment.reduced_condition _)
    (Segment.reduced_condition _) (reduced_drawnAfter p q)

/-- An OR of its own keeps the group apart from the words that the queries share. -/
theorem parse_or_iff_group :
    ∃ c d, parse {} "(c) OR a".toList = .ok c ∧ parse {} ['b'] = .ok d ∧
      parse {} "(c) OR a OR b".toList = .ok (Condition.simplify (.compound .or [c, d])) := by
  have hp : Unquoted "(c) OR a".toList ∧ Matched "(c) OR a".toList :=
    ⟨by decide, .pair (s := ['c']) (.inl rfl) (.inl rfl) (.of_plain (List.all_iff_forall_prop.mp (by decide)))
      (.of_plain (List.all_iff_forall_prop.mp (by decide)))⟩
  have hq : Unquoted ['b'] ∧ Matched ['b'] := ⟨by decide, .char (by decide) (by decide) .nil⟩
  obtain ⟨c, d, hc, hd, hiff⟩ := parse_or_iff {} hp.1 hp.2 hq.1 hq.2
  exact ⟨c, d, hc, hd, hiff.mpr (.inl ⟨rfl, rfl⟩)⟩

/-- Not every two queries stay apart: a group draws the words after it together with those of the next query, so that
    `(c) a OR b` asks for `c` and for `a` or `b`. -/
theorem not_parse_or :
    ¬∀ (settings : Settings) (p q : Text), Unquoted p → Matched p → Unquoted q → Matched q →
      ∃ c d, parse settings p = .ok c ∧ parse settings q = .ok d ∧
        parse settings (p ++ separator .or ++ q) = .ok (Condition.simplify (.compound .or [c, d])) := by
  intro hall
  have hmatched : Matched "(c) a".toList :=
    .pair (s := ['c']) (.inl rfl) (.inl rfl) (.of_plain (List.all_iff_forall_prop.mp (by decide)))
      (.of_plain (List.all_iff_forall_prop.mp (by decide)))
  obtain ⟨c, d, hc, hd, hcd⟩ :=
    hall {} "(c) a".toList ['b'] (by decide) hmatched (by decide) (.char (by decide) (by decide) .nil)
  have hne : ((parse {} "(c) a".toList).toOption.bind fun c => (parse {} ['b']).toOption.map fun d =>
      Condition.simplify (.compound .or [c, d])) ≠ (parse {} "(c) a OR b".toList).toOption := by decide +kernel
  rw [hc, hd] at hne
  exact hne (congrArg Except.toOption hcd).symm

end Query
end SearchQuery
