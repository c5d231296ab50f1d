import SearchQuery.Condition.Canonical
import SearchQuery.Proofs.Layer.Nodes
import SearchQuery.Proofs.Skeleton.Direct

/-! A level whose operands are joined by one connective. An operand is a word, a group or nothing at all, and the
    connective stands in words between two operands. Words and connectives between two groups are one segment, so
    an OR beside a group is seen at the end of that segment, and an OR between words inside it; either way the
    level asks for what its operands ask for, joined by the connective (`direct_joined`). -/

namespace SearchQuery

open Condition (Reduced partsOf)
open Skeleton (items item direct adjoins)

/-! ### Runs of words and connectives -/

/-- The atoms between two groups of a level joined by `op`: each word asks for something or is the connective, and
    no two words that ask for something stand side by side where the connective is OR. -/
structure IsRun (op : Connective) (run : List Atom) : Prop where
  typable : ∀ a ∈ run, Phrase.Typable a
  words : ∀ w ∈ Atom.words run, w.spells op = true ∨ w.condition?.isSome = true
  apart : op = .or → (Atom.words run).IsChain fun v w => v.spells .or = true ∨ w.spells .or = true

namespace IsRun

variable {op : Connective} {run : List Atom}

theorem not_spells (h : IsRun op run) {op' : Connective} (hop : op' ≠ op) :
    ∀ w ∈ Atom.words run, w.spells op' = false := by
  intro w hw
  rw [Bool.eq_false_iff]
  intro hspells
  rcases h.words w hw with hop' | hsome
  · exact hop (Word.eq_of_spells hspells hop')
  · rw [Word.condition?_of_spells hspells] at hsome
    cases hsome

/-- The segment that the atoms are read as. -/
theorem partsOf_condition (h : IsRun op run) :
    partsOf op (Segment.ofAtoms (Atom.pad run)).condition =
      (((Atom.words run).filterMap Word.condition?).map Condition.simplify).flatMap (partsOf op) := by
  rw [Segment.ofAtoms, Atom.words_pad]
  cases op with
  | and =>
    rw [Word.runs_of_not_or (h.not_spells (by decide))]
    exact Segment.partsOf_alternate_singleton _
  | or =>
    rw [← Word.flatten_runs]
    exact Segment.partsOf_alternate (Word.length_le_one_of_mem_runs (h.apart rfl))

/-- Of the words at an end, those that are left tell whether an OR stands there. -/
theorem any_undelimited (h : IsRun op run) (pick : List Word → Option Word) (hpick : ∀ ws, ∀ w ∈ pick ws, w ∈ ws)
    {w : Word} (hw : pick (Atom.words run) = some w) (hop : w.spells op = true) (before after : Bool) :
    (pick (undelimited (Word.spells .and) before after (Atom.words run))).any (Word.spells .or) = (op == .or) := by
  cases op with
  | or =>
    rw [undelimited_eq_self (h.not_spells (by decide)), hw]
    exact hop
  | and =>
    cases hleft : pick (undelimited (Word.spells .and) before after (Atom.words run)) with
    | none => rfl
    | some v => exact h.not_spells (by decide) v ((undelimited_sublist _ _ _ _).subset (hpick _ v hleft))

theorem startsWithOr_eq (h : IsRun op run) {w : Word} (hw : (Atom.words run).head? = some w)
    (hop : w.spells op = true) : (Segment.ofAtoms (Atom.pad run)).startsWithOr = (op == .or) := by
  rw [Segment.ofAtoms, Atom.words_pad]
  exact h.any_undelimited List.head? (fun _ _ => List.mem_of_mem_head?) hw hop _ _

theorem endsWithOr_eq (h : IsRun op run) {w : Word} (hw : (Atom.words run).getLast? = some w)
    (hop : w.spells op = true) : (Segment.ofAtoms (Atom.pad run)).endsWithOr = (op == .or) := by
  rw [Segment.ofAtoms, Atom.words_pad]
  exact h.any_undelimited List.getLast? (fun _ _ => List.mem_of_mem_getLast?) hw hop _ _

theorem nil : IsRun op [] := ⟨by simp, by simp [Atom.words_eq, Atom.wordsFrom], fun _ => .nil⟩

end IsRun

/-! ### The connective in words -/

/-- The connective in words, with a space on either side. -/
def separator (op : Connective) : Text := ' ' :: op.word ++ [' ']

theorem plain_separator (op : Connective) : ∀ c ∈ separator op, c ≠ '"' ∧ Phrase.isMark c = false :=
  List.all_iff_forall_prop.mp (by cases op <;> decide)

theorem spells_word (op : Connective) : (Word.term op.word).spells op = true := by
  cases op <;> decide

theorem words_append_separator (op : Connective) (run as : List Atom) :
    Atom.words (run ++ (separator op).map .char ++ as) = Atom.words run ++ .term op.word :: Atom.words as := by
  have hword : Text.words op.word = [op.word] := by cases op <;> decide
  have hsplit : run ++ (separator op).map .char ++ as = (run ++ .char ' ' :: op.word.map .char) ++ .char ' ' :: as := by
    simp [separator]
  rw [hsplit, Atom.words_append_blank Text.isBlank_space, Atom.words_append_blank Text.isBlank_space,
    Atom.words_map_char, hword, List.append_assoc]
  rfl

theorem IsRun.append {op : Connective} {run as : List Atom} (h : IsRun op run) (has : IsRun op as) :
    IsRun op (run ++ (separator op).map .char ++ as) := by
  refine ⟨fun a ha => ?_, fun w hw => ?_, fun hop => ?_⟩
  · rcases List.mem_append.mp ha with ha | ha
    · rcases List.mem_append.mp ha with ha | ha
      · exact h.typable a ha
      · obtain ⟨c, hc, rfl⟩ := List.mem_map.mp ha
        exact plain_separator op c hc
    · exact has.typable a ha
  · rw [words_append_separator] at hw
    rcases List.mem_append.mp hw with hw | hw
    · exact h.words w hw
    · rcases List.mem_cons.mp hw with rfl | hw
      · exact Or.inl (spells_word op)
      · exact has.words w hw
  · have hor : (Word.term op.word).spells .or = true := hop ▸ spells_word op
    rw [words_append_separator]
    refine List.isChain_append.mpr ⟨h.apart hop, List.isChain_cons.mpr ⟨fun w _ => Or.inl hor, has.apart hop⟩,
      fun v _ w hw => ?_⟩
    cases hw
    exact Or.inr hor

theorem isRun_of_word {op : Connective} {as : List Atom} {w : Word} (has : ∀ a ∈ as, Phrase.Typable a)
    (hw : Atom.words as = [w]) (hc : w.condition?.isSome = true) : IsRun op as := by
  refine ⟨has, fun v hv => ?_, fun _ => ?_⟩
  · rw [hw, List.mem_singleton] at hv
    exact Or.inr (hv ▸ hc)
  · rw [hw]
    exact List.isChain_singleton w

/-! ### Operands -/

/-- What stands between the connectives of a level. -/
inductive Operand where
  | nothing
  | word (as : List Atom)
  | group (negated : Bool) (inside : Nest)

namespace Operand

/-- The nest that an operand stands for. -/
def nest : Operand → Nest
  | nothing => .nil
  | word as => .ofAtoms as
  | group true inside => .atom (.char '-') (.pair inside .nil)
  | group false inside => .pair inside .nil

/-- The operand asks for the condition. -/
inductive Means : Operand → ClosedCondition → Prop where
  | nothing : Means nothing .blank
  | word {as : List Atom} {w : Word} {c : ClosedCondition} (has : ∀ a ∈ as, Phrase.Typable a) (hw : Atom.words as = [w])
      (hc : w.condition? = some c) (hreduced : c.Reduced) : Means (word as) c
  | group (inside : Nest) : Means (group false inside) (direct inside.nodes)
  | negated (inside : Nest) : Means (group true inside) (Condition.simplify (.negation (direct inside.nodes)))

theorem Means.reduced {o : Operand} {c : ClosedCondition} (h : Means o c) : c.Reduced := by
  cases h with
  | nothing => exact Condition.reduced_blank
  | word _ _ _ hreduced => exact hreduced
  | group inside => exact Skeleton.reduced_direct _
  | negated inside => exact Condition.reduced_simplify _

/-- Operands after the first one, each with the connective before it. -/
def trail (op : Connective) : List Operand → Nest
  | [] => .nil
  | o :: os => .ofAtoms ((separator op).map .char) ++ (o.nest ++ trail op os)

/-- Operands joined by the connective. -/
def joined (op : Connective) : List Operand → Nest
  | [] => .nil
  | o :: os => o.nest ++ trail op os

/-! ### The items of a level -/

/-- Connected items of a level: the connective stands between any two neighbours, and they bring the parts. -/
structure Connects (op : Connective) (xs : List Segment) (ps : List ClosedCondition) : Prop where
  chain : xs.IsChain fun x y => adjoins x y = (op == .and)
  parts : xs.flatMap (fun x => partsOf op x.condition) = ps

/-- The connective stands before the first of the items. -/
def OpensWith (op : Connective) (xs : List Segment) : Prop := ∀ x ∈ xs.head?, x.startsWithOr = (op == .or)

theorem Connects.cons {op : Connective} {x : Segment} {xs : List Segment} {ps : List ClosedCondition}
    (h : Connects op xs ps) (hx : ∀ y ∈ xs.head?, adjoins x y = (op == .and)) :
    Connects op (x :: xs) (partsOf op x.condition ++ ps) :=
  ⟨List.isChain_cons.mpr ⟨hx, h.chain⟩, by rw [List.flatMap_cons, h.parts]⟩

/-- A group stands before items that open with the connective. -/
theorem Connects.group {op : Connective} {c : ClosedCondition} {xs : List Segment} {ps : List ClosedCondition}
    (h : Connects op xs ps) (hopens : OpensWith op xs) :
    Connects op (⟨false, c, false⟩ :: xs) (partsOf op c ++ ps) := by
  refine h.cons fun y hy => ?_
  rw [adjoins, hopens y hy]
  cases op <;> rfl

theorem items_segment {run : List Atom} (h : ∀ a ∈ run, Phrase.Typable a) :
    items (Atom.segment run) = if (Atom.words run).isEmpty then [] else [Segment.ofAtoms (Atom.pad run)] := by
  rw [Atom.segment, Atom.notBlank_text, Atom.words_pad]
  cases (Atom.words run).isEmpty with
  | true =>
    show items [] = []
    rw [items]
  | false =>
    show items [.text _] = [_]
    rw [items, items, Skeleton.item_text, Segment.read_text_pad h]

theorem nodesFrom_ofAtoms_append (as : List Atom) (ns : Nest) (run : List Atom) :
    (Nest.ofAtoms as ++ ns).nodesFrom run = ns.nodesFrom (run ++ as) := by
  induction as generalizing run with
  | nil => rw [Nest.ofAtoms_nil, Nest.nil_append, List.append_nil]
  | cons a as ih =>
    rw [Nest.ofAtoms_cons, Nest.atom_append, Nest.nodesFrom, ih, List.append_assoc, List.singleton_append]

theorem nodesFrom_group {run : List Atom} (hrun : run.getLast? ≠ some (.char '-')) (negated : Bool) (inside ns : Nest) :
    ((group negated inside).nest ++ ns).nodesFrom run =
      Atom.segment run ++ .group negated inside.nodes :: ns.nodesFrom [] := by
  cases negated with
  | false =>
    have hsplit : Atom.splitDash run = (run, false) := if_neg hrun
    rw [nest, Nest.pair_append, Nest.nil_append, Nest.nodesFrom, hsplit]
    rfl
  | true =>
    have hsplit : Atom.splitDash (run ++ [.char '-']) = (run, true) := by
      rw [Atom.splitDash, List.getLast?_concat, if_pos rfl, List.dropLast_concat]
    rw [nest, Nest.atom_append, Nest.pair_append, Nest.nil_append, Nest.nodesFrom, Nest.nodesFrom, hsplit]
    rfl

theorem items_cons (node : ClosedNode) (nodes : List ClosedNode) :
    items (node :: nodes) = item node :: items nodes := by
  rw [items]

theorem items_append (ms ns : List ClosedNode) : items (ms ++ ns) = items ms ++ items ns := by
  rw [Skeleton.items_eq_map, List.map_append, ← Skeleton.items_eq_map, ← Skeleton.items_eq_map]

theorem Means.item_group {negated : Bool} {inside : Nest} {c : ClosedCondition} (h : Means (.group negated inside) c) :
    item (.group negated inside.nodes) = ⟨false, c, false⟩ := by
  cases h <;> exact Skeleton.item_group _ _

/-- What the words of a run ask for. -/
def conditions (run : List Atom) : List ClosedCondition :=
  ((Atom.words run).filterMap Word.condition?).map Condition.simplify

theorem conditions_append (op : Connective) (run as : List Atom) :
    conditions (run ++ (separator op).map .char ++ as) = conditions run ++ conditions as := by
  rw [conditions, words_append_separator, List.filterMap_append, List.map_append,
    List.filterMap_cons_none (Word.condition?_of_spells (spells_word op))]
  rfl

theorem head?_append_separator {op : Connective} {run : List Atom}
    (h : ∀ w ∈ (Atom.words run).head?, w.spells op = true) (as : List Atom) :
    ∃ w, (Atom.words (run ++ (separator op).map .char ++ as)).head? = some w ∧ w.spells op = true := by
  rw [words_append_separator]
  cases hwords : Atom.words run with
  | nil => exact ⟨_, rfl, spells_word op⟩
  | cons w ws =>
    rw [hwords] at h
    exact ⟨w, rfl, h w rfl⟩

/-- An operand is part of the run of words that it stands in, or a group. -/
theorem Means.isRun_or_group {o : Operand} {c : ClosedCondition} (h : Means o c) (op : Connective) :
    (∃ as, o.nest = .ofAtoms as ∧ IsRun op as ∧ (conditions as).flatMap (partsOf op) = partsOf op c) ∨
      ∃ negated inside, o = .group negated inside := by
  cases h with
  | nothing => exact Or.inl ⟨[], rfl, .nil, rfl⟩
  | @word as w c has hw hc hreduced =>
    refine Or.inl ⟨as, rfl, isRun_of_word has hw (by rw [hc]; rfl), ?_⟩
    have hconditions : conditions as = [c] := by
      rw [conditions, hw, List.filterMap_cons, hc, List.filterMap_nil, List.map_singleton, hreduced.simplify]
    rw [hconditions, List.flatMap_singleton]
  | group inside => exact Or.inr ⟨false, inside, rfl⟩
  | negated inside => exact Or.inr ⟨true, inside, rfl⟩

/-- A group that follows a run of words, with the connective before it. -/
theorem connects_group {op : Connective} {negated : Bool} {inside ns : Nest} {c : ClosedCondition} {run : List Atom}
    {ps : List ClosedCondition} (ho : Means (.group negated inside) c) (hrun : IsRun op run)
    (h : Connects op (items (ns.nodesFrom [])) ps) (hopens : OpensWith op (items (ns.nodesFrom []))) :
    Connects op (items (((Operand.group negated inside).nest ++ ns).nodesFrom (run ++ (separator op).map .char)))
        ((conditions run).flatMap (partsOf op) ++ (partsOf op c ++ ps)) ∧
      ((∀ w ∈ (Atom.words run).head?, w.spells op = true) →
        OpensWith op
          (items (((Operand.group negated inside).nest ++ ns).nodesFrom (run ++ (separator op).map .char)))) := by
  have hsep := hrun.append .nil
  have hwords := words_append_separator op run []
  have hconditions := conditions_append op run []
  rw [List.append_nil] at hsep hwords hconditions
  have hlast : (Atom.words (run ++ (separator op).map .char)).getLast? = some (.term op.word) := by
    rw [hwords]
    exact List.getLast?_concat
  have hitems : items (Atom.segment (run ++ (separator op).map .char)) =
      [Segment.ofAtoms (Atom.pad (run ++ (separator op).map .char))] := by
    rw [items_segment hsep.typable, if_neg]
    rw [hwords]
    simp
  -- The run ends with the space of the connective, so only a dash of the group itself negates it.
  have hdash : (run ++ (separator op).map Atom.char).getLast? ≠ some (.char '-') := by
    rw [separator, List.map_append, ← List.append_assoc, List.map_singleton, List.getLast?_concat]
    simp
  rw [nodesFrom_group hdash, items_append, items_cons, ho.item_group, hitems]
  refine ⟨?_, fun hfirst x hx => ?_⟩
  · have hcons := (h.group (c := c) hopens).cons (x := Segment.ofAtoms (Atom.pad (run ++ (separator op).map .char)))
      fun y hy => ?_
    · rw [hsep.partsOf_condition, ← conditions, hconditions, show conditions [] = [] from rfl, List.append_nil] at hcons
      exact hcons
    · cases hy
      rw [adjoins, hsep.endsWithOr_eq hlast (spells_word op)]
      cases op <;> rfl
  · cases hx
    obtain ⟨v, hv, hspells⟩ := head?_append_separator hfirst []
    rw [List.append_nil] at hv
    exact hsep.startsWithOr_eq hv hspells

/-- The items of operands that follow a run of words, each with the connective before it. -/
theorem connects_trail {op : Connective} {os : List Operand} {cs : List ClosedCondition} (h : List.Forall₂ Means os cs)
    {run : List Atom} (hrun : IsRun op run) :
    Connects op (items ((trail op os).nodesFrom run))
        ((conditions run).flatMap (partsOf op) ++ cs.flatMap (partsOf op)) ∧
      ((∀ w ∈ (Atom.words run).head?, w.spells op = true) → OpensWith op (items ((trail op os).nodesFrom run))) := by
  -- A word goes on with the run before it, the connective between them; a group ends the run, and a new one starts.
  induction h generalizing run with
  | nil =>
    rw [trail, Nest.nodesFrom, items_segment hrun.typable]
    cases hwords : Atom.words run with
    | nil =>
      refine ⟨⟨.nil, ?_⟩, fun _ x hx => by cases hx⟩
      rw [conditions, hwords]
      rfl
    | cons w ws =>
      refine ⟨⟨.singleton _, ?_⟩, fun hfirst x hx => ?_⟩
      · rw [List.flatMap_nil, List.append_nil, conditions, ← hrun.partsOf_condition]
        exact List.flatMap_singleton _ _
      · cases hx
        exact hrun.startsWithOr_eq (by rw [hwords]; rfl) (hfirst w rfl)
  | @cons o c os cs ho h ih =>
    rw [trail, nodesFrom_ofAtoms_append, List.flatMap_cons]
    rcases ho.isRun_or_group op with ⟨as, hnest, has, hconditions⟩ | ⟨negated, inside, rfl⟩
    · obtain ⟨hconnects, hopens⟩ := ih (hrun.append has)
      rw [hnest, nodesFrom_ofAtoms_append]
      refine ⟨?_, fun hfirst => hopens fun w hw => ?_⟩
      · rwa [conditions_append, List.flatMap_append, hconditions,
          List.append_assoc ((conditions run).flatMap (partsOf op))] at hconnects
      · obtain ⟨v, hv, hspells⟩ := head?_append_separator hfirst as
        rw [hv] at hw
        cases hw
        exact hspells
    · obtain ⟨hconnects, hopens⟩ := ih (IsRun.nil : IsRun op [])
      exact connects_group ho hrun hconnects (hopens (by simp [Atom.words_eq, Atom.wordsFrom]))

theorem Connects.level_eq {op : Connective} {xs : List Segment} {ps : List ClosedCondition} (h : Connects op xs ps)
    (hreduced : ∀ x ∈ xs, x.condition.Reduced) : Skeleton.level xs = .ofParts op ps := by
  have hconditions : ∀ c ∈ xs.map Segment.condition, c.Reduced := fun c hc => by
    obtain ⟨x, hx, rfl⟩ := List.mem_map.mp hc
    exact hreduced x hx
  have hjoin : Condition.join op (xs.map Segment.condition) = .ofParts op ps := by
    rw [Condition.join_eq hconditions, List.flatMap_map, h.parts]
  rw [← hjoin]
  cases op with
  | and => exact Skeleton.level_of_adjoins h.chain hreduced
  | or => exact Skeleton.level_of_not_adjoins h.chain hreduced

/-- The items of operands with the connective between them. -/
theorem connects_joined {op : Connective} {os : List Operand} {cs : List ClosedCondition}
    (h : List.Forall₂ Means os cs) : Connects op (items (joined op os).nodes) (cs.flatMap (partsOf op)) := by
  cases h with
  | nil =>
    have hnodes : items (joined op []).nodes = [] := by
      rw [joined, Nest.nodes, Nest.nodesFrom, items_segment (by simp)]
      rfl
    rw [hnodes]
    exact ⟨.nil, rfl⟩
  | @cons o c os cs ho h =>
    rw [joined, Nest.nodes, List.flatMap_cons]
    rcases ho.isRun_or_group op with ⟨as, hnest, has, hconditions⟩ | ⟨negated, inside, rfl⟩
    · rw [hnest, nodesFrom_ofAtoms_append, List.nil_append, ← hconditions]
      exact (connects_trail h has).1
    · obtain ⟨hconnects, hopens⟩ := connects_trail h (IsRun.nil : IsRun op [])
      have hsegment : items (Atom.segment []) = [] := items_segment (by simp)
      rw [nodesFrom_group (by simp), items_append, items_cons, ho.item_group, hsegment]
      exact hconnects.group (hopens (by simp [Atom.words_eq, Atom.wordsFrom]))

theorem reduced_of_means {os : List Operand} {cs : List ClosedCondition} (h : List.Forall₂ Means os cs) :
    ∀ c ∈ cs, c.Reduced := by
  induction h with
  | nil => simp
  | cons ho _ ih =>
    intro c hc
    rcases List.mem_cons.mp hc with rfl | hc
    · exact ho.reduced
    · exact ih c hc

/-- A level of operands asks for what they ask for, joined by the connective. -/
theorem direct_joined {op : Connective} {os : List Operand} {cs : List ClosedCondition} (h : List.Forall₂ Means os cs) :
    direct (joined op os).nodes = Condition.simplify (.compound op cs) := by
  have hreduced := reduced_of_means h
  rw [direct, (connects_joined h).level_eq Skeleton.reduced_of_mem_items, Condition.simplify_compound,
    Condition.map_simplify hreduced, Condition.join_eq hreduced]

/-- An operand alone on a level. -/
theorem direct_nest {o : Operand} {c : ClosedCondition} (h : Means o c) : direct o.nest.nodes = c := by
  have hjoined : direct (joined .and [o]).nodes = _ := direct_joined (.cons h .nil)
  rwa [joined, trail, Nest.append_nil, Condition.simplify_compound, Condition.map_simplify (by simpa using h.reduced),
    Condition.join_singleton] at hjoined

end Operand
end SearchQuery
