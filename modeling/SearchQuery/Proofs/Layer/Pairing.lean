import SearchQuery.Proofs.Layer.Nodes

/-! The layers of a text, read off its brackets at once. Every closing bracket is paired with the last opening
    bracket that has no partner yet, the pairs that come to nothing are left out, and the tree that remains gives
    the nodes: a pair is a group, and what stands between pairs is text. Collapsing from the inside out with
    numbered placeholders gives the same layers (`Layer.ofProtected_eq_tree`). -/

namespace SearchQuery

namespace Nest

/-! ### Brackets and their partners -/

/-- Reads on with the levels around the brackets that are still open on a stack, the last one first, and what has
    been read of the current level. -/
def pairFrom (opens : List Nest) (current : Nest) : Text → Nest
  | [] => spliced opens current
  | c :: s =>
    if c = '(' then pairFrom (current :: opens) nil s
    else if c = ')' then
      match opens with
      | [] => pairFrom [] (current ++ atom (.char ')') nil) s
      | outer :: opens => pairFrom opens (outer ++ pair current nil) s
    else pairFrom opens (current ++ atom (.char c) nil) s

/-- The text with every closing bracket paired with the last opening bracket before it that has no partner yet. -/
def paired (s : Text) : Nest := pairFrom [] nil s

/-- The level without the pairs around nothing but blanks, once such pairs inside them are left out. -/
def prune : Nest → Nest
  | nil => nil
  | atom a later => atom a (prune later)
  | pair inside later => if (prune inside).isBlank then prune later else pair (prune inside) (prune later)

variable {opens : List Nest} {current : Nest} {s : Text}

theorem pairFrom_open : pairFrom opens current ('(' :: s) = pairFrom (current :: opens) nil s := by
  simp [pairFrom]

theorem pairFrom_stray : pairFrom [] current (')' :: s) = pairFrom [] (current ++ atom (.char ')') nil) s := by
  simp [pairFrom]

theorem pairFrom_close {outer : Nest} :
    pairFrom (outer :: opens) current (')' :: s) = pairFrom opens (outer ++ pair current nil) s := by
  simp [pairFrom]

theorem pairFrom_char {c : Char} (hopen : c ≠ '(') (hclose : c ≠ ')') :
    pairFrom opens current (c :: s) = pairFrom opens (current ++ atom (.char c) nil) s := by
  simp [pairFrom, hopen, hclose]

theorem prune_append (ms ns : Nest) : (ms ++ ns).prune = ms.prune ++ ns.prune := by
  induction ms with
  | nil => rfl
  | atom a later ih => rw [atom_append, prune, prune, ih, atom_append]
  | pair inside later _ ih =>
    rw [pair_append, prune, prune, ih]
    split
    · rfl
    · rw [pair_append]

theorem prune_spliced (opens : List Nest) (current : Nest) :
    (spliced opens current).prune = spliced (opens.map prune) current.prune := by
  induction opens generalizing current with
  | nil => rfl
  | cons outer opens ih =>
    have hstep := ih (outer ++ atom (.char '(') current)
    rwa [prune_append, prune] at hstep

theorem prune_pair_nil (inside : Nest) : (pair inside nil).prune = closed inside.prune := by
  rw [prune, closed]
  rfl

/-- Leaving out pairs after they have been found comes to the same as never entering them. -/
theorem prune_pairFrom (opens : List Nest) (current : Nest) (s : Text) :
    (pairFrom opens current s).prune = resume (opens.map prune) current.prune (ofAtoms (s.map .char)) := by
  -- On the right the stack and the current level are pruned as far as they have been read.
  induction s generalizing opens current with
  | nil => exact prune_spliced opens current
  | cons c s ih =>
    rw [List.map_cons, ofAtoms_cons]
    by_cases hopen : c = '('
    · rw [hopen, pairFrom_open, ih, resume_open]
      rfl
    · by_cases hclose : c = ')'
      · rw [hclose]
        cases opens with
        | nil =>
          rw [pairFrom_stray, ih, prune_append, List.map_nil, resume_stray]
          rfl
        | cons outer opens =>
          rw [pairFrom_close, ih, prune_append, prune_pair_nil, List.map_cons, resume_close]
      · have hc : isBracket (.char c) = false := by simp [isBracket, hopen, hclose]
        rw [pairFrom_char hopen hclose, ih, prune_append, resume_atom hc]
        rfl

theorem prune_paired (s : Text) : (paired s).prune = resume [] nil (ofAtoms (s.map .char)) := prune_pairFrom [] nil s

/-! ### The tree of a nest -/

/-- The node of a run of text, unless it is blank. -/
def textNode (run : Text) : List ClosedNode := if run.notBlank then [.text run] else []

/-- The nodes of a level that stands after the text of a run: a pair is a group, negated by a dash right before it,
    which is taken off, and a run of text is a text node unless it is blank. -/
def tree (run : Text) : Nest → List ClosedNode
  | nil => textNode run
  | atom a later => tree (run ++ a.typed) later
  | pair inside later =>
    textNode (Layer.splitDash run).1 ++ .group (Layer.splitDash run).2 (tree [] inside) :: tree [] later

/-- The atom is a character that satisfies `p`. -/
def IsChar (p : Char → Prop) (a : Atom) : Prop := ∃ c, a = .char c ∧ p c

theorem segment_map_char (run : Text) : Atom.segment (run.map .char) = textNode run := by
  rw [Atom.segment, Atom.pad_map_char, Atom.text_map_char]
  rfl

theorem splitDash_map_char (run : Text) :
    Atom.splitDash (run.map .char) = ((Layer.splitDash run).1.map .char, (Layer.splitDash run).2) := by
  have hlast : (run.map Atom.char).getLast? = some (.char '-') ↔ run.getLast? = some '-' := by
    rw [List.getLast?_map]
    simp
  rw [Atom.splitDash, Layer.splitDash, ← List.map_dropLast]
  simp only [hlast]
  split
  · rfl
  · rfl

theorem nodesFrom_eq_tree {p : Char → Prop} {ns : Nest} (h : ns.Each (IsChar p)) (run : Text) :
    ns.nodesFrom (run.map .char) = ns.tree run := by
  induction ns generalizing run with
  | nil => exact segment_map_char run
  | atom a later ih =>
    obtain ⟨⟨c, rfl, -⟩, hlater⟩ := h
    have hrun : run.map Atom.char ++ [.char c] = (run ++ [c]).map .char := by simp
    rw [nodesFrom, hrun, ih hlater]
    rfl
  | pair inside later ihinside ih =>
    have hinside := ihinside h.1 []
    have hlater := ih h.2 []
    rw [List.map_nil] at hinside hlater
    rw [nodesFrom, tree, splitDash_map_char, hinside, hlater, segment_map_char]

end Nest

namespace Layer

/-- The brackets of a text with their partners, without the pairs that come to nothing; brackets without a partner
    are text, or are dropped by the settings. -/
def pairing (settings : Settings) (s : Text) : Nest :=
  if settings.dropUnmatchedBrackets then (Nest.paired s).prune.dropBrackets else (Nest.paired s).prune

theorem nest_map_char (settings : Settings) (s : Text) : nest settings (s.map .char) = pairing settings s := by
  rw [nest, pairing, Nest.prune_paired]

theorem each_pairing {p : Char → Prop} (hopen : p '(') (settings : Settings) {s : Text} (h : ∀ c ∈ s, p c) :
    (pairing settings s).Each (Nest.IsChar p) := by
  rw [← nest_map_char]
  refine each_nest ⟨'(', rfl, hopen⟩ settings fun a ha => ?_
  obtain ⟨c, hc, rfl⟩ := List.mem_map.mp ha
  exact ⟨c, rfl, h c hc⟩

theorem nodes_nest_map_char (settings : Settings) (s : Text) :
    (nest settings (s.map .char)).nodes = (pairing settings s).tree [] := by
  rw [nest_map_char]
  exact Nest.nodesFrom_eq_tree (each_pairing (p := fun _ => True) trivial settings fun _ _ => trivial) []

theorem reads_map_char {phrases : Phrase.Tables} {s : Text} (h : ∀ c ∈ s, Phrase.isMark c = false) :
    Phrase.Reads phrases s (s.map .char) := by
  induction s with
  | nil => exact .nil
  | cons c s ih => exact .char (h c List.mem_cons_self) (ih fun d hd => h d (List.mem_cons_of_mem c hd))

/-- The layers of a text without full-width brackets and marks of placeholders are the tree of its brackets, paired
    from the left, whatever phrases are at hand; laying it out never fails. -/
theorem ofProtected_eq_tree (settings : Settings) (phrases : Phrase.Tables) {s : Text}
    (h : ∀ c ∈ s, c ≠ '（' ∧ c ≠ '）' ∧ c ≠ '\ue000' ∧ c ≠ '\ue001') :
    ofProtected settings phrases s = .ok ((pairing settings s).tree []) := by
  rw [ofProtected_eq settings (reads_map_char fun c hc => ?_) fun c hc => ?_, nodes_nest_map_char]
  · obtain ⟨-, -, hopen, hclose⟩ := h c hc
    simp [Phrase.isMark, Phrase.openMark, Phrase.closeMark, hopen, hclose]
  · obtain ⟨d, hd, hcd⟩ := List.mem_map.mp hc
    cases hcd
    obtain ⟨hopen, hclose, -, -⟩ := h c hd
    simp [isFullWidthBracket, hopen, hclose]

/-- Brackets without a partner on either side, a blank pair inside a negated one, and a group around one. -/
theorem ofProtected_eq_tree_dropped :
    ofProtected { dropUnmatchedBrackets := true } {} ") a -( b ( ( ) )-) (c(d))e(".toList =
      .ok [.text [' ', 'a', ' '], .group true [.text [' ', 'b', ' ', '-']],
        .group false [.text ['c'], .group false [.text ['d']]], .text ['e']] :=
  (ofProtected_eq_tree _ _ (List.all_iff_forall_prop.mp (by decide))).trans rfl

end Layer
end SearchQuery
