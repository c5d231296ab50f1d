import SearchQuery.Proofs.Layer.Nodes

/-! Phrases extracted again from the texts of the layers. Laying out a query moves no quote: pairing and dropping
    brackets leaves the quotes and phrases of its atoms in their order (`quotes_nest`), and the texts of the nodes are
    typed from the atoms between pairs (`texts_nodesFrom`). So the phrases that the texts are found to hold are those of
    the query wherever no dash has come to stand before a quote (`tables_texts`). -/

namespace SearchQuery

namespace Atom

theorem filter_hasQuote_pad (as : List Atom) : (pad as).filter hasQuote = as.filter hasQuote := by
  induction as with
  | nil => rfl
  | cons a as ih =>
    rw [pad_cons, List.filter_append, ih]
    cases a with
    | char c =>
      rw [spaced, ← List.filter_append]
      rfl
    | phrase negated words => rfl

theorem filter_hasQuote_normalize (as : List Atom) :
    (as.map normalize).filter hasQuote = as.filter hasQuote := by
  induction as with
  | nil => rfl
  | cons a as ih =>
    cases a with
    | phrase negated words =>
      rw [List.map_cons, normalize, List.filter_cons_of_pos rfl, List.filter_cons_of_pos rfl, ih]
    | char c =>
      rw [List.map_cons, normalize]
      by_cases hc : c = '"'
      · subst hc
        exact congrArg (.char '"' :: ·) ih
      · have hnormal : Text.normalizeSymbol c ≠ '"' :=
          Text.normalizeSymbol_induction (p := (· ≠ '"')) (by decide) (by decide) (by decide) hc
        rw [List.filter_cons_of_neg (by simpa [hasQuote] using hnormal),
          List.filter_cons_of_neg (by simpa [hasQuote] using hc), ih]

theorem filter_hasQuote_splitDash (run : List Atom) : (splitDash run).1.filter hasQuote = run.filter hasQuote := by
  rw [splitDash]
  split
  · next hdash =>
    obtain ⟨before, rfl⟩ := List.getLast?_eq_some_iff.mp hdash
    rw [List.dropLast_concat, List.filter_append]
    exact (List.append_nil _).symm
  · rfl

end Atom

namespace Phrase

theorem phrases_filter_hasQuote (negated : Bool) (as : List Atom) :
    phrases negated (as.filter Atom.hasQuote) = phrases negated as := by
  induction as with
  | nil => rfl
  | cons a as ih =>
    cases a with
    | phrase n words => rw [List.filter_cons_of_pos rfl, phrases, phrases, ih]
    | char c =>
      rw [List.filter_cons]
      split
      · exact ih
      · exact ih

theorem phrases_flatten (negated : Bool) (runs : List (List Atom)) :
    phrases negated runs.flatten = runs.flatMap (phrases negated) := by
  induction runs with
  | nil => rfl
  | cons run runs ih => rw [List.flatten_cons, phrases_append, ih, List.flatMap_cons]

end Phrase

namespace Nest

/-! ### The quotes of a nest -/

/-- The atoms of a level that quotes are typed for, and of the levels inside it, in the order of the text. -/
def quotes : Nest → List Atom
  | nil => []
  | atom a later => if a.hasQuote then a :: quotes later else quotes later
  | pair inside later => quotes inside ++ quotes later

theorem quotes_append (ms ns : Nest) : (ms ++ ns).quotes = ms.quotes ++ ns.quotes := by
  induction ms with
  | nil => rfl
  | atom a later ih =>
    rw [atom_append, quotes, quotes, ih]
    split
    · rfl
    · rfl
  | pair inside later _ ih => rw [pair_append, quotes, quotes, ih, List.append_assoc]

theorem quotes_ofAtoms (as : List Atom) : (ofAtoms as).quotes = as.filter Atom.hasQuote := by
  induction as with
  | nil => rfl
  | cons a as ih => rw [ofAtoms_cons, quotes, List.filter_cons, ih]

theorem quotes_of_isBlank {ns : Nest} (h : ns.isBlank = true) : ns.quotes = [] := by
  induction ns with
  | nil => rfl
  | pair inside later _ _ => cases h
  | atom a later ih =>
    cases a with
    | phrase => cases h
    | char c =>
      rw [isBlank, Bool.and_eq_true] at h
      have hc : c ≠ '"' := by
        rintro rfl
        exact absurd h.1 (by decide)
      rw [quotes, if_neg (by simpa [Atom.hasQuote] using hc), ih h.2]

theorem quotes_closed (inside : Nest) : (closed inside).quotes = inside.quotes := by
  cases h : inside.isBlank with
  | true =>
    rw [closed_of_isBlank h, quotes_of_isBlank h]
    rfl
  | false =>
    rw [closed_of_not_isBlank h]
    exact List.append_nil _

theorem quotes_spliced_append (opens : List Nest) (current ns : Nest) :
    (spliced opens (current ++ ns)).quotes = (spliced opens current).quotes ++ ns.quotes := by
  induction opens generalizing current with
  | nil => exact quotes_append current ns
  | cons outer opens ih =>
    have hstep := ih (outer ++ atom (.char '(') current)
    rwa [append_assoc, atom_append] at hstep

/-- Pairing brackets keeps the quotes in their order. -/
theorem quotes_resume (opens : List Nest) (current ns : Nest) :
    (resume opens current ns).quotes = (spliced opens current).quotes ++ ns.quotes := by
  -- On the right what has been read is taken as if none of its open brackets found a partner; a bracket is no quote.
  induction ns generalizing opens current with
  | nil => exact (List.append_nil _).symm
  | pair inside later _ ih =>
    rw [resume_pair, ih, quotes_spliced_append, List.append_assoc, quotes, quotes, quotes, List.append_nil]
  | atom a later ih =>
    by_cases ha : isBracket a = true
    · cases a with
      | phrase => cases ha
      | char c =>
        rcases eq_of_isBracket ha with rfl | rfl
        · rw [resume_open, ih, spliced, quotes_spliced_append]
          exact congrArg (· ++ later.quotes) (List.append_nil _)
        · cases opens with
          | nil =>
            rw [resume_stray, ih, quotes_spliced_append]
            exact congrArg (· ++ later.quotes) (List.append_nil _)
          | cons outer opens =>
            rw [resume_close, ih, spliced, quotes_spliced_append, quotes_spliced_append, quotes_closed]
            rfl
    · rw [resume_atom (by simpa using ha), ih, quotes_spliced_append, List.append_assoc, ← quotes_append]
      rfl

theorem quotes_dropBrackets (ns : Nest) : ns.dropBrackets.quotes = ns.quotes := by
  induction ns with
  | nil => rfl
  | pair inside later _ ih => rw [dropBrackets, quotes, quotes, ih]
  | atom a later ih =>
    rw [dropBrackets]
    split
    · next ha =>
      cases a with
      | phrase => cases ha
      | char c => rcases eq_of_isBracket ha with rfl | rfl <;> exact ih
    · rw [quotes, quotes, ih]

/-! ### The texts of a nest -/

/-- The atoms that the text nodes of a level are typed from, if it stands after a run, and those of the levels inside
    it, in the order of the text. -/
def runsFrom (run : List Atom) : Nest → List (List Atom)
  | nil => [Atom.pad run]
  | atom a later => runsFrom (run ++ [a]) later
  | pair inside later => Atom.pad (Atom.splitDash run).1 :: (runsFrom [] inside ++ runsFrom [] later)

theorem quotes_runsFrom (ns : Nest) (run : List Atom) :
    (ns.runsFrom run).flatten.filter Atom.hasQuote = run.filter Atom.hasQuote ++ ns.quotes := by
  induction ns generalizing run with
  | nil =>
    rw [runsFrom, List.flatten_singleton, Atom.filter_hasQuote_pad]
    exact (List.append_nil _).symm
  | atom a later ih =>
    rw [runsFrom, ih, List.filter_append, List.append_assoc, quotes, List.filter_cons]
    split
    · rfl
    · rfl
  | pair inside later ihinside ih =>
    rw [runsFrom, List.flatten_cons, List.flatten_append, List.filter_append, List.filter_append, ihinside, ih,
      Atom.filter_hasQuote_pad, Atom.filter_hasQuote_splitDash]
    rfl

theorem forall_mem_runsFrom {p : Atom → Prop} (hspace : p (.char ' ')) {ns : Nest} (h : ns.Each p) {run : List Atom}
    (hrun : ∀ a ∈ run, p a) : ∀ r ∈ ns.runsFrom run, ∀ a ∈ r, p a := by
  induction ns generalizing run with
  | nil =>
    intro r hr
    rw [List.mem_singleton.mp hr]
    exact Atom.forall_mem_pad hspace hrun
  | atom a later ih => exact ih h.2 (List.forall_mem_append.mpr ⟨hrun, List.forall_mem_singleton.mpr h.1⟩)
  | pair inside later ihinside ih =>
    intro r hr
    rcases List.mem_cons.mp hr with rfl | hr
    · exact Atom.forall_mem_pad hspace (Atom.forall_mem_splitDash hrun)
    · rcases List.mem_append.mp hr with hr | hr
      · exact ihinside h.1 (by simp) r hr
      · exact ih h.2 (by simp) r hr

theorem exists_eq_pad_of_mem_runsFrom {ns : Nest} {run r : List Atom} (h : r ∈ ns.runsFrom run) :
    ∃ as, r = Atom.pad as := by
  induction ns generalizing run with
  | nil => exact ⟨run, List.mem_singleton.mp h⟩
  | atom a later ih => exact ih h
  | pair inside later ihinside ih =>
    rcases List.mem_cons.mp h with rfl | h
    · exact ⟨_, rfl⟩
    · rcases List.mem_append.mp h with h | h
      · exact ihinside h
      · exact ih h

end Nest

namespace Layer

mutual

/-- The texts of a node, depth first. -/
def nodeTexts : ClosedNode → List Text
  | .text s => [s]
  | .group _ nodes => texts nodes
  | .foreign value => value.elim

/-- The texts of layers, depth first. -/
def texts : List ClosedNode → List Text
  | [] => []
  | node :: nodes => nodeTexts node ++ texts nodes

end

theorem texts_append (ms ns : List ClosedNode) : texts (ms ++ ns) = texts ms ++ texts ns := by
  induction ms with
  | nil => rw [texts]; rfl
  | cons m ms ih => rw [List.cons_append, texts, texts, ih, List.append_assoc]

theorem texts_segment (run : List Atom) : texts (Atom.segment run) = [Atom.text (Atom.pad run)].filter Text.notBlank := by
  rw [Atom.segment]
  split
  · next hb =>
    rw [texts, texts, nodeTexts, List.filter_cons_of_pos hb]
    rfl
  · next hb =>
    rw [texts, List.filter_cons_of_neg hb]
    rfl

/-- The texts of the nodes of a nest are typed from its runs. -/
theorem texts_nodesFrom (ns : Nest) (run : List Atom) :
    texts (ns.nodesFrom run) = ((ns.runsFrom run).map Atom.text).filter Text.notBlank := by
  induction ns generalizing run with
  | nil => exact texts_segment run
  | atom a later ih => exact ih (run ++ [a])
  | pair inside later ihinside ih =>
    rw [Nest.nodesFrom, texts_append, texts, nodeTexts, texts_segment, ihinside, ih, Nest.runsFrom, List.map_cons,
      List.map_append, ← List.filter_append, ← List.filter_append]
    rfl

/-! ### Phrases extracted again -/

/-- The atoms that the texts of a query are typed from, in the order of the text, blank ones among them. -/
def runs (settings : Settings) (query : Text) : List (List Atom) := (nest settings (atoms query)).runsFrom []

theorem quotes_nest (settings : Settings) (as : List Atom) : (nest settings as).quotes = as.filter Atom.hasQuote := by
  have hresume : (Nest.resume [] .nil (.ofAtoms as)).quotes = as.filter Atom.hasQuote := by
    rw [Nest.quotes_resume, Nest.quotes_ofAtoms]
    rfl
  rw [nest]
  split
  · rw [Nest.quotes_dropBrackets, hresume]
  · exact hresume

/-- The quotes and phrases of a query stand in its texts in the order that they were found in. -/
theorem filter_flatten_runs (settings : Settings) (query : Text) :
    (runs settings query).flatten.filter Atom.hasQuote = (Phrase.scan query.normalizeQuotes).filter Atom.hasQuote := by
  rw [runs, Nest.quotes_runsFrom, quotes_nest, atoms, Atom.filter_hasQuote_normalize, Atom.filter_hasQuote_pad]
  rfl

variable {settings : Settings} {query : Text} {run : List Atom}

open Phrase (Extracted Unpaired Clear Typable spelled scan)

theorem unpaired_of_mem_runs (h : run ∈ runs settings query) : Unpaired run := by
  have hinfix : run.filter Atom.hasQuote <:+: (scan query.normalizeQuotes).filter Atom.hasQuote := by
    rw [← filter_flatten_runs settings]
    exact (List.infix_of_mem_flatten h).filter _
  exact List.IsChain.infix (Phrase.unpaired_scan query.normalizeQuotes) hinfix

theorem forall_mem_runs {p : Atom → Prop} (hopen : p (.char '(')) (hclose : p (.char ')')) (hspace : p (.char ' '))
    (h : ∀ a ∈ scan query.normalizeQuotes, p a) (hrun : run ∈ runs settings query) : ∀ a ∈ run, p a := by
  have heach : (nest settings (atoms query)).Each p := each_nest hopen settings (forall_mem_atoms hopen hclose hspace h)
  exact Nest.forall_mem_runsFrom hspace heach (by simp) run hrun

theorem extracted_of_mem_runs (h : run ∈ runs settings query) : ∀ a ∈ run, Extracted (fun _ => True) a :=
  forall_mem_runs ⟨trivial, by decide⟩ ⟨trivial, by decide⟩ ⟨trivial, by decide⟩
    (Phrase.extracted_scan fun _ _ => trivial) h

/-- A text of a query is taken for the atoms that it was typed from just in case no dash in it has come to stand before
    a quote that another one closes. -/
theorem scan_text_run_iff (h : run ∈ runs settings query) :
    scan (Atom.text run) = run ↔ Clear (run.flatMap spelled) := by
  rw [Phrase.scan_text_iff (extracted_of_mem_runs h)]
  exact and_iff_left (unpaired_of_mem_runs h)

theorem phrases_scan_of_blank {s : Text} (h : s.notBlank = false) (negated : Bool) :
    Phrase.phrases negated (scan s) = [] := by
  have hplain : ∀ c ∈ s, c ≠ '"' ∧ Phrase.isMark c = false := by
    intro c hc
    have hblank := Text.notBlank_eq_false_iff.mp h c hc
    refine ⟨?_, Bool.eq_false_iff.mpr fun hmark => ?_⟩
    · rintro rfl
      exact absurd hblank (by decide)
    · simp only [Phrase.isMark, Bool.or_eq_true, decide_eq_true_eq] at hmark
      rcases hmark with rfl | rfl
      · exact absurd hblank (by decide)
      · exact absurd hblank (by decide)
  rw [Phrase.scan_of_plain hplain, Phrase.phrases_map_char]

theorem flatMap_filter_notBlank {β : Type} {f : Text → List β} (hf : ∀ s, s.notBlank = false → f s = [])
    (ss : List Text) : (ss.filter Text.notBlank).flatMap f = ss.flatMap f := by
  induction ss with
  | nil => rfl
  | cons s ss ih =>
    cases hs : s.notBlank with
    | true => rw [List.filter_cons_of_pos hs, List.flatMap_cons, List.flatMap_cons, ih]
    | false =>
      rw [List.filter_cons_of_neg (by simp [hs]), List.flatMap_cons, hf s hs, ih]
      rfl

theorem phrases_texts (h : ∀ run ∈ runs settings query, Clear (run.flatMap spelled)) (negated : Bool) :
    (texts (nest settings (atoms query)).nodes).flatMap (fun s => Phrase.phrases negated (scan s)) =
      Phrase.phrases negated (scan query.normalizeQuotes) := by
  calc
    _ = ((runs settings query).map Atom.text).flatMap fun s => Phrase.phrases negated (scan s) := by
      rw [Nest.nodes, texts_nodesFrom, flatMap_filter_notBlank fun s hs => phrases_scan_of_blank hs negated]
      rfl
    _ = (runs settings query).flatMap (Phrase.phrases negated) := by
      rw [List.flatMap_map]
      refine List.flatMap_congr fun run hrun => ?_
      rw [(scan_text_run_iff hrun).mpr (h run hrun)]
    _ = Phrase.phrases negated ((runs settings query).flatten.filter Atom.hasQuote) := by
      rw [Phrase.phrases_filter_hasQuote, Phrase.phrases_flatten]
    _ = Phrase.phrases negated (scan query.normalizeQuotes) := by
      rw [filter_flatten_runs, Phrase.phrases_filter_hasQuote]

/-- The phrases extracted from the texts of a query are those extracted from the query, negated and plain ones each in
    their order, if no dash in its texts has come to stand before a quote that another one closes. -/
theorem tables_texts (settings : Settings) (query : Text)
    (h : ∀ run ∈ runs settings query, Clear (run.flatMap spelled)) :
    ∃ nodes, ofQuery settings query = .ok nodes ∧
      (texts nodes).flatMap (fun s => (Phrase.extract s).2.negative) = (Phrase.extract query.normalizeQuotes).2.negative ∧
      (texts nodes).flatMap (fun s => (Phrase.extract s).2.positive) =
        (Phrase.extract query.normalizeQuotes).2.positive := by
  refine ⟨_, ofQuery_eq settings query, ?_, ?_⟩
  · simp only [Phrase.extract_eq]
    exact phrases_texts h true
  · simp only [Phrase.extract_eq]
    exact phrases_texts h false

/-- Quotes that are left over around groups, and a plain phrase that ends with a dash. -/
theorem tables_texts_leftover :
    (∀ run ∈ runs {} "a\" -(-\"x (y\" b) \"z -\" (c)-".toList, Clear (run.flatMap spelled)) ∧
      ∃ nodes, ofQuery {} "a\" -(-\"x (y\" b) \"z -\" (c)-".toList = .ok nodes ∧
        (texts nodes).flatMap (fun s => (Phrase.extract s).2.negative) = [['x', ' ', '(', 'y']] ∧
        (texts nodes).flatMap (fun s => (Phrase.extract s).2.positive) = [['z', ' ', '-']] := by
  have hclear : ∀ run ∈ runs {} "a\" -(-\"x (y\" b) \"z -\" (c)-".toList, Clear (run.flatMap spelled) := by
    decide +kernel
  obtain ⟨nodes, hnodes, hnegative, hpositive⟩ := tables_texts {} _ hclear
  refine ⟨hclear, nodes, hnodes, hnegative.trans ?_, hpositive.trans ?_⟩
  · decide +kernel
  · decide +kernel

/-- A blank pair that vanishes between a dash and a quote brings a negated phrase that the query does not have. -/
theorem not_tables_texts :
    ¬ ∀ (settings : Settings) (query : Text), ∃ nodes, ofQuery settings query = .ok nodes ∧
      (texts nodes).flatMap (fun s => (Phrase.extract s).2.negative) = (Phrase.extract query.normalizeQuotes).2.negative ∧
      (texts nodes).flatMap (fun s => (Phrase.extract s).2.positive) =
        (Phrase.extract query.normalizeQuotes).2.positive := by
  intro h
  obtain ⟨nodes, hnodes, hnegative, -⟩ := h {} "-()\"x -\"y\"".toList
  rw [ofQuery_eq, Except.ok.injEq] at hnodes
  subst hnodes
  revert hnegative
  decide +kernel

end Layer
end SearchQuery
