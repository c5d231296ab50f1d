import SearchQuery.Proofs.Layer.Phrases
import SearchQuery.Proofs.Query.Operands
import SearchQuery.Proofs.Segment.Renaming

/-! Layers filled in. No bracket is paired and no run of text is cut by what stands in a phrase, or by which characters
    other than brackets stand between brackets, as long as blanks stay blanks. So the layers keep their shape when texts
    are filled in for such characters (`Layer.nest_flatMap_fill`), and two ways to fill them in give the same condition,
    up to its leaves, if every run of text is read alike (`Layer.direct_fill`). -/

namespace SearchQuery

open Skeleton (items item direct level adjoins)

/-! ### Filling in -/

/-- Texts to be filled in for characters, and other words for phrases. Brackets, spaces and dashes stay, no other
    character becomes a bracket or a dash that ends a text, and blanks become blanks. -/
structure Filling where
  char : Char → Text
  words : Text → Text
  char_of_kept : ∀ c ∈ ['(', ')', '-', ' '], char c = [c]
  isBracket_of_mem : ∀ c, Nest.isBracket (.char c) = false → ∀ d ∈ char c, Nest.isBracket (.char d) = false
  notBlank_char : ∀ c, (char c).notBlank = !isBlank c
  getLast?_char : ∀ c, c ≠ '-' → ∃ d ∈ (char c).getLast?, d ≠ '-'

namespace Filling

/-- Other words in phrases alone. -/
def ofWords (f : Text → Text) : Filling where
  char c := [c]
  words := f
  char_of_kept _ _ := rfl
  isBracket_of_mem _ hc _ hd := List.mem_singleton.mp hd ▸ hc
  notBlank_char _ := Bool.or_false _
  getLast?_char c hc := ⟨c, rfl, hc⟩

end Filling

namespace Atom

/-- The atom with other words, if it is a phrase. -/
def mapWords (f : Text → Text) : Atom → Atom
  | .char c => .char c
  | .phrase negated words => .phrase negated (f words)

/-- The atoms that are filled in for an atom. -/
def fill (φ : Filling) : Atom → List Atom
  | .char c => (φ.char c).map .char
  | .phrase negated words => [.phrase negated (φ.words words)]

variable (φ : Filling)

theorem flatMap_fill_ofWords (f : Text → Text) (as : List Atom) :
    as.flatMap (fill (.ofWords f)) = as.map (mapWords f) := by
  have hfill : ∀ a ∈ as, fill (.ofWords f) a = [mapWords f a] := fun a _ => by cases a <;> rfl
  rw [List.flatMap_congr hfill, List.map_eq_flatMap]

theorem fill_of_kept {c : Char} (hc : c ∈ ['(', ')', '-', ' ']) : fill φ (.char c) = [.char c] := by
  rw [fill, φ.char_of_kept c hc]
  rfl

theorem fill_of_isBracket {a : Atom} (h : Nest.isBracket a = true) : fill φ a = [a] := by
  cases a with
  | phrase => cases h
  | char c => rcases Nest.eq_of_isBracket h with rfl | rfl <;> exact fill_of_kept φ (by decide)

theorem isBracket_of_mem_fill {a : Atom} (h : Nest.isBracket a = false) : ∀ b ∈ fill φ a, Nest.isBracket b = false := by
  intro b hb
  cases a with
  | phrase => exact List.mem_singleton.mp hb ▸ rfl
  | char c =>
    obtain ⟨d, hd, rfl⟩ := List.mem_map.mp hb
    exact φ.isBracket_of_mem c h d hd

theorem pad_flatMap_fill (as : List Atom) : pad (as.flatMap (fill φ)) = (pad as).flatMap (fill φ) := by
  have hspace : fill φ (.char ' ') = [.char ' '] := fill_of_kept φ (by decide)
  induction as with
  | nil => rfl
  | cons a as ih =>
    rw [List.flatMap_cons, pad_append, ih, pad_cons, List.flatMap_append]
    cases a with
    | char c =>
      rw [fill, pad_map_char, spaced, List.flatMap_singleton]
      rfl
    | phrase negated words =>
      rw [spaced, List.flatMap_cons, List.flatMap_cons, List.flatMap_singleton, hspace]
      rfl

theorem pad_map_mapWords (f : Text → Text) (as : List Atom) :
    pad (as.map (mapWords f)) = (pad as).map (mapWords f) := by
  rw [← flatMap_fill_ofWords, pad_flatMap_fill, flatMap_fill_ofWords]

theorem splitDash_flatMap_fill (run : List Atom) :
    splitDash (run.flatMap (fill φ)) = ((splitDash run).1.flatMap (fill φ), (splitDash run).2) := by
  have hdash : fill φ (.char '-') = [.char '-'] := fill_of_kept φ (by decide)
  rcases List.eq_nil_or_concat run with rfl | ⟨run, a, rfl⟩
  · rfl
  · rw [List.concat_eq_append, List.flatMap_append, List.flatMap_singleton, splitDash, splitDash, List.getLast?_concat,
      List.dropLast_concat]
    by_cases ha : a = .char '-'
    · subst ha
      rw [hdash, List.getLast?_concat, List.dropLast_concat]
      rfl
    · have hlast : (run.flatMap (fill φ) ++ fill φ a).getLast? ≠ some (.char '-') := by
        cases a with
        | phrase => rw [fill, List.getLast?_concat]; simp
        | char c =>
          obtain ⟨d, hd, hne⟩ := φ.getLast?_char c fun hc => ha (congrArg char hc)
          have hsome : (fill φ (.char c)).getLast? = some (.char d) := by
            rw [fill, List.getLast?_map, Option.mem_def.mp hd]
            rfl
          rw [List.getLast?_append, hsome]
          simpa using hne
      rw [if_neg hlast, if_neg (by simpa using ha), List.flatMap_append, List.flatMap_singleton]

theorem notBlank_text_flatMap_fill (as : List Atom) : (text (as.flatMap (fill φ))).notBlank = (text as).notBlank := by
  induction as with
  | nil => rfl
  | cons a as ih =>
    rw [List.flatMap_cons, text_append, text_cons, Text.notBlank_append, Text.notBlank_append, ih]
    cases a with
    | char c =>
      rw [fill, text_map_char, φ.notBlank_char]
      exact congrArg (· || _) (Bool.or_false _).symm
    | phrase negated words =>
      have hquote : ∀ w, (typed (.phrase negated w)).notBlank = true := fun w =>
        Text.notBlank_of_mem (c := '"') (by cases negated <;> simp [typed]) (by decide)
      rw [fill, text_cons, Text.notBlank_append, hquote, hquote]
      rfl

end Atom

namespace Nest

/-- The level with what is filled in for its atoms. -/
def fill (φ : Filling) : Nest → Nest
  | nil => nil
  | atom a later => ofAtoms (a.fill φ) ++ fill φ later
  | pair inside later => pair (fill φ inside) (fill φ later)

variable (φ : Filling)

theorem fill_append (ms ns : Nest) : (ms ++ ns).fill φ = ms.fill φ ++ ns.fill φ := by
  induction ms with
  | nil => rfl
  | atom a later ih => rw [atom_append, fill, ih, fill, append_assoc]
  | pair inside later _ ih => rw [pair_append, fill, ih, fill, pair_append]

theorem fill_ofAtoms (as : List Atom) : (ofAtoms as).fill φ = ofAtoms (as.flatMap (Atom.fill φ)) := by
  induction as with
  | nil => rfl
  | cons a as ih => rw [ofAtoms_cons, fill, ih, List.flatMap_cons, ofAtoms_append]

theorem fill_of_isBracket {a : Atom} (h : isBracket a = true) (later : Nest) :
    (atom a later).fill φ = atom a (later.fill φ) := by
  rw [fill, Atom.fill_of_isBracket φ h]
  rfl

theorem isBlank_fill (ns : Nest) : (ns.fill φ).isBlank = ns.isBlank := by
  induction ns with
  | nil => rfl
  | pair inside later _ _ => rfl
  | atom a later ih =>
    rw [fill, isBlank_append, ih]
    cases a with
    | phrase => rfl
    | char c => rw [Atom.fill, isBlank_ofAtoms_char, φ.notBlank_char, Bool.not_not, isBlank]

theorem fill_closed (inside : Nest) : (closed inside).fill φ = closed (inside.fill φ) := by
  rw [closed, closed, isBlank_fill]
  split <;> rfl

theorem fill_spliced (opens : List Nest) (current : Nest) :
    (spliced opens current).fill φ = spliced (opens.map (fill φ)) (current.fill φ) := by
  induction opens generalizing current with
  | nil => rfl
  | cons outer opens ih => rw [spliced, ih, fill_append, fill_of_isBracket φ rfl, List.map_cons, spliced]

/-- Brackets find the same partners whatever is filled in between them. -/
theorem fill_resume (opens : List Nest) (current ns : Nest) :
    (resume opens current ns).fill φ = resume (opens.map (fill φ)) (current.fill φ) (ns.fill φ) := by
  -- Only brackets move levels onto the stack and back, and nothing is filled in for a bracket.
  induction ns generalizing opens current with
  | nil => exact fill_spliced φ opens current
  | pair inside later _ ih =>
    rw [resume_pair, ih, fill_append]
    rfl
  | atom a later ih =>
    by_cases ha : isBracket a = true
    · rw [fill_of_isBracket φ ha]
      cases a with
      | phrase => cases ha
      | char c =>
        rcases eq_of_isBracket ha with rfl | rfl
        · rw [resume_open, resume_open, ih]
          rfl
        · cases opens with
          | nil =>
            rw [resume_stray, ih, fill_append, fill_of_isBracket φ rfl]
            rfl
          | cons outer opens =>
            rw [resume_close, ih, fill_append, fill_closed]
            rfl
    · have ha : isBracket a = false := by simpa using ha
      have hcloses : Closes (a.fill φ) _ := .ofAtoms (Atom.isBracket_of_mem_fill φ ha)
      rw [resume_atom ha, ih, fill_append, fill, fill, append_nil, ← hcloses]
      rfl

theorem dropBrackets_append (ms ns : Nest) : (ms ++ ns).dropBrackets = ms.dropBrackets ++ ns.dropBrackets := by
  induction ms with
  | nil => rfl
  | pair inside later _ ih => rw [pair_append, dropBrackets, ih, dropBrackets, pair_append]
  | atom a later ih =>
    rw [atom_append, dropBrackets, dropBrackets, ih]
    split
    · rfl
    · rw [atom_append]

theorem dropBrackets_ofAtoms {as : List Atom} (h : ∀ a ∈ as, isBracket a = false) :
    (ofAtoms as).dropBrackets = ofAtoms as := by
  induction as with
  | nil => rfl
  | cons a as ih =>
    rw [ofAtoms_cons, dropBrackets, h a List.mem_cons_self, ih fun b hb => h b (List.mem_cons_of_mem a hb)]
    rfl

theorem fill_dropBrackets (ns : Nest) : ns.dropBrackets.fill φ = (ns.fill φ).dropBrackets := by
  induction ns with
  | nil => rfl
  | pair inside later _ ih => rw [dropBrackets, fill, ih, fill, dropBrackets]
  | atom a later ih =>
    rw [dropBrackets]
    split
    · next ha => rw [fill_of_isBracket φ ha, dropBrackets, if_pos ha, ih]
    · next ha =>
      rw [fill, ih, fill, dropBrackets_append,
        dropBrackets_ofAtoms (Atom.isBracket_of_mem_fill φ (by simpa using ha))]

end Nest

theorem Layer.nest_flatMap_fill (settings : Settings) (φ : Filling) (as : List Atom) :
    nest settings (as.flatMap (Atom.fill φ)) = (nest settings as).fill φ := by
  have hresume := Nest.fill_resume φ [] .nil (.ofAtoms as)
  rw [Nest.fill_ofAtoms] at hresume
  rw [nest, nest]
  split
  · rw [Nest.fill_dropBrackets, hresume]
    rfl
  · exact hresume.symm

/-! ### The conditions of filled layers -/

variable {ρ : Renaming} {φ ψ : Filling}

theorem Skeleton.level_rename (ρ : Renaming) (xs : List Segment) :
    level (xs.map (Segment.rename ρ)) = (level xs).rename ρ := by
  have hadjoins : (fun x y => adjoins (Segment.rename ρ x) (Segment.rename ρ y)) = adjoins := rfl
  rw [level_eq, level_eq, ← Segment.alternate_rename, splitBy_map, hadjoins, List.map_map, List.map_map]
  refine congrArg Segment.alternate (List.map_congr_left fun run _ => ?_)
  rw [Function.comp_apply, Function.comp_apply, List.map_map, List.map_map]
  rfl

theorem item_group_rename {negated : Bool} {ms ns : List ClosedNode} (h : direct ms = (direct ns).rename ρ) :
    item (.group negated ms) = (item (.group negated ns)).rename ρ := by
  rw [Skeleton.item_group, Skeleton.item_group, h, Segment.rename, Segment.mk.injEq]
  refine ⟨rfl, ?_, rfl⟩
  cases negated with
  | false => rfl
  | true =>
    have hnegation : Condition.negation ((direct ns).rename ρ) = Condition.rename ρ (.negation (direct ns)) :=
      (Condition.mapLeaves_negation _).symm
    show Condition.simplify (.negation ((direct ns).rename ρ)) = _
    rw [hnegation]
    exact Condition.simplify_mapLeaves ρ.notBlank_term ρ.notBlank_words _

/-- The run is read alike with what the two fillings fill in, up to the leaves. -/
def ReadAlike (ρ : Renaming) (φ ψ : Filling) (r : List Atom) : Prop :=
  Segment.read (Atom.text (r.flatMap (Atom.fill φ))) = (Segment.read (Atom.text (r.flatMap (Atom.fill ψ)))).rename ρ

theorem items_segment_fill {run : List Atom} (h : ReadAlike ρ φ ψ (Atom.pad run)) :
    items (Atom.segment (run.flatMap (Atom.fill φ))) =
      (items (Atom.segment (run.flatMap (Atom.fill ψ)))).map (Segment.rename ρ) := by
  rw [Atom.segment, Atom.segment, Atom.pad_flatMap_fill, Atom.pad_flatMap_fill, Atom.notBlank_text_flatMap_fill,
    Atom.notBlank_text_flatMap_fill]
  split
  · rw [Skeleton.items_eq_map, Skeleton.items_eq_map, List.map_singleton, List.map_singleton, List.map_singleton,
      Skeleton.item_text, Skeleton.item_text]
    exact congrArg ([·]) h
  · rw [items]
    rfl

theorem nodesFrom_fill_atom (φ : Filling) (a : Atom) (later : Nest) (run : List Atom) :
    ((Nest.atom a later).fill φ).nodesFrom (run.flatMap (Atom.fill φ)) =
      (later.fill φ).nodesFrom ((run ++ [a]).flatMap (Atom.fill φ)) := by
  rw [Nest.fill, Operand.nodesFrom_ofAtoms_append, List.flatMap_append, List.flatMap_singleton]

/-- Where every run of a nest is read alike with what is filled in, the items are alike. -/
theorem items_fill {ns : Nest} {run : List Atom} (h : ∀ r ∈ ns.runsFrom run, ReadAlike ρ φ ψ r) :
    items ((ns.fill φ).nodesFrom (run.flatMap (Atom.fill φ))) =
      (items ((ns.fill ψ).nodesFrom (run.flatMap (Atom.fill ψ)))).map (Segment.rename ρ) := by
  -- What has been read of a run is carried along; a pair ends it, and the runs inside and after the pair start anew.
  induction ns generalizing run with
  | nil => exact items_segment_fill (h _ List.mem_cons_self)
  | atom a later ih =>
    rw [nodesFrom_fill_atom, nodesFrom_fill_atom]
    exact ih h
  | pair inside later ihinside ih =>
    rw [Nest.runsFrom] at h
    have hinside := @ihinside [] fun r hr => h r (List.mem_cons_of_mem _ (List.mem_append_left _ hr))
    have hlater := @ih [] fun r hr => h r (List.mem_cons_of_mem _ (List.mem_append_right _ hr))
    rw [List.flatMap_nil, List.flatMap_nil] at hinside hlater
    have hdirect : direct ((inside.fill φ).nodesFrom []) = (direct ((inside.fill ψ).nodesFrom [])).rename ρ := by
      rw [direct, hinside, Skeleton.level_rename]
      rfl
    have hbefore := items_segment_fill (h _ List.mem_cons_self)
    rw [Nest.fill, Nest.fill, Nest.nodesFrom, Nest.nodesFrom, Atom.splitDash_flatMap_fill, Atom.splitDash_flatMap_fill,
      Operand.items_append, Operand.items_append, Operand.items_cons, Operand.items_cons, hbefore,
      item_group_rename hdirect, hlater, List.map_append, List.map_cons]

/-- Two ways to fill in a query give conditions that are alike if every run of its text is read alike. -/
theorem Layer.direct_fill (settings : Settings) {as : List Atom}
    (h : ∀ r ∈ (nest settings as).runsFrom [], ReadAlike ρ φ ψ r) :
    direct (nest settings (as.flatMap (Atom.fill φ))).nodes =
      (direct (nest settings (as.flatMap (Atom.fill ψ))).nodes).rename ρ := by
  have hitems := items_fill h
  rw [List.flatMap_nil, List.flatMap_nil] at hitems
  rw [nest_flatMap_fill, nest_flatMap_fill, direct, Nest.nodes, hitems, Skeleton.level_rename]
  rfl

/-- Other words in the phrases of a query change its condition in its leaves alone, if they change the reading of every
    run of text so. -/
theorem Layer.direct_mapWords (settings : Settings) {f : Text → Text} {as : List Atom}
    (h : ∀ r ∈ (nest settings as).runsFrom [],
      Segment.read (Atom.text (r.map (Atom.mapWords f))) = (Segment.read (Atom.text r)).rename ρ) :
    direct (nest settings (as.map (Atom.mapWords f))).nodes = (direct (nest settings as).nodes).rename ρ := by
  have hsame : ∀ bs : List Atom, bs.flatMap (Atom.fill (.ofWords id)) = bs := fun bs => by
    rw [Atom.flatMap_fill_ofWords]
    exact (List.map_congr_left fun a _ => by cases a <;> rfl).trans (List.map_id bs)
  have halike : ∀ r ∈ (nest settings as).runsFrom [], ReadAlike ρ (.ofWords f) (.ofWords id) r := fun r hr => by
    rw [ReadAlike, Atom.flatMap_fill_ofWords, hsame]
    exact h r hr
  have hfill := Layer.direct_fill settings halike
  rwa [Atom.flatMap_fill_ofWords, hsame] at hfill

end SearchQuery
