import SearchQuery.Proofs.Query.Printed

/-! What was read, printed and read again. The leaves of a condition that is read can be typed, but for the terms that a
    reader may choose to type and for phrases that end with a dash. With a space after the words of every phrase no
    phrase ends with a dash, and then the printed text is read back (`Canonical.asks_queryText`). Without the spaces it
    is read back as well, as long as the dashes are not taken for negations: the layers are the same, and each of their
    texts is read with the same phrases, each but for its space (`direct_typed`). -/

namespace SearchQuery

open SearchQuery.Bracket (IsOpen IsClose)
open Condition (Canonical Every Reduced)
open Phrase (Parted Quotable Typable Undashed)
open Skeleton (direct)

/-! ### Phrases with a space at the end -/

/-- A space after the words of every phrase. -/
def Renaming.trailed : Renaming :=
  { Renaming.refl with
    words := fun w => w ++ [' ']
    notBlank_words := fun w => by
      rw [Text.notBlank_append]
      exact Bool.or_false _ }

open Renaming (trailed)

theorem Renaming.term_trailed (t : Text) : trailed.term t = t := List.map_id t

theorem Renaming.forall_mem_trailed {p : Char → Prop} (hspace : p ' ') {w : Text} (h : ∀ c ∈ w, p c) :
    ∀ c ∈ trailed.words w, p c :=
  List.forall_mem_append.mpr ⟨h, fun _ hc => List.mem_singleton.mp hc ▸ hspace⟩

theorem Renaming.getLast?_trailed (w : Text) : (trailed.words w).getLast? ≠ some '-' := by
  show (w ++ [' ']).getLast? ≠ some '-'
  rw [List.getLast?_concat]
  decide

theorem Atom.rename_trailed : rename trailed = mapWords trailed.words := by
  funext a
  cases a <;> rfl

namespace Condition

theorem rename_trailed (c : ClosedCondition) : c.rename trailed = c.mapLeaves id trailed.words := by
  have hterm : trailed.term = id := funext Renaming.term_trailed
  rw [rename, hterm]

theorem rename_trailed_injective : Function.Injective (rename trailed) :=
  Function.LeftInverse.injective (g := mapLeaves id List.dropLast)
    (mapLeaves_of_leftInverse Renaming.term_trailed fun _ => List.dropLast_concat)

end Condition

/-! ### Printed text found again -/

/-- The words can be typed in quotes: they are not blank and hold no quote and no mark of a placeholder. -/
structure QuotableWords (words : Text) : Prop where
  notBlank : words.notBlank = true
  plain : ∀ c ∈ words, c ≠ '"' ∧ c ≠ '”' ∧ Phrase.isMark c = false

/-- Words with a space after them do not end with a dash. -/
theorem QuotableWords.trailed {words : Text} (h : QuotableWords words) : TypableWords (Renaming.trailed.words words) :=
  ⟨(Renaming.trailed.notBlank_words words).trans h.notBlank, Renaming.forall_mem_trailed (by decide) h.plain,
    Renaming.getLast?_trailed words⟩

theorem TypableWords.quotableWords {words : Text} (h : TypableWords words) : QuotableWords words :=
  ⟨h.notBlank, h.plain⟩

theorem Atom.typable_mapWords {a : Atom} (h : Quotable a) : Typable (a.mapWords trailed.words) := by
  cases a with
  | char c => exact h
  | phrase negated words =>
    exact ⟨(trailed.notBlank_words words).trans h.1, Renaming.forall_mem_trailed ⟨by decide, rfl⟩ h.2,
      Renaming.getLast?_trailed words⟩

/-- The atom can be typed in a query and is left as it is by what is done to symbols. -/
def Atom.Keeps (a : Atom) : Prop := Quotable a ∧ a.Has (· ≠ '”') ∧ a.normalize = a

variable {c : ClosedCondition}

theorem keeps_of_mem_typed (h : c.Every TypableTerm QuotableWords) : ∀ a ∈ c.typed, a.Keeps := by
  have hkeeps : ∀ d : Char, (d ≠ '"' ∧ d ≠ '”' ∧ Phrase.isMark d = false) ∧ Text.normalizeSymbol d = d →
      (Atom.char d).Keeps := fun d hd => ⟨⟨hd.1.1, hd.1.2.2⟩, hd.1.2.1, congrArg Atom.char hd.2⟩
  have hchar : ∀ d ∈ Condition.typingAlphabet,
      (d ≠ '"' ∧ d ≠ '”' ∧ Phrase.isMark d = false) ∧ Text.normalizeSymbol d = d :=
    List.all_iff_forall_prop.mp (by decide)
  refine Condition.forall_mem_typed (fun d hd => hkeeps d (hchar d hd)) (fun _ hw => ⟨hw.1, hw.2.1, rfl⟩) (h.mono ?_ ?_)
  · intro t ht d hd
    obtain ⟨hblank, hquote, hclosing, hopen, hclose, hmark⟩ := ht.plain d hd
    refine hkeeps d ⟨⟨hquote, hclosing, hmark⟩, Text.normalizeSymbol_eq_self (fun heq => hopen (Or.inr heq))
      (fun heq => hclose (Or.inr heq)) ?_⟩
    rintro rfl
    exact absurd hblank (by decide)
  · intro w hw
    exact ⟨⟨hw.notBlank, fun d hd => ⟨(hw.plain d hd).1, (hw.plain d hd).2.2⟩⟩, fun d hd => (hw.plain d hd).2.1, rfl⟩

theorem atoms_queryText (h : c.Every TypableTerm QuotableWords) (hparted : Parted c.typed) :
    Layer.atoms c.queryText = Atom.pad c.typed := by
  have hkeeps := keeps_of_mem_typed h
  rw [← Condition.text_typed]
  exact Layer.atoms_text (fun a ha => (hkeeps a ha).2)
    (Phrase.scan_text_of_parted (fun a ha => (hkeeps a ha).1) (Condition.undashed_typed c) hparted)

/-! ### Printed text read again -/

variable {as r : List Atom}

/-- A run of atoms is read with a space after the words of every phrase, before they are typed or after. -/
theorem read_trailed (h : ∀ a ∈ r, Quotable a) (hpad : ∃ as, r = Atom.pad as) (hparted : Parted r) :
    Segment.read (Atom.text (r.map (Atom.mapWords trailed.words))) = (Segment.read (Atom.text r)).rename trailed := by
  obtain ⟨as, rfl⟩ := hpad
  have htypable : ∀ a ∈ (Atom.pad as).map (Atom.mapWords trailed.words), Typable a := by
    intro a ha
    obtain ⟨b, hb, rfl⟩ := List.mem_map.mp ha
    exact Atom.typable_mapWords (h b hb)
  have hundashed : Undashed ((Atom.pad as).map (Atom.mapWords trailed.words)) := by
    rw [← Atom.pad_map_mapWords]
    exact Phrase.undashed_pad _
  rw [Segment.read_eq, Segment.read_eq, Phrase.scan_text htypable hundashed,
    Phrase.scan_text_of_parted h (Phrase.undashed_pad as) hparted, ← Atom.rename_trailed, Segment.ofAtoms_rename]

theorem parted_of_mem_runs (settings : Settings) (hparted : Parted as) (hr : r ∈ (Layer.nest settings as).runsFrom []) :
    Parted r := by
  have hinfix : r.filter Atom.hasQuote <:+: as.filter Atom.hasQuote := by
    have hquotes := Nest.quotes_runsFrom (Layer.nest settings as) []
    rw [Layer.quotes_nest] at hquotes
    rw [show as.filter Atom.hasQuote = _ from hquotes.symm]
    exact (List.infix_of_mem_flatten hr).filter _
  exact List.IsChain.infix hparted hinfix

/-- The atoms of a printed condition are read as the condition. -/
theorem direct_typed (settings : Settings) (hc : Canonical c) (h : c.Every TypableTerm QuotableWords)
    (hparted : Parted c.typed) : direct (Layer.nest settings (Atom.pad c.typed)).nodes = c := by
  have hquotable : ∀ a ∈ c.typed, Quotable a := fun a ha => (keeps_of_mem_typed h a ha).1
  have hrename := Condition.rename_trailed c
  have htyped : (c.rename trailed).typed = c.typed.map (Atom.mapWords trailed.words) := by
    rw [hrename, Condition.typed_mapLeaves]
  -- With the spaces the text is read back, from the layers that it has without them.
  have hspaced : direct (Layer.nest settings (Atom.pad (c.rename trailed).typed)).nodes = c.rename trailed := by
    have hleaves : (c.rename trailed).Every TypableTerm TypableWords := by
      rw [hrename]
      exact (h.mono (fun _ ht => ht) fun _ hw => hw.trailed).mapLeaves
    have hcanonical : Canonical (c.rename trailed) :=
      (Condition.reduced_mapLeaves trailed.notBlank_term trailed.notBlank_words hc.reduced).canonical
        ((Condition.isBlank_mapLeaves c).trans hc.isBlank)
    have htypable : ∀ a ∈ (c.rename trailed).typed, Typable a := fun a ha => by
      rw [htyped] at ha
      obtain ⟨b, hb, rfl⟩ := List.mem_map.mp ha
      exact Atom.typable_mapWords (hquotable b hb)
    have hparse := (hcanonical.asks_queryText hleaves).1.parse_eq settings
    rw [Query.parse_eq, atoms_queryText (hleaves.mono (fun _ ht => ht) fun _ hw => hw.quotableWords)
      (Phrase.parted_of_typable htypable)] at hparse
    exact Except.ok.inj hparse
  rw [htyped, Atom.pad_map_mapWords, Layer.direct_mapWords (ρ := trailed) settings fun r hr => ?_] at hspaced
  · exact Condition.rename_trailed_injective hspaced
  · refine read_trailed ?_ (Nest.exists_eq_pad_of_mem_runsFrom hr) (parted_of_mem_runs settings ?_ hr)
    · have hpad : ∀ a ∈ Atom.pad c.typed, Quotable a := Atom.forall_mem_pad ⟨by decide, rfl⟩ hquotable
      have hopen : Quotable (.char '(') := ⟨by decide, rfl⟩
      exact Nest.forall_mem_runsFrom ⟨by decide, rfl⟩ (Layer.each_nest hopen settings hpad) (by simp) r hr
    · rwa [Parted, Atom.filter_hasQuote_pad]

/-! ### Conditions that were read -/

namespace Query

/-- The term can be typed as a word: it spells no connective, holds no quote and no bracket, and does not start with a
    dash. -/
structure WordLike (t : Text) : Prop where
  unspelled : ∀ op : Connective, op.spells t = false
  plain : ∀ d ∈ t, d ≠ '"' ∧ d ≠ '”' ∧ ¬IsOpen d ∧ ¬IsClose d
  undashed : t.head? ≠ some '-'

/-- What is read from a query can be typed, if its terms can. -/
theorem every_direct (settings : Settings) {query : Text} {c : ClosedCondition}
    (hc : direct (Layer.nest settings (Layer.atoms query)).nodes = c) (hcanonical : Canonical c)
    (hterms : c.Every WordLike fun _ => True) : c.Every TypableTerm QuotableWords := by
  have hopen : Atom.Has (fun d => d ≠ '”') (.char '(') := show '(' ≠ '”' by decide
  have hread : Readable (fun d => d ≠ '”') c := by
    rw [← hc]
    exact readable_direct (readable_nodesFrom (by decide) (by decide) (by decide) (by simp)
      (Layer.each_nest hopen settings has_of_mem_atoms))
  refine hcanonical.every hread hterms (fun t hblank ht hword => ⟨?_, fun d hd => ?_, hword.undashed, hword.unspelled⟩)
    fun w hblank hw _ => ⟨hblank, hw⟩
  · rintro rfl
    cases hblank
  · obtain ⟨hquote, hclosing, hopen, hclose⟩ := hword.plain d hd
    exact ⟨(ht d hd).1, hquote, hclosing, hopen, hclose, (ht d hd).2⟩

/-- What is read from a query, printed and read again, comes out as it was if its terms can be typed as words and no
    phrase follows a plain phrase that ends with a dash. -/
theorem parse_queryText_of_parse (settings again : Settings) {query : Text} {c : ClosedCondition}
    (hparse : parse settings query = .ok c) (hterms : c.Every WordLike fun _ => True) (hparted : Parted c.typed) :
    parse again c.queryText = .ok c := by
  rw [parse_eq, Except.ok.injEq] at hparse
  rcases (hparse ▸ Skeleton.reduced_direct _ : c.Reduced) with rfl | hcanonical
  · rw [Condition.queryText_blank, parse_of_matched again (by decide) .nil]
    exact congrArg Except.ok (direct_of_isBlank rfl)
  · have hleaves := every_direct settings hparse hcanonical hterms
    rw [parse_eq, atoms_queryText hleaves hparted, direct_typed again hcanonical hleaves hparted]

/-- A phrase that ends with a dash, at the end of a negated group. -/
theorem parse_queryText_of_parse_dash :
    parse {} "c -(\"b\" OR \"a -\")".toList =
        .ok (.compound .and [.keyword ['c'], .negation (.compound .or [.phrase ['b'], .phrase ['a', ' ', '-']])]) ∧
      parse {} "c AND -(\"b\" OR \"a -\")".toList =
        .ok (.compound .and [.keyword ['c'], .negation (.compound .or [.phrase ['b'], .phrase ['a', ' ', '-']])]) := by
  have hparse : parse {} "c -(\"b\" OR \"a -\")".toList =
      .ok (.compound .and [.keyword ['c'], .negation (.compound .or [.phrase ['b'], .phrase ['a', ' ', '-']])]) := by
    rw [parse_eq]
    exact congrArg Except.ok (by decide +kernel)
  have hterm : WordLike ['c'] :=
    ⟨fun op => by cases op <;> decide, List.all_iff_forall_prop.mp (by decide), by decide⟩
  have hgroup : Every WordLike (fun _ => True) (.compound .or [.phrase ['b'], .phrase ['a', ' ', '-']]) :=
    .compound (by simpa using ⟨.phrase trivial, .phrase trivial⟩)
  have hterms : Every WordLike (fun _ => True)
      (.compound .and [.keyword ['c'], .negation (.compound .or [.phrase ['b'], .phrase ['a', ' ', '-']])]) :=
    .compound (by simpa using ⟨.keyword hterm, hgroup.negation⟩)
  have hagain := parse_queryText_of_parse {} {} hparse hterms (by decide +kernel)
  refine ⟨hparse, ?_⟩
  simpa [Condition.bracketIf, Condition.isCompound, Condition.isOtherCompound, Text.joinWith, separator,
    Connective.word] using hagain

/-- A phrase with a dash at its end before another phrase is not read again as it was: the closing quote becomes the
    opening one of a negated phrase. -/
theorem not_parse_queryText_of_parse :
    ¬∀ (settings : Settings) (query : Text) (c : ClosedCondition), parse settings query = .ok c →
      c.Every WordLike (fun _ => True) → parse {} c.queryText = .ok c := by
  intro hall
  have hparse : parse {} "-(-\"a -\") \"b\"".toList =
      .ok (.compound .and [.phrase ['a', ' ', '-'], .phrase ['b']]) := by
    rw [parse_eq]
    exact congrArg Except.ok (by decide +kernel)
  have hterms : Every WordLike (fun _ => True) (.compound .and [.phrase ['a', ' ', '-'], .phrase ['b']]) :=
    .compound (by simpa using ⟨.phrase trivial, .phrase trivial⟩)
  have hagain := hall {} _ _ hparse hterms
  rw [parse_eq, Except.ok.injEq] at hagain
  exact absurd hagain (by decide +kernel)

end Query
end SearchQuery
