import SearchQuery.Proofs.Query.Bracketed

/-! Canonical query text is read back as the condition it was printed for. What is printed is typed from atoms that
    are found again in it, its brackets match, and between two connectives stands one operand (`Prints`), so every
    part of a compound is read on its own and the compound is read from its parts. -/

namespace SearchQuery

open SearchQuery.Bracket (IsOpen IsClose Unbracketed)
open Condition (Canonical Every Reduced)
open Skeleton (direct)

/-! ### Typing -/

namespace Atom

/-- The atom can be typed and is read as it was typed. -/
def Stays (a : Atom) : Prop := Phrase.Typable a ∧ a.Has (· ≠ '”') ∧ a.normalize = a

end Atom

/-- Atoms that are found in what they are typed as are those of the query, with spaces beside its phrases, if bringing
    its symbols into ASCII leaves them as they are. -/
theorem Layer.atoms_text {as : List Atom} (h : ∀ a ∈ as, a.Has (· ≠ '”') ∧ a.normalize = a)
    (hscan : Phrase.scan (Atom.text as) = as) : atoms (Atom.text as) = Atom.pad as := by
  have hquote : ∀ c ∈ Atom.text as, c ≠ '”' := Atom.mem_text (by simp) (by simp) fun a ha => (h a ha).1
  have hsymbols : ∀ a ∈ Atom.pad as, a.normalize = a :=
    Atom.forall_mem_pad (p := fun a => a.normalize = a) rfl fun a ha => (h a ha).2
  rw [atoms, Text.normalizeQuotes_eq_self hquote, hscan]
  exact (List.map_congr_left hsymbols).trans (List.map_id _)

/-- The text is typed from the atoms, which are found in it again and read as the nest, with no bracket left over. -/
structure Prints (s : Text) (as : List Atom) (ns : Nest) : Prop where
  text : Atom.text as = s
  stays : ∀ a ∈ as, a.Stays
  undashed : Phrase.Undashed as
  closes : Nest.Closes (Atom.pad as) ns
  unbracketed : ns.Each Unbracketed

namespace Prints

variable {s t : Text} {as bs : List Atom} {ms ns : Nest}

theorem atoms_eq (h : Prints s as ns) : Layer.atoms s = Atom.pad as := by
  rw [← h.text]
  exact Layer.atoms_text (fun a ha => (h.stays a ha).2)
    (Phrase.scan_text (fun a ha => (h.stays a ha).1) h.undashed)

/-- A printed text is read as its nest, whatever the settings. -/
theorem parse_eq (h : Prints s as ns) (settings : Settings) : Query.parse settings s = .ok (direct ns.nodes) :=
  Query.parse_of_closes settings h.atoms_eq h.closes h.unbracketed

theorem nil : Prints [] [] .nil := ⟨rfl, by simp, .nil, .nil, trivial⟩

/-- One text after another: at the seam, no dash may come to stand before a phrase. -/
theorem append (h : Prints s as ms) (h' : Prints t bs ns)
    (hseam : as.getLast? ≠ some (.char '-') ∨ ∀ words, bs.head? ≠ some (.phrase false words)) :
    Prints (s ++ t) (as ++ bs) (ms ++ ns) := by
  refine ⟨by rw [Atom.text_append, h.text, h'.text], fun a ha => ?_, ?_, ?_, h.unbracketed.append h'.unbracketed⟩
  · rcases List.mem_append.mp ha with ha | ha
    · exact h.stays a ha
    · exact h'.stays a ha
  · refine List.isChain_append.mpr ⟨h.undashed, h'.undashed, fun a ha b hb hdash words hphrase => ?_⟩
    subst hdash hphrase
    rcases hseam with hseam | hseam
    · exact hseam ha
    · exact hseam words hb
  · rw [Atom.pad_append]
    exact h.closes.append h'.closes

/-- Characters that are neither quotes nor brackets. -/
theorem chars (h : ∀ c ∈ s, (c ≠ '"' ∧ c ≠ '”' ∧ Phrase.isMark c = false) ∧ ¬IsOpen c ∧ ¬IsClose c ∧ c ≠ '\u3000') :
    Prints s (s.map .char) (.ofAtoms (s.map .char)) := by
  have hsymbol : ∀ c ∈ s, Text.normalizeSymbol c = c := fun c hc => by
    obtain ⟨-, hopen, hclose, hspace⟩ := h c hc
    exact Text.normalizeSymbol_eq_self (fun hc => hopen (Or.inr hc)) (fun hc => hclose (Or.inr hc)) hspace
  have hbracket : ∀ a ∈ s.map Atom.char, Nest.isBracket a = false := fun a ha => by
    obtain ⟨c, hc, rfl⟩ := List.mem_map.mp ha
    obtain ⟨-, hopen, hclose, -⟩ := h c hc
    rw [← hsymbol c hc]
    exact Bracket.isBracket_normalizeSymbol hopen hclose
  refine ⟨Atom.text_map_char s, fun a ha => ?_, Phrase.undashed_map_char s, ?_, Nest.each_ofAtoms hbracket⟩
  · obtain ⟨c, hc, rfl⟩ := List.mem_map.mp ha
    obtain ⟨⟨hquote, hclosing, hmark⟩, -⟩ := h c hc
    exact ⟨⟨hquote, hmark⟩, hclosing, congrArg Atom.char (hsymbol c hc)⟩
  · rw [Atom.pad_map_char]
    exact .ofAtoms hbracket

theorem bracketed (h : Prints s as ns) :
    Prints (Query.bracketed s) (.char '(' :: (as ++ [.char ')'])) (Nest.closed ns) := by
  have hopen : Atom.Stays (.char '(') := ⟨⟨by decide, rfl⟩, show '(' ≠ '”' by decide, rfl⟩
  have hclose : Atom.Stays (.char ')') := ⟨⟨by decide, rfl⟩, show ')' ≠ '”' by decide, rfl⟩
  refine ⟨?_, fun a ha => ?_, ?_, ?_, h.unbracketed.closed⟩
  · rw [Atom.text_cons, Atom.text_append, h.text]
    rfl
  · rcases List.mem_cons.mp ha with rfl | ha
    · exact hopen
    · rcases List.mem_append.mp ha with ha | ha
      · exact h.stays a ha
      · exact List.mem_singleton.mp ha ▸ hclose
  · refine List.isChain_cons.mpr ⟨fun b _ hdash => absurd hdash (by decide), ?_⟩
    refine List.isChain_append.mpr ⟨h.undashed, List.isChain_singleton _, fun a _ b hb _ words hphrase => ?_⟩
    subst hphrase
    cases hb
  · rw [Atom.pad_cons, Atom.pad_append]
    exact h.closes.pair

end Prints

/-! ### Texts that ask for a condition -/

/-- The text, printed, asks for the condition. -/
def Asks (s : Text) (c : ClosedCondition) : Prop := ∃ as ns, Prints s as ns ∧ direct ns.nodes = c

/-- The text, printed, asks for the condition also where it stands between connectives. -/
def AsksAlone (s : Text) (c : ClosedCondition) : Prop := ∃ as, ∃ o : Operand, Prints s as o.nest ∧ o.Means c

variable {s : Text} {c : ClosedCondition}

theorem Asks.parse_eq (h : Asks s c) (settings : Settings) : Query.parse settings s = .ok c := by
  obtain ⟨as, ns, hprints, rfl⟩ := h
  exact hprints.parse_eq settings

theorem AsksAlone.asks (h : AsksAlone s c) : Asks s c := by
  obtain ⟨as, o, hprints, hmeans⟩ := h
  exact ⟨as, o.nest, hprints, Operand.direct_nest hmeans⟩

namespace Asks

theorem exists_prints_pair (h : Asks s c) (hc : c.isBlank = false) :
    ∃ as inside, Prints (Query.bracketed s) (.char '(' :: as) (.pair inside .nil) ∧ direct inside.nodes = c := by
  obtain ⟨as, ns, hprints, rfl⟩ := h
  have hblank : ns.isBlank = false := by
    rw [Bool.eq_false_iff]
    intro hblank
    rw [Query.direct_of_isBlank hblank] at hc
    cases hc
  have hbracketed := hprints.bracketed
  rw [Nest.closed_of_not_isBlank hblank] at hbracketed
  exact ⟨_, ns, hbracketed, rfl⟩

theorem bracketed (h : Asks s c) (hc : c.isBlank = false) : AsksAlone (Query.bracketed s) c := by
  obtain ⟨as, inside, hprints, rfl⟩ := h.exists_prints_pair hc
  exact ⟨_, .group false inside, hprints, .group inside⟩

theorem negated (h : Asks s c) (hc : c.isBlank = false) :
    AsksAlone (Query.negated s) (Condition.simplify (.negation c)) := by
  obtain ⟨as, inside, hprints, rfl⟩ := h.exists_prints_pair hc
  have hdash : Prints ['-'] [.char '-'] (.atom (.char '-') .nil) :=
    .chars (List.all_iff_forall_prop.mp (by decide : ['-'].all _ = true))
  exact ⟨_, .group true inside, hdash.append hprints (Or.inr fun words => by simp), .negated inside⟩

end Asks

theorem prints_separator (op : Connective) :
    Prints (separator op) ((separator op).map .char) (.ofAtoms ((separator op).map .char)) :=
  .chars (List.all_iff_forall_prop.mp (by cases op <;> decide))

theorem exists_prints_joined (op : Connective) {texts : List Text} {cs : List ClosedCondition}
    (h : List.Forall₂ AsksAlone texts cs) :
    ∃ as os, Prints (Text.joinWith (separator op) texts) as (Operand.joined op os) ∧
      List.Forall₂ Operand.Means os cs := by
  induction h with
  | nil => exact ⟨[], [], .nil, .nil⟩
  | @cons t c texts cs ht h ih =>
    obtain ⟨as, o, hprints, hmeans⟩ := ht
    obtain ⟨bs, os, hlater, hmeansLater⟩ := ih
    cases h with
    | nil =>
      cases hmeansLater
      refine ⟨as, [o], ?_, .cons hmeans .nil⟩
      have hsingle : Text.joinWith (separator op) [t] = t := by simp [Text.joinWith]
      rw [Operand.joined, Operand.trail, Nest.append_nil, hsingle]
      exact hprints
    | cons =>
      cases hmeansLater with
      | @cons p _ os _ hp hos =>
        have hconnective : Prints _ _ _ := (prints_separator op).append hlater
          (Or.inl (by rw [separator, List.map_append, List.map_singleton, List.getLast?_concat]; simp))
        have hall := hprints.append hconnective (Or.inr fun words => by simp [separator])
        rw [Text.joinWith_cons (List.cons_ne_nil _ _)]
        exact ⟨_, o :: p :: os, hall, .cons hmeans (.cons hp hos)⟩

/-- Texts joined by a connective ask for their conditions, joined by it. -/
theorem asks_joinWith (op : Connective) {texts : List Text} {cs : List ClosedCondition}
    (h : List.Forall₂ AsksAlone texts cs) :
    Asks (Text.joinWith (separator op) texts) (Condition.simplify (.compound op cs)) := by
  obtain ⟨as, os, hprints, hmeans⟩ := exists_prints_joined op h
  exact ⟨as, _, hprints, Operand.direct_joined hmeans⟩

/-! ### Terms and phrases -/

/-- The term can be typed as a word: it holds no blank, quote, bracket or mark of a placeholder, does not start with
    a dash and spells no connective. -/
structure TypableTerm (t : Text) : Prop where
  nonempty : t ≠ []
  plain : ∀ c ∈ t, isBlank c = false ∧ c ≠ '"' ∧ c ≠ '”' ∧ ¬IsOpen c ∧ ¬IsClose c ∧ Phrase.isMark c = false
  undashed : t.head? ≠ some '-'
  unspelled : ∀ op : Connective, op.spells t = false

/-- The words can be typed in quotes: they are not blank, hold no quote and no mark of a placeholder, and do not end
    with a dash. -/
structure TypableWords (words : Text) : Prop where
  notBlank : words.notBlank = true
  plain : ∀ c ∈ words, c ≠ '"' ∧ c ≠ '”' ∧ Phrase.isMark c = false
  undashed : words.getLast? ≠ some '-'

/-- A text without blanks is one word. -/
theorem asksAlone_word (hne : s ≠ [])
    (hplain : ∀ c ∈ s, isBlank c = false ∧ c ≠ '"' ∧ c ≠ '”' ∧ ¬IsOpen c ∧ ¬IsClose c ∧ Phrase.isMark c = false)
    (hc : (Word.term s).condition? = some c) (hreduced : c.Reduced) : AsksAlone s c := by
  have hprints : Prints s (s.map .char) (.ofAtoms (s.map .char)) := .chars fun c hc => by
    obtain ⟨hblank, hquote, hclosing, hopen, hclose, hmark⟩ := hplain c hc
    refine ⟨⟨hquote, hclosing, hmark⟩, hopen, hclose, ?_⟩
    rintro rfl
    exact absurd hblank (by decide)
  have htypable : ∀ a ∈ s.map Atom.char, Phrase.Typable a := fun a ha => (hprints.stays a ha).1
  have hwords : Atom.words (s.map .char) = [.term s] := by
    rw [Atom.words_map_char, Text.words_word hne fun c hc => (hplain c hc).1]
    rfl
  exact ⟨_, .word (s.map .char), hprints, .word htypable hwords hc hreduced⟩

theorem TypableTerm.notBlank {t : Text} (h : TypableTerm t) : t.notBlank = true := by
  obtain ⟨c, hc⟩ := List.exists_mem_of_ne_nil t h.nonempty
  exact Text.notBlank_of_mem hc (h.plain c hc).1

theorem asksAlone_keyword {t : Text} (h : TypableTerm t) : AsksAlone t (.keyword t) :=
  asksAlone_word h.nonempty h.plain (Word.condition?_of_plain h.unspelled h.undashed)
    (Canonical.keyword h.notBlank).reduced

theorem spells_dash (op : Connective) (t : Text) : op.spells ('-' :: t) = false := by
  cases op <;> rfl

theorem asksAlone_negated_keyword {t : Text} (h : TypableTerm t) : AsksAlone ('-' :: t) (.negation (.keyword t)) := by
  refine asksAlone_word (List.cons_ne_nil _ _) (fun c hc => ?_) ?_
    (Canonical.negation (.keyword h.notBlank) rfl).reduced
  · rcases List.mem_cons.mp hc with rfl | hc
    · decide
    · exact h.plain c hc
  · obtain ⟨c, t, rfl⟩ := List.exists_cons_of_ne_nil h.nonempty
    simp [Word.condition?, spells_dash]

theorem stays_phrase {words : Text} (h : TypableWords words) (negated : Bool) : (Atom.phrase negated words).Stays :=
  ⟨⟨h.notBlank, fun c hc => ⟨(h.plain c hc).1, (h.plain c hc).2.2⟩, h.undashed⟩, fun c hc => (h.plain c hc).2.1, rfl⟩

theorem asksAlone_typed {words : Text} (h : TypableWords words) (negated : Bool)
    (hc : (Word.phrase negated words).condition? = some c) (hreduced : c.Reduced) :
    AsksAlone (Atom.phrase negated words).typed c := by
  have hstays := stays_phrase h negated
  have hbracket : ∀ a ∈ Atom.pad [.phrase negated words], Nest.isBracket a = false := by
    simp [Atom.spaced, Nest.isBracket]
  have hprints : Prints (Atom.phrase negated words).typed [.phrase negated words]
      (.ofAtoms (Atom.pad [.phrase negated words])) :=
    ⟨List.append_nil _, by simpa using hstays, List.isChain_singleton _, .ofAtoms hbracket, Nest.each_ofAtoms hbracket⟩
  have htypable : ∀ a ∈ [Atom.phrase negated words], Phrase.Typable a := by simpa using hstays.1
  exact ⟨_, .word _, hprints, .word (Phrase.typable_of_mem_pad htypable) (Atom.words_pad _) hc hreduced⟩

theorem asksAlone_phrase {words : Text} (h : TypableWords words) :
    AsksAlone ('"' :: words ++ ['"']) (.phrase words) :=
  asksAlone_typed h false rfl (Canonical.phrase h.notBlank).reduced

theorem asksAlone_negated_phrase {words : Text} (h : TypableWords words) :
    AsksAlone ('-' :: '"' :: words ++ ['"']) (.negation (.phrase words)) :=
  asksAlone_typed h true rfl (Canonical.negation (.phrase h.notBlank) rfl).reduced

/-! ### Canonical query text -/

namespace Condition

@[simp] theorem queryText_blank : queryText .blank = [] := by
  rw [queryText, queryText?]
  rfl

@[simp] theorem queryText_keyword (term : Text) : queryText (.keyword term) = term := by
  rw [queryText, queryText?]
  rfl

@[simp] theorem queryText_phrase (words : Text) : queryText (.phrase words) = '"' :: words ++ ['"'] := by
  rw [queryText, queryText?]
  rfl

@[simp] theorem queryText_negation (c : ClosedCondition) :
    queryText (.negation c) = '-' :: bracketIf c.isCompound c.queryText := by
  rw [queryText, queryText?, ok_certain (queryText? c)]
  rfl

theorem partTexts?_eq (op : Connective) (parts : List ClosedCondition) :
    partTexts? op parts = .ok (parts.map fun c => bracketIf (c.isOtherCompound op) c.queryText) := by
  induction parts with
  | nil => rw [partTexts?]; rfl
  | cons c cs ih =>
    rw [partTexts?, ok_certain (queryText? c), ih]
    rfl

@[simp] theorem queryText_compound (op : Connective) (parts : List ClosedCondition) :
    queryText (.compound op parts) =
      Text.joinWith (separator op) (parts.map fun c => bracketIf (c.isOtherCompound op) c.queryText) := by
  rw [queryText, queryText?, partTexts?_eq]
  rfl

theorem isOtherCompound_eq {op : Connective} {c : ClosedCondition} (h : c.isJoined op = false) :
    c.isOtherCompound op = c.isCompound := by
  cases c with
  | compound op' parts => simpa [isJoined, isOtherCompound, isCompound] using h
  | _ => rfl

variable {c : ClosedCondition} {op : Connective} {parts : List ClosedCondition}

theorem Canonical.asksAlone_negation (h : Canonical c) (hneg : c.isNegation = false)
    (hleaves : c.Every TypableTerm TypableWords) (hasks : Asks c.queryText c) :
    AsksAlone (queryText (.negation c)) (.negation c) := by
  have hsimplify := (Canonical.negation h hneg).simplify
  rw [queryText_negation]
  cases h with
  | keyword =>
    rw [queryText_keyword]
    exact asksAlone_negated_keyword hleaves.of_keyword
  | phrase =>
    rw [queryText_phrase]
    exact asksAlone_negated_phrase hleaves.of_phrase
  | negation => cases hneg
  | compound =>
    rw [← hsimplify]
    exact hasks.negated rfl

/-- The text of a part asks for it alone, brackets or not. -/
theorem Canonical.asksAlone_part (h : Canonical c) (hop : c.isJoined op = false) (hasks : Asks c.queryText c)
    (halone : c.isCompound = false → AsksAlone c.queryText c) :
    AsksAlone (bracketIf (c.isOtherCompound op) c.queryText) c := by
  rw [isOtherCompound_eq hop, bracketIf]
  split
  · exact hasks.bracketed h.isBlank
  · next hcompound => exact halone (by simpa using hcompound)

/-- The printed text of a canonical condition asks for it, and if the condition is no compound, also between
    connectives. -/
theorem Canonical.asks_queryText (h : Canonical c) (hleaves : c.Every TypableTerm TypableWords) :
    Asks c.queryText c ∧ (c.isCompound = false → AsksAlone c.queryText c) := by
  induction h with
  | @keyword term _ =>
    have halone : AsksAlone (queryText (.keyword term)) (.keyword term) := by
      rw [queryText_keyword]
      exact asksAlone_keyword hleaves.of_keyword
    exact ⟨halone.asks, fun _ => halone⟩
  | @phrase words _ =>
    have halone : AsksAlone (queryText (.phrase words)) (.phrase words) := by
      rw [queryText_phrase]
      exact asksAlone_phrase hleaves.of_phrase
    exact ⟨halone.asks, fun _ => halone⟩
  | @negation c h hneg ih =>
    have halone := h.asksAlone_negation hneg hleaves.of_negation (ih hleaves.of_negation).1
    exact ⟨halone.asks, fun _ => halone⟩
  | @compound op parts hlen h hop ih =>
    -- A part that is a compound is joined the other way, and so it stands in brackets.
    have hparts : List.Forall₂ AsksAlone (parts.map fun c => bracketIf (c.isOtherCompound op) c.queryText) parts := by
      rw [List.forall₂_map_left_iff, List.forall₂_same]
      intro c hc
      obtain ⟨hasks, halone⟩ := ih c hc (hleaves.of_compound c hc)
      exact (h c hc).asksAlone_part (hop c hc) hasks halone
    have hjoined := asks_joinWith op hparts
    rw [(Canonical.compound hlen h hop).simplify, ← queryText_compound] at hjoined
    exact ⟨hjoined, fun hcompound => by cases hcompound⟩

end Condition

/-- What is printed for a condition that is blank or canonical, and whose leaves can be typed, is read back as the
    condition, whatever the settings. -/
theorem Query.parse_queryText (settings : Settings) {c : ClosedCondition} (hc : c.Reduced)
    (hleaves : c.Every TypableTerm TypableWords) : parse settings c.queryText = .ok c := by
  rcases hc with rfl | hc
  · rw [Condition.queryText_blank, parse_of_matched settings (by decide) .nil]
    exact congrArg Except.ok (direct_of_isBlank rfl)
  · exact (hc.asks_queryText hleaves).1.parse_eq settings

/-- A negated compound of a phrase and a term. -/
theorem Query.parse_queryText_negation :
    parse {} "-(\"b c\" OR d)".toList = .ok (.negation (.compound .or [.phrase ['b', ' ', 'c'], .keyword ['d']])) := by
  have hwords : TypableWords ['b', ' ', 'c'] := ⟨by decide, List.all_iff_forall_prop.mp (by decide), by decide⟩
  have hterm : TypableTerm ['d'] :=
    ⟨by decide, List.all_iff_forall_prop.mp (by decide), by decide, fun op => by cases op <;> decide⟩
  have hparts : Canonical (.compound .or [.phrase ['b', ' ', 'c'], .keyword ['d']]) :=
    .compound (by decide) (by simpa using ⟨.phrase hwords.notBlank, .keyword hterm.notBlank⟩)
      (by simp [Condition.isJoined])
  have hleaves : Every TypableTerm TypableWords (.compound .or [.phrase ['b', ' ', 'c'], .keyword ['d']]) :=
    .compound (by simpa using ⟨.phrase hwords, .keyword hterm⟩)
  have hparse := parse_queryText {} (Canonical.negation hparts rfl).reduced hleaves.negation
  simpa [Condition.bracketIf, Condition.isCompound, Condition.isOtherCompound, Text.joinWith, separator,
    Connective.word] using hparse

end SearchQuery
