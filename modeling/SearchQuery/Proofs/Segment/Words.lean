import SearchQuery.Segment.Basic
import SearchQuery.Proofs.Phrase.Extraction
import SearchQuery.Proofs.Segment.Ends

/-! The words of a segment: runs of characters and phrases. A text in which placeholders stand for the phrases
    has the same words, each placeholder a word of its own (`Phrase.Reads.forall₂_words`), and a word is given
    its condition whether it is looked at in the text or among the atoms. -/

namespace SearchQuery

/-- A word of a segment: a run of characters, or a phrase. -/
inductive Word where
  | term (t : Text)
  | phrase (negated : Bool) (words : Text)
deriving Repr, DecidableEq

namespace Word

/-- The word is a spelling of a connective. -/
def spells (op : Connective) : Word → Bool
  | .term t => op.spells t
  | .phrase .. => false

/-- What a word asks for, if it does not connect. A word of one character is a term whatever it is. -/
def condition? : Word → Option ClosedCondition
  | .phrase negated words => some (if negated then .negation (.phrase words) else .phrase words)
  | .term [c] => some (.keyword [c])
  | .term t =>
    if Connective.and.spells t || Connective.or.spells t then none
    else
      match t with
      | '-' :: t => some (.negation (.keyword t))
      | t => some (.keyword t)

theorem condition?_of_spells {op : Connective} {w : Word} (h : w.spells op = true) : w.condition? = none := by
  cases w with
  | phrase => cases h
  | term t =>
    have hlen : t.length = op.letters.length := by
      rw [spells, Connective.spells, beq_iff_eq] at h
      exact Connective.length_of_afterLetters? h
    match t with
    | [] => cases op <;> cases hlen
    | [c] => cases op <;> cases hlen
    | c :: d :: t =>
      have hconnects : (Connective.and.spells (c :: d :: t) || Connective.or.spells (c :: d :: t)) = true := by
        cases op with
        | and => rw [show Connective.and.spells (c :: d :: t) = true from h, Bool.true_or]
        | or => rw [show Connective.or.spells (c :: d :: t) = true from h, Bool.or_true]
      exact if_pos hconnects

/-- A term that neither connects nor starts with a dash asks for itself. -/
theorem condition?_of_plain {t : Text} (hconnects : ∀ op : Connective, op.spells t = false)
    (hdash : t.head? ≠ some '-') : (Word.term t).condition? = some (.keyword t) := by
  match t with
  | [] => rfl
  | [c] => rfl
  | c :: d :: t =>
    simp only [condition?, hconnects, Bool.or_self, Bool.false_eq_true, ite_false]
    split
    · next heq => exact absurd (congrArg List.head? heq) hdash
    · rfl

theorem mem_condition?_of_term {t : Text} {c : ClosedCondition} (h : (Word.term t).condition? = some c) :
    c = .keyword t ∨ ∃ u, t = '-' :: u ∧ c = .negation (.keyword u) := by
  match t with
  | [] =>
    cases h
    exact Or.inl rfl
  | [d] =>
    cases h
    exact Or.inl rfl
  | d :: e :: t =>
    simp only [condition?] at h
    split at h
    · cases h
    · split at h
      · next u heq =>
        cases h
        exact Or.inr ⟨u, heq, rfl⟩
      · cases h
        exact Or.inl rfl

end Word

namespace Atom

/-- A word before others, unless it is empty. -/
def beforeWords (t : Text) (later : List Word) : List Word :=
  if t.isEmpty then later else .term t :: later

/-- The term that atoms start with, empty if they start with a blank or a phrase, and the words that
    follow it. -/
def wordsFrom : List Atom → Text × List Word
  | [] => ([], [])
  | .char c :: as =>
    let (t, later) := wordsFrom as
    if isBlank c then ([], beforeWords t later) else (c :: t, later)
  | .phrase negated words :: as =>
    let (t, later) := wordsFrom as
    ([], .phrase negated words :: beforeWords t later)

/-- The words of atoms: the longest runs of characters that are not blank, and the phrases. -/
def words (as : List Atom) : List Word :=
  let (t, later) := wordsFrom as
  beforeWords t later

theorem words_eq (as : List Atom) :
    words as = if (wordsFrom as).1.isEmpty then (wordsFrom as).2 else .term (wordsFrom as).1 :: (wordsFrom as).2 := rfl

theorem wordsFrom_char (c : Char) (as : List Atom) :
    wordsFrom (.char c :: as) =
      if SearchQuery.isBlank c then ([], words as) else (c :: (wordsFrom as).1, (wordsFrom as).2) := rfl

theorem wordsFrom_phrase (negated : Bool) (w : Text) (as : List Atom) :
    wordsFrom (.phrase negated w :: as) = ([], .phrase negated w :: words as) := rfl

theorem wordsFrom_map_char (s : Text) :
    wordsFrom (s.map .char) = ((Text.wordsFrom s).1, (Text.wordsFrom s).2.map .term) := by
  induction s with
  | nil => rfl
  | cons c s ih =>
    have hwords : words (s.map .char) = (Text.words s).map .term := by
      rw [words_eq, ih, Text.words_eq]
      split <;> rfl
    rw [List.map_cons, wordsFrom_char, Text.wordsFrom_cons, ih, hwords]
    split <;> rfl

theorem words_map_char (s : Text) : words (s.map .char) = (Text.words s).map .term := by
  rw [words_eq, wordsFrom_map_char, Text.words_eq]
  split <;> rfl

theorem wordsFrom_append_blank {c : Char} (hc : SearchQuery.isBlank c = true) (as bs : List Atom) :
    wordsFrom (as ++ .char c :: bs) = ((wordsFrom as).1, (wordsFrom as).2 ++ words bs) := by
  induction as with
  | nil => rw [List.nil_append, wordsFrom_char, if_pos hc]; rfl
  | cons a as ih =>
    have hwords : words (as ++ .char c :: bs) = words as ++ words bs := by
      rw [words_eq, ih, words_eq as]
      split <;> rfl
    cases a with
    | char d =>
      rw [List.cons_append, wordsFrom_char, wordsFrom_char, ih, hwords]
      split <;> rfl
    | phrase negated w => rw [List.cons_append, wordsFrom_phrase, wordsFrom_phrase, hwords]; rfl

/-- A blank separates words. -/
theorem words_append_blank {c : Char} (hc : SearchQuery.isBlank c = true) (as bs : List Atom) :
    words (as ++ .char c :: bs) = words as ++ words bs := by
  rw [words_eq, wordsFrom_append_blank hc, words_eq as]
  split <;> rfl

theorem words_cons_blank {c : Char} (hc : SearchQuery.isBlank c = true) (as : List Atom) :
    words (.char c :: as) = words as := words_append_blank hc [] as

theorem words_phrase (negated : Bool) (w : Text) (as : List Atom) :
    words (.phrase negated w :: as) = .phrase negated w :: words as := rfl

/-- The spaces beside a phrase separate nothing that was not separate. -/
theorem wordsFrom_pad (as : List Atom) : wordsFrom (pad as) = wordsFrom as := by
  induction as with
  | nil => rfl
  | cons a as ih =>
    have hwords : words (pad as) = words as := by
      rw [words_eq, ih, words_eq]
    cases a with
    | char c =>
      rw [pad_cons, spaced, List.singleton_append, wordsFrom_char, wordsFrom_char, ih, hwords]
    | phrase negated w =>
      rw [pad_cons, spaced, List.cons_append, List.cons_append, List.cons_append, List.nil_append, wordsFrom_char,
        if_pos Text.isBlank_space, words_phrase, words_cons_blank Text.isBlank_space, hwords, wordsFrom_phrase]

theorem words_pad (as : List Atom) : words (pad as) = words as := by
  rw [words_eq, wordsFrom_pad, words_eq]

theorem notBlank_text_eq (as : List Atom) :
    (text as).notBlank = (!(wordsFrom as).1.isEmpty || !(wordsFrom as).2.isEmpty) := by
  induction as with
  | nil => rfl
  | cons a as ih =>
    have hwords : (!(words as).isEmpty) = (text as).notBlank := by
      rw [ih, words_eq]
      cases (wordsFrom as).1 <;> rfl
    cases a with
    | char c =>
      rw [text_cons, Text.notBlank_append, wordsFrom_char]
      split
      · next hc =>
        rw [hwords]
        simp [typed, Text.notBlank, hc]
      · next hc => simp [typed, Text.notBlank, hc]
    | phrase negated w =>
      rw [text_cons, Text.notBlank_append, wordsFrom_phrase,
        Text.notBlank_of_mem (c := '"') (by cases negated <;> simp [typed]) (by decide)]
      rfl

/-- Atoms are typed as blanks exactly when there is no word among them. -/
theorem notBlank_text (as : List Atom) : (text as).notBlank = !(words as).isEmpty := by
  rw [notBlank_text_eq, words_eq]
  cases (wordsFrom as).1 <;> rfl

/-- The word is made of the atoms. -/
def IsFrom (as : List Atom) : Word → Prop
  | .term t => ∀ c ∈ t, SearchQuery.isBlank c = false ∧ .char c ∈ as
  | .phrase negated words => .phrase negated words ∈ as

theorem IsFrom.cons {as : List Atom} {w : Word} (h : IsFrom as w) (a : Atom) : IsFrom (a :: as) w := by
  cases w with
  | term t => exact fun c hc => ⟨(h c hc).1, List.mem_cons_of_mem a (h c hc).2⟩
  | phrase negated words => exact List.mem_cons_of_mem a h

theorem isFrom_wordsFrom (as : List Atom) :
    IsFrom as (.term (wordsFrom as).1) ∧ ∀ w ∈ (wordsFrom as).2, IsFrom as w := by
  induction as with
  | nil =>
    refine ⟨fun c hc => ?_, fun w hw => ?_⟩
    · cases hc
    · cases hw
  | cons a as ih =>
    have hlater : ∀ w ∈ words as, IsFrom (a :: as) w := by
      intro w hw
      rw [words_eq] at hw
      split at hw
      · exact (ih.2 w hw).cons a
      · rcases List.mem_cons.mp hw with rfl | hw
        · exact ih.1.cons a
        · exact (ih.2 w hw).cons a
    cases a with
    | char c =>
      rw [wordsFrom_char]
      split
      · exact ⟨fun c hc => (by cases hc), hlater⟩
      · next hc =>
        refine ⟨fun d hd => ?_, fun w hw => (ih.2 w hw).cons _⟩
        rcases List.mem_cons.mp hd with rfl | hd
        · exact ⟨by simpa using hc, List.mem_cons_self⟩
        · exact ih.1.cons _ d hd
    | phrase negated words =>
      rw [wordsFrom_phrase]
      refine ⟨fun c hc => (by cases hc), fun w hw => ?_⟩
      rcases List.mem_cons.mp hw with rfl | hw
      · exact List.mem_cons_self
      · exact hlater w hw

theorem isFrom_of_mem_words {as : List Atom} : ∀ w ∈ words as, IsFrom as w := by
  intro w hw
  rw [words_eq] at hw
  split at hw
  · exact (isFrom_wordsFrom as).2 w hw
  · rcases List.mem_cons.mp hw with rfl | hw
    · exact (isFrom_wordsFrom as).1
    · exact (isFrom_wordsFrom as).2 w hw

/-- The atom is a blank, or is typed with a space on either side. -/
def isBlank : Atom → Bool
  | .char c => SearchQuery.isBlank c
  | .phrase .. => true

end Atom

namespace Phrase

/-- The text is the word, with a placeholder for a phrase. -/
inductive Names (tables : Tables) : Text → Word → Prop where
  | term {t : Text} (ht : ∀ c ∈ t, isMark c = false) : Names tables t (.term t)
  | phrase {negated : Bool} {n : Nat} {words : Text}
      (hw : tables.find (tagOf negated) (Numeral.ofNat n) = .ok words) :
      Names tables (placeholder (tagOf negated) n) (.phrase negated words)

namespace Reads

variable {tables : Tables} {s : Text} {as : List Atom}

theorem forall₂_words_of_wordsFrom (hfirst : (Text.wordsFrom s).1 = (Atom.wordsFrom as).1)
    (hmark : ∀ c ∈ (Atom.wordsFrom as).1, isMark c = false)
    (hlater : List.Forall₂ (Names tables) (Text.wordsFrom s).2 (Atom.wordsFrom as).2) :
    List.Forall₂ (Names tables) (Text.words s) (Atom.words as) := by
  rw [Text.words_eq, Atom.words_eq, ← hfirst]
  rw [← hfirst] at hmark
  split
  · exact hlater
  · exact .cons (.term hmark) hlater

theorem wordsFrom_eq (h : Reads tables s (Atom.pad as)) :
    (Text.wordsFrom s).1 = (Atom.wordsFrom as).1 ∧ (∀ c ∈ (Atom.wordsFrom as).1, isMark c = false) ∧
      List.Forall₂ (Names tables) (Text.wordsFrom s).2 (Atom.wordsFrom as).2 := by
  induction as generalizing s with
  | nil =>
    cases h
    exact ⟨rfl, by simp [Atom.wordsFrom], .nil⟩
  | cons a as ih =>
    have hlater : ∀ {t : Text}, Reads tables t (Atom.pad as) →
        List.Forall₂ (Names tables) (Text.words t) (Atom.words as) := fun ht => by
      obtain ⟨hfirst, hmark, hwords⟩ := ih ht
      exact forall₂_words_of_wordsFrom hfirst hmark hwords
    rw [Atom.pad_cons] at h
    cases a with
    | char c =>
      cases h with
      | @char _ s _ hc h =>
        obtain ⟨hfirst, hmark, hwords⟩ := ih h
        rw [Text.wordsFrom_cons, Atom.wordsFrom_char]
        split
        · exact ⟨rfl, by simp, hlater h⟩
        · refine ⟨by rw [hfirst], fun d hd => ?_, hwords⟩
          rcases List.mem_cons.mp hd with rfl | hd
          · exact hc
          · exact hmark d hd
    | phrase negated words =>
      cases h with
      | char _ h =>
        cases h with
        | @phrase _ n _ _ _ hw h =>
          cases h with
          | @char _ s _ _ h =>
            have hplaceholder : ∀ c ∈ placeholder (tagOf negated) n, isBlank c = false :=
              forall_mem_placeholder (by decide)
            rw [Text.wordsFrom_cons, if_pos Text.isBlank_space, Atom.wordsFrom_phrase,
              Text.words_word_append (by simp [placeholder]) hplaceholder (Text.atBlank_space s),
              Text.words_cons_space]
            exact ⟨rfl, by simp, .cons (.phrase hw) (hlater h)⟩

/-- A text with placeholders has the words of its atoms. -/
theorem forall₂_words (h : Reads tables s (Atom.pad as)) :
    List.Forall₂ (Names tables) (Text.words s) (Atom.words as) := by
  obtain ⟨hfirst, hmark, hwords⟩ := h.wordsFrom_eq
  exact forall₂_words_of_wordsFrom hfirst hmark hwords

/-! ### Blanks at the ends -/

theorem startsBlank_eq (h : Reads tables s (Atom.pad as)) : Text.startsBlank s = as.head?.any Atom.isBlank := by
  cases as with
  | nil =>
    cases h
    rfl
  | cons a as =>
    cases a with
    | char c =>
      cases h
      rfl
    | phrase negated words =>
      cases h
      rfl

theorem endsBlank_eq (h : Reads tables s (Atom.pad as)) : Text.endsBlank s = as.getLast?.any Atom.isBlank := by
  rcases List.eq_nil_or_concat as with rfl | ⟨as, a, rfl⟩
  · cases h
    rfl
  · rw [List.concat_eq_append, Atom.pad_append] at h
    obtain ⟨x, y, rfl, -, hy⟩ := h.of_append
    rw [List.concat_eq_append, List.getLast?_concat]
    cases a with
    | char c =>
      cases hy with
      | char _ hy =>
        cases hy
        rw [Text.endsBlank, List.getLast?_concat]
        rfl
    | phrase negated words =>
      cases hy with
      | char _ hy =>
        cases hy with
        | phrase _ hy =>
          cases hy with
          | char _ hy =>
            cases hy
            rw [← List.cons_append, ← List.append_assoc, Text.endsBlank, List.getLast?_concat]
            rfl

end Reads

/-! ### The conditions of words -/

namespace Names

variable {tables : Tables} {t : Text} {w : Word}

theorem spells_eq (h : Names tables t w) (op : Connective) : op.spells t = w.spells op := by
  cases h with
  | term => rfl
  | phrase => cases op <;> rfl

theorem condition?_of_no_mark (ht : ∀ c ∈ t, isMark c = false) : Phrase.condition? tables t = .ok none := by
  have hnone : placeholderPattern.read t = none := by
    cases t with
    | nil => rfl
    | cons c t => exact read_of_ne_openMark (ne_openMark (ht c List.mem_cons_self)) t
  rw [Phrase.condition?, hnone]

theorem condition?_placeholder {negated : Bool} {n : Nat} {words : Text}
    (hw : tables.find (tagOf negated) (Numeral.ofNat n) = .ok words) :
    Phrase.condition? tables (placeholder (tagOf negated) n) = .ok (Word.phrase negated words).condition? := by
  have hread := read_placeholder negated n []
  rw [List.append_nil] at hread
  rw [Phrase.condition?, hread]
  simp only [hw]
  cases negated <;> rfl

theorem wordCondition_eq (h : Names tables t w) : Segment.wordCondition tables t = .ok w.condition? := by
  rw [Segment.wordCondition.eq_def]
  cases h with
  | phrase hw =>
    rw [condition?_placeholder hw]
    rfl
  | term ht =>
    rw [condition?_of_no_mark ht]
    match t with
    | [] => rfl
    | [c] => rfl
    | c :: d :: t =>
      simp only [Word.condition?]
      split
      · rfl
      · by_cases hdash : c = '-'
        · subst hdash
          rfl
        · simp [hdash, bind, Except.bind, pure, Except.pure]

theorem wordConditions_eq {ts : List Text} {ws : List Word} (h : List.Forall₂ (Names tables) ts ws) :
    Segment.wordConditions tables ts = .ok (ws.filterMap Word.condition?) := by
  induction h with
  | nil => rfl
  | @cons t w ts ws hw _ ih =>
    rw [Segment.wordConditions, hw.wordCondition_eq, ih, List.filterMap_cons]
    cases w.condition? <;> rfl

end Names
end Phrase
end SearchQuery
