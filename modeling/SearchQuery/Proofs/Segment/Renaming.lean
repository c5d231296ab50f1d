import SearchQuery.Proofs.Condition.Renaming
import SearchQuery.Proofs.Segment.Grammar

/-! Segments with other characters and phrases. What stands at the ends of a segment and how its words are joined
    depends on its blanks, its dashes and the letters of its connectives alone. A renaming changes none of these, so
    it can be made before or after a segment is read (`Segment.ofAtoms_rename`). -/

namespace SearchQuery

/-- A change of characters and of the words of phrases that keeps blanks, dashes and the letters of connectives apart
    from everything else. -/
structure Renaming where
  char : Char → Char
  words : Text → Text
  isBlank_char : ∀ c, isBlank (char c) = isBlank c
  notBlank_words : ∀ w : Text, (words w).notBlank = w.notBlank
  char_eq_dash_iff : ∀ c, char c = '-' ↔ c = '-'
  char_mem_iff : ∀ op : Connective, ∀ forms ∈ op.letters, ∀ c, char c ∈ forms ↔ c ∈ forms

namespace Renaming

/-- The change of a term, character by character. -/
def term (ρ : Renaming) (t : Text) : Text := t.map ρ.char

theorem notBlank_term (ρ : Renaming) (t : Text) : (ρ.term t).notBlank = t.notBlank := by
  rw [Text.notBlank, Text.notBlank, term, List.any_map]
  simp only [Function.comp_def, ρ.isBlank_char]

end Renaming

/-- No change. -/
def Renaming.refl : Renaming where
  char := id
  words := id
  isBlank_char _ := rfl
  notBlank_words _ := rfl
  char_eq_dash_iff _ := Iff.rfl
  char_mem_iff _ _ _ _ := Iff.rfl

/-- The condition with its terms and the words of its phrases renamed. -/
def Condition.rename (ρ : Renaming) : ClosedCondition → ClosedCondition := mapLeaves ρ.term ρ.words

/-- The atom with its character, or the words of its phrase, renamed. -/
def Atom.rename (ρ : Renaming) : Atom → Atom
  | .char c => .char (ρ.char c)
  | .phrase negated words => .phrase negated (ρ.words words)

/-- The word with its term, or the words of its phrase, renamed. -/
def Word.rename (ρ : Renaming) : Word → Word
  | .term t => .term (ρ.term t)
  | .phrase negated words => .phrase negated (ρ.words words)

/-- The segment with its condition renamed. -/
def Segment.rename (ρ : Renaming) (x : Segment) : Segment := { x with condition := x.condition.rename ρ }

theorem Condition.rename_refl (c : ClosedCondition) : c.rename .refl = c := by
  have hterm : Renaming.term .refl = id := funext List.map_id
  rw [rename, hterm]
  exact mapLeaves_id c

variable (ρ : Renaming)

/-! ### Words -/

namespace Connective

theorem afterLetters?_map {ls : List Text} (hls : ∀ forms ∈ ls, ∀ c, ρ.char c ∈ forms ↔ c ∈ forms) (t : Text) :
    afterLetters? ls (ρ.term t) = (afterLetters? ls t).map ρ.term := by
  fun_induction afterLetters? ls t with
  | case1 t => rw [afterLetters?]; rfl
  | case2 => rfl
  | case3 forms ls c t hc ih =>
    have hc' : forms.contains (ρ.char c) = true := by simpa [hls forms List.mem_cons_self c] using hc
    rw [Renaming.term, List.map_cons, afterLetters?, if_pos hc', ← Renaming.term,
      ih fun f hf => hls f (List.mem_cons_of_mem _ hf)]
  | case4 forms ls c t hc =>
    have hc' : ¬forms.contains (ρ.char c) = true := by simpa [hls forms List.mem_cons_self c] using hc
    rw [Renaming.term, List.map_cons, afterLetters?, if_neg hc']
    rfl

theorem spells_term (op : Connective) (t : Text) : op.spells (ρ.term t) = op.spells t := by
  rw [spells, spells, afterLetters?_map ρ (ρ.char_mem_iff op)]
  rcases afterLetters? op.letters t with _ | rest
  · rfl
  · cases rest <;> rfl

end Connective

namespace Word

theorem spells_rename (op : Connective) (w : Word) : (w.rename ρ).spells op = w.spells op := by
  cases w with
  | term t => exact Connective.spells_term ρ op t
  | phrase => rfl

theorem condition?_rename (w : Word) : (w.rename ρ).condition? = w.condition?.map (Condition.rename ρ) := by
  cases w with
  | phrase negated words => cases negated <;> rfl
  | term t =>
    match t with
    | [] => rfl
    | [c] => rfl
    | c :: d :: t =>
      have hspells : ∀ op : Connective, op.spells (ρ.char c :: ρ.char d :: t.map ρ.char) = op.spells (c :: d :: t) :=
        fun op => Connective.spells_term ρ op (c :: d :: t)
      simp only [rename, Renaming.term, List.map_cons, condition?, hspells]
      split
      · rfl
      · by_cases hdash : c = '-'
        · subst hdash
          rw [(ρ.char_eq_dash_iff '-').mpr rfl]
          rfl
        · have hdash' : ρ.char c ≠ '-' := mt (ρ.char_eq_dash_iff c).mp hdash
          simp [hdash, hdash', Condition.rename, Renaming.term]

theorem runs_rename (ws : List Word) : runs (ws.map (rename ρ)) = (runs ws).map (List.map (Condition.rename ρ)) := by
  induction ws with
  | nil => rfl
  | cons w ws ih =>
    rw [List.map_cons, runs_cons, runs_cons, spells_rename, condition?_rename, ih]
    split
    · rfl
    · obtain ⟨run, later, hruns⟩ := List.exists_cons_of_ne_nil (runs_ne_nil ws)
      rw [hruns]
      cases w.condition? <;> rfl

end Word

namespace Atom

theorem wordsFrom_rename (as : List Atom) :
    wordsFrom (as.map (rename ρ)) = (ρ.term (wordsFrom as).1, (wordsFrom as).2.map (Word.rename ρ)) := by
  induction as with
  | nil => rfl
  | cons a as ih =>
    have hwords : words (as.map (rename ρ)) = (words as).map (Word.rename ρ) := by
      rw [words_eq, ih, words_eq]
      cases (wordsFrom as).1 <;> rfl
    cases a with
    | char c =>
      rw [List.map_cons, rename, wordsFrom_char, wordsFrom_char, ih, hwords, ρ.isBlank_char]
      split <;> rfl
    | phrase negated w => rw [List.map_cons, rename, wordsFrom_phrase, wordsFrom_phrase, hwords]; rfl

theorem words_rename (as : List Atom) : words (as.map (rename ρ)) = (words as).map (Word.rename ρ) := by
  rw [words_eq, wordsFrom_rename, words_eq]
  cases (wordsFrom as).1 <;> rfl

theorem isBlank_rename (a : Atom) : (a.rename ρ).isBlank = a.isBlank := by
  cases a with
  | char c => exact ρ.isBlank_char c
  | phrase => rfl

end Atom

theorem undelimited_map {α β : Type} (f : α → β) {p : β → Bool} {q : α → Bool} (h : ∀ x, p (f x) = q x)
    (before after : Bool) (xs : List α) :
    undelimited p before after (xs.map f) = (undelimited q before after xs).map f := by
  fun_induction undelimited q before after xs with
  | case1 => rfl
  | case2 before w hw => rw [List.map_singleton, undelimited, h, if_pos hw, List.map_nil]
  | case3 before w hw => rw [List.map_singleton, undelimited, h, if_neg hw]
  | case4 before w v ws hw ih =>
    rw [List.map_cons, List.map_cons, undelimited, h, if_pos hw, ← List.map_cons, ih]
  | case5 before w v ws hw ih =>
    rw [List.map_cons, List.map_cons, undelimited, h, if_neg hw, ← List.map_cons, ih, List.map_cons]

namespace Segment

theorem alternate_rename (runs : List (List ClosedCondition)) :
    alternate (runs.map (List.map (Condition.rename ρ))) = (alternate runs).rename ρ := by
  have hcompound : (Condition.compound .or (runs.map (.compound .and))).rename ρ =
      .compound .or ((runs.map (List.map (Condition.rename ρ))).map (.compound .and)) := by
    rw [Condition.rename, Condition.mapLeaves_compound, List.map_map, List.map_map]
    exact congrArg _ (List.map_congr_left fun run _ => Condition.mapLeaves_compound .and run)
  rw [alternate, ← hcompound]
  exact Condition.simplify_mapLeaves ρ.notBlank_term ρ.notBlank_words _

/-- Atoms can be renamed before or after they are read as a segment. -/
theorem ofAtoms_rename (as : List Atom) : ofAtoms (as.map (Atom.rename ρ)) = (ofAtoms as).rename ρ := by
  rw [ofAtoms, ofAtoms, rename, Atom.words_rename, Word.runs_rename, alternate_rename,
    undelimited_map (Word.rename ρ) (Word.spells_rename ρ .and)]
  simp only [List.head?_map, List.getLast?_map, Option.any_map, Atom.isBlank_rename, Word.spells_rename]

end Segment
end SearchQuery
