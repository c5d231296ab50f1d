import SearchQuery.Proofs.Phrase.Legend
import SearchQuery.Proofs.Segment.Grammar

/-! A segment read word by word. Nothing but the words of the text with placeholders decides what a segment asks for:
    words AND go, words OR separate the alternatives, and every other word has a meaning of its own, which for a
    placeholder stands in the legend of the tables. The ends of a segment need one thing more, whether there are blanks
    on both sides of a word AND (`PlacedWord`). -/

namespace SearchQuery

/-! ### Words in their places -/

/-- A word as it stands in a text: with a blank right before it or not, and with a blank right after it or not. -/
structure PlacedWord where
  afterBlank : Bool
  word : Text
  beforeBlank : Bool
deriving Repr, DecidableEq

namespace Text

/-- The words of a text as they stand in it. The flag says whether a blank stands before the text. -/
def placedWords (afterBlank : Bool) : Text → List PlacedWord
  | [] => []
  | c :: s =>
    if isBlank c then placedWords true s
    else
      let rest := s.dropWhile fun d => !isBlank d
      ⟨afterBlank, c :: s.takeWhile fun d => !isBlank d, startsBlank rest⟩ :: placedWords false rest
termination_by s => s.length
decreasing_by
  · simp
  · exact Nat.lt_succ_of_le (List.length_dropWhile_le _ s)

theorem placedWords_nil (b : Bool) : placedWords b [] = [] := by
  rw [placedWords]

theorem placedWords_cons_blank (b : Bool) {c : Char} (hc : isBlank c = true) (s : Text) :
    placedWords b (c :: s) = placedWords true s := by
  rw [placedWords, if_pos hc]

theorem placedWords_of_atBlank (b b' : Bool) {s : Text} (hs : AtBlank s) : placedWords b s = placedWords b' s := by
  cases s with
  | nil => rw [placedWords_nil, placedWords_nil]
  | cons c s => rw [placedWords_cons_blank b (hs c rfl), placedWords_cons_blank b' (hs c rfl)]

theorem dropWhile_of_atBlank {s : Text} (hs : AtBlank s) : s.dropWhile (fun c => !isBlank c) = s := by
  cases s with
  | nil => rfl
  | cons c s => exact List.dropWhile_cons_of_neg (by simp [hs c rfl])

theorem takeWhile_of_atBlank {s : Text} (hs : AtBlank s) : s.takeWhile (fun c => !isBlank c) = [] := by
  cases s with
  | nil => rfl
  | cons c s => exact List.takeWhile_cons_of_neg (by simp [hs c rfl])

theorem placedWords_word_append (b : Bool) {w s : Text} (hne : w ≠ []) (hw : ∀ c ∈ w, isBlank c = false)
    (hs : AtBlank s) : placedWords b (w ++ s) = ⟨b, w, s.startsBlank⟩ :: placedWords b s := by
  obtain ⟨c, w, rfl⟩ := List.exists_cons_of_ne_nil hne
  have hwords : ∀ d ∈ w, (!isBlank d) = true := fun d hd => by rw [hw d (List.mem_cons_of_mem c hd)]; rfl
  have htake : (w ++ s).takeWhile (fun d => !isBlank d) = w := by
    rw [List.takeWhile_append_of_pos hwords, takeWhile_of_atBlank hs, List.append_nil]
  have hdrop : (w ++ s).dropWhile (fun d => !isBlank d) = s := by
    rw [List.dropWhile_append_of_pos hwords, dropWhile_of_atBlank hs]
  rw [List.cons_append, placedWords, if_neg (by simp [hw c List.mem_cons_self])]
  simp only [htake, hdrop]
  rw [placedWords_of_atBlank false b hs]

theorem startsBlank_of_atBlank {s : Text} (hs : AtBlank s) (hne : s ≠ []) : s.startsBlank = true := by
  obtain ⟨c, s, rfl⟩ := List.exists_cons_of_ne_nil hne
  exact hs c rfl

end Text

namespace Connective

/-- The words of a text without the spellings of the connective that have a blank on both sides. -/
def undelimitedWords (op : Connective) (s : Text) : List Text :=
  ((s.placedWords false).filter fun p => !(p.afterBlank && op.spells p.word && p.beforeBlank)).map PlacedWord.word

theorem map_word_filter_placedWords (op : Connective) (b : Bool) (s : Text) :
    ((s.placedWords b).filter fun p => !(p.afterBlank && op.spells p.word && p.beforeBlank)).map PlacedWord.word =
      undelimited op.spells (b || s.startsBlank) s.endsBlank (Text.words s) := by
  induction s using Text.byWords generalizing b with
  | nil => rw [Text.placedWords_nil]; rfl
  | blank c s hc ih =>
    have hstarts : Text.startsBlank (c :: s) = true := hc
    rw [Text.placedWords_cons_blank b hc, Text.words_cons_blank hc, ih, hstarts, Bool.true_or, Bool.or_true]
    by_cases hs : s = []
    · subst hs
      rfl
    · rw [← List.singleton_append, Text.endsBlank_append_of_ne_nil [c] hs]
  | word w s hne hw hs ih =>
    rw [Text.placedWords_word_append b hne hw hs, Text.words_word_append hne hw hs,
      Text.startsBlank_word_append hne hw, Bool.or_false, List.filter_cons]
    by_cases hsne : s = []
    · subst hsne
      rw [List.append_nil, Text.endsBlank_word hne hw, Text.placedWords_nil]
      simp [Text.startsBlank, undelimited]
    -- A blank follows the word, so only what stands before it is left to decide.
    · have hstarts := Text.startsBlank_of_atBlank hs hsne
      have ih := ih true
      rw [Bool.true_or] at ih
      rw [Text.endsBlank_append_of_ne_nil w hsne, undelimited_word b w hsne, hstarts, Bool.and_true,
        Text.placedWords_of_atBlank b true hs, ← ih]
      cases b && op.spells w <;> rfl

theorem undelimitedWords_eq (op : Connective) (s : Text) :
    op.undelimitedWords s = undelimited op.spells s.startsBlank s.endsBlank (Text.words s) := by
  rw [undelimitedWords, map_word_filter_placedWords, Bool.false_or]

end Connective

/-! ### What the words ask for -/

namespace Segment

open Phrase (Names)

/-- What a word asks for by itself: one character for that character, a dash with more after it for the opposite of the
    rest, and any other word for itself. -/
def termAsks : Text → ClosedCondition
  | [c] => .keyword [c]
  | '-' :: rest => .negation (.keyword rest)
  | w => .keyword w

/-- What a word asks for that does not connect: a placeholder for its phrase, any other word by itself. -/
def asks (tables : Phrase.Tables) (w : Text) : ClosedCondition := (tables.legend.lookup w).getD (termAsks w)

/-- The runs of words between words OR, without the words AND. -/
def wordRuns (ws : List Text) : List (List Text) :=
  (ws.filter fun w => !Connective.and.spells w).splitOnP Connective.or.spells

/-- What a text with placeholders says by its words. -/
def byWords (text : Text) (tables : Phrase.Tables) : Segment where
  startsWithOr := (Connective.and.undelimitedWords text).head?.any Connective.or.spells
  condition := Condition.simplify
    (.compound .or ((wordRuns (Text.words text)).map fun run => .compound .and (run.map (asks tables))))
  endsWithOr := (Connective.and.undelimitedWords text).getLast?.any Connective.or.spells

theorem condition?_term {t : Text} (h : ¬(Connective.and.spells t || Connective.or.spells t) = true) :
    (Word.term t).condition? = some (termAsks t) := by
  match t with
  | [] => rfl
  | [c] => rfl
  | c :: d :: t =>
    simp only [Word.condition?, if_neg h]
    by_cases hdash : c = '-'
    · subst hdash
      rfl
    · simp [termAsks, hdash]

/-- A word has the meaning that the legend gives its placeholder, unless it connects. -/
theorem condition?_eq {tables : Phrase.Tables} {t : Text} {w : Word} (h : Names tables t w) :
    w.condition? = if Connective.and.spells t || Connective.or.spells t then none else some (asks tables t) := by
  split
  · next hconnects =>
    rcases Bool.or_eq_true_iff.mp hconnects with hand | hor
    · exact Word.condition?_of_spells ((h.spells_eq .and).symm.trans hand)
    · exact Word.condition?_of_spells ((h.spells_eq .or).symm.trans hor)
  · next hconnects =>
    cases h with
    | term ht =>
      rw [condition?_term hconnects, asks, Phrase.lookup_legend_of_no_mark tables ht]
      rfl
    | phrase hw =>
      rw [asks, Phrase.lookup_legend hw]
      rfl

theorem wordRuns_cons_of_and {t : Text} (h : Connective.and.spells t = true) (ts : List Text) :
    wordRuns (t :: ts) = wordRuns ts := by
  rw [wordRuns, List.filter_cons_of_neg (by simp [h]), wordRuns]

theorem wordRuns_cons {t : Text} (h : Connective.and.spells t = false) (ts : List Text) :
    wordRuns (t :: ts) = if Connective.or.spells t then [] :: wordRuns ts else (wordRuns ts).modifyHead (t :: ·) := by
  rw [wordRuns, List.filter_cons_of_pos (by simp [h]), List.splitOnP_cons_eq_if_modifyHead, wordRuns]

theorem runs_eq {tables : Phrase.Tables} {ts : List Text} {ws : List Word} (h : List.Forall₂ (Names tables) ts ws) :
    Word.runs ws = (wordRuns ts).map (List.map (asks tables)) := by
  induction h with
  | nil => rfl
  | @cons t w ts ws hw _ ih =>
    have hand := hw.spells_eq .and
    have hor := hw.spells_eq .or
    have hcondition := condition?_eq hw
    cases hspells : Connective.and.spells t with
    | true => rw [Word.runs_cons_of_and (hand.symm.trans hspells), wordRuns_cons_of_and hspells, ih]
    | false =>
      rw [Word.runs_cons, wordRuns_cons hspells, ← hor, ih]
      split
      · rfl
      · next hne =>
        rw [hspells, Bool.false_or, if_neg hne] at hcondition
        rw [hcondition]
        cases wordRuns ts <;> rfl

/-- Every text is read as its words say, once its phrases are taken out. -/
theorem ofText_eq_byWords (s : Text) : ofText s = .ok (byWords (Phrase.extract s).1 (Phrase.extract s).2) := by
  have hreads := Phrase.reads_extract s
  have hwords := hreads.forall₂_words
  have hspells : ∀ op t w, Names (Phrase.extract s).2 t w → Connective.spells op t = w.spells op :=
    fun op t w h => h.spells_eq op
  have hleft : List.Forall₂ (Names (Phrase.extract s).2) (Connective.and.undelimitedWords (Phrase.extract s).1)
      (undelimited (Word.spells .and) ((Phrase.scan s).head?.any Atom.isBlank)
        ((Phrase.scan s).getLast?.any Atom.isBlank) (Atom.words (Phrase.scan s))) := by
    rw [Connective.undelimitedWords_eq, hreads.startsBlank_eq, hreads.endsBlank_eq]
    exact forall₂_undelimited (hspells .and) _ _ hwords
  rw [ofText_eq, ofAtoms, byWords, any_head?_of_forall₂ (hspells .or) hleft, any_getLast?_of_forall₂ (hspells .or) hleft,
    alternate, runs_eq hwords, List.map_map]
  rfl

/-- An AND at the very end has no blank after it, so it stays, and the OR before it is not at the end. -/
example : (byWords "a or and".toList {}).endsWithOr = false ∧ (byWords "a or and ".toList {}).endsWithOr = true := by
  decide +kernel

end Segment
end SearchQuery
