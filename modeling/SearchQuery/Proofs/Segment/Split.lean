import SearchQuery.Segment.Basic
import SearchQuery.Proofs.Text.Words
import Mathlib.Data.Bool.AllAny

/-! Cutting a text at a connective, word by word. A spelling of the connective is cut out exactly when it is a
    whole word with a blank on both sides, so the words of the parts are the words of the text cut at those
    spellings. -/

namespace SearchQuery

namespace Connective

variable {op : Connective}

/-! ### Spellings -/

theorem isBlank_letters : ∀ forms ∈ op.letters, ∀ c ∈ forms, isBlank c = false := by
  have hletters : ∀ c ∈ op.letters.flatten, isBlank c = false := List.all_iff_forall_prop.mp (by cases op <;> decide)
  exact fun forms hforms c hc => hletters c (List.mem_flatten_of_mem hforms hc)

theorem afterLetters?_append {ls : List Text} (hls : ∀ forms ∈ ls, ∀ c ∈ forms, isBlank c = false) {s : Text}
    (hs : Text.AtBlank s) (w : Text) : afterLetters? ls (w ++ s) = (afterLetters? ls w).map (· ++ s) := by
  fun_induction afterLetters? ls w with
  | case1 w => rw [afterLetters?]; rfl
  | case2 forms ls =>
    cases s with
    | nil => rfl
    | cons c s =>
      have hc : forms.contains c = false := by
        rw [List.contains_eq_mem, decide_eq_false_iff_not]
        intro hmem
        have := hls forms List.mem_cons_self c hmem
        rw [hs c rfl] at this
        cases this
      rw [List.nil_append, afterLetters?, hc]
      rfl
  | case3 forms ls c w hc ih =>
    rw [List.cons_append, afterLetters?, if_pos hc, ih fun f hf => hls f (List.mem_cons_of_mem _ hf)]
  | case4 forms ls c w hc =>
    rw [List.cons_append, afterLetters?, if_neg hc]
    rfl

theorem subset_of_afterLetters? {ls : List Text} {w rest : Text} (h : afterLetters? ls w = some rest) :
    ∀ c ∈ rest, c ∈ w := by
  fun_induction afterLetters? ls w with
  | case1 w =>
    cases h
    exact fun _ hc => hc
  | case2 => cases h
  | case3 forms ls c w hc ih => exact fun d hd => List.mem_cons_of_mem c (ih h d hd)
  | case4 => cases h

/-- The text has a character for each of the letters, each in one of its forms. -/
def spelledBy (ls : List Text) (w : Text) : Bool := afterLetters? ls w == some []

theorem spells_eq (op : Connective) (w : Text) : op.spells w = spelledBy op.letters w := rfl

theorem spelledBy_append {ls : List Text} (hls : ∀ forms ∈ ls, ∀ c ∈ forms, isBlank c = false) {s : Text}
    (hs : Text.AtBlank s) (w : Text) : spelledBy ls (w ++ s) = (spelledBy ls w && s.isEmpty) := by
  rw [spelledBy, spelledBy, afterLetters?_append hls hs]
  rcases afterLetters? ls w with _ | rest
  · rfl
  · cases rest <;> cases s <;> rfl

/-- Letters with a blank after them are found at a word where they spell it and something follows it. -/
theorem delimited?_append {ls : List Text} (hls : ∀ forms ∈ ls, ∀ c ∈ forms, isBlank c = false) {w s : Text}
    (hw : ∀ c ∈ w, isBlank c = false) (hs : Text.AtBlank s) :
    delimited? ls (w ++ s) = if spelledBy ls w && !s.isEmpty then some s else none := by
  rw [delimited?, afterLetters?_append hls hs, spelledBy]
  rcases h : afterLetters? ls w with _ | rest
  · rfl
  · cases rest with
    | nil =>
      cases s with
      | nil => rfl
      | cons c s => simp [hs c rfl]
    | cons c rest =>
      have hc := hw c (subset_of_afterLetters? h c List.mem_cons_self)
      simp [hc]

theorem delimited?_word_append (op : Connective) {w s : Text} (hw : ∀ c ∈ w, isBlank c = false)
    (hs : Text.AtBlank s) :
    delimited? op.letters (w ++ s) = if op.spells w && !s.isEmpty then some s else none :=
  delimited?_append isBlank_letters hw hs

theorem delimited?_blank {c : Char} (hc : isBlank c = true) (s : Text) : delimited? op.letters (c :: s) = none := by
  have h := delimited?_word_append op (w := []) (by simp) (Text.atBlank_cons hc s)
  have hspells : op.spells [] = false := by cases op <;> decide
  simpa [hspells] using h

/-! ### The parts between the spellings -/

theorem splitFrom_nil (b : Bool) : splitFrom op b [] = [[]] := by
  rw [splitFrom]

theorem splitFrom_ne_nil (b : Bool) (s : Text) : splitFrom op b s ≠ [] := by
  fun_cases splitFrom op b s with
  | case1 => exact List.cons_ne_nil _ _
  | case2 => exact List.cons_ne_nil _ _
  | case3 c s h => cases splitFrom op (isBlank c) s <;> exact List.cons_ne_nil _ _

theorem consFirst_eq_modifyHead {ss : List Text} (h : ss ≠ []) (c : Char) :
    consFirst c ss = ss.modifyHead (c :: ·) := by
  cases ss with
  | nil => exact absurd rfl h
  | cons s ss => rfl

theorem splitFrom_cons_of_none {b : Bool} {c : Char} {s : Text}
    (h : (if b then delimited? op.letters (c :: s) else none) = none) :
    splitFrom op b (c :: s) = (splitFrom op (isBlank c) s).modifyHead (c :: ·) := by
  rw [splitFrom]
  split
  · next hs =>
    rw [h] at hs
    cases hs
  · exact consFirst_eq_modifyHead (splitFrom_ne_nil _ _) c

theorem splitFrom_cons_of_some {c : Char} {s rest : Text} (h : delimited? op.letters (c :: s) = some rest) :
    splitFrom op true (c :: s) = [] :: splitFrom op false rest := by
  rw [splitFrom]
  split
  · next hs =>
    rw [if_pos rfl, h] at hs
    cases hs
    rfl
  · next hs =>
    rw [if_pos rfl, h] at hs
    cases hs

theorem splitFrom_cons_blank (b : Bool) {c : Char} (hc : isBlank c = true) (s : Text) :
    splitFrom op b (c :: s) = (splitFrom op true s).modifyHead (c :: ·) := by
  rw [splitFrom_cons_of_none, hc]
  rw [delimited?_blank hc]
  exact ite_self none

theorem splitFrom_of_atBlank (b b' : Bool) {s : Text} (hs : Text.AtBlank s) : splitFrom op b s = splitFrom op b' s := by
  cases s with
  | nil => rw [splitFrom_nil, splitFrom_nil]
  | cons c s => rw [splitFrom_cons_blank b (hs c rfl), splitFrom_cons_blank b' (hs c rfl)]

theorem splitFrom_false_word_append {w : Text} (hw : ∀ c ∈ w, isBlank c = false) (s : Text) :
    splitFrom op false (w ++ s) = (splitFrom op false s).modifyHead (w ++ ·) := by
  induction w with
  | nil =>
    rw [List.nil_append]
    cases splitFrom op false s <;> rfl
  | cons c w ih =>
    rw [List.cons_append, splitFrom_cons_of_none rfl, hw c List.mem_cons_self,
      ih fun d hd => hw d (List.mem_cons_of_mem c hd), List.modifyHead_modifyHead]
    rfl

/-- A word is cut out or stays with the first of the parts that follow. -/
theorem splitFrom_word_append (b : Bool) {w s : Text} (hne : w ≠ []) (hw : ∀ c ∈ w, isBlank c = false)
    (hs : Text.AtBlank s) :
    splitFrom op b (w ++ s) =
      if b && (op.spells w && !s.isEmpty) then [] :: splitFrom op true s
      else (splitFrom op true s).modifyHead (w ++ ·) := by
  have hdelimited := delimited?_word_append op hw hs
  rw [splitFrom_of_atBlank true false hs]
  cases b with
  | false => exact splitFrom_false_word_append hw s
  | true =>
    obtain ⟨c, w, rfl⟩ := List.exists_cons_of_ne_nil hne
    rw [List.cons_append] at hdelimited ⊢
    by_cases hcut : (op.spells (c :: w) && !s.isEmpty) = true
    · rw [if_pos hcut] at hdelimited
      rw [splitFrom_cons_of_some hdelimited]
      simp [hcut]
    · rw [if_neg hcut] at hdelimited
      have hc := hw c List.mem_cons_self
      rw [splitFrom_cons_of_none (by rw [if_pos rfl, hdelimited]), hc,
        splitFrom_false_word_append (fun d hd => hw d (List.mem_cons_of_mem c hd)), List.modifyHead_modifyHead]
      simp only [Bool.true_and, if_neg hcut]
      rfl

theorem atBlank_of_mem_head? {b : Bool} {s first : Text} (hs : Text.AtBlank s)
    (h : first ∈ (splitFrom op b s).head?) : Text.AtBlank first := by
  cases s with
  | nil =>
    rw [splitFrom_nil] at h
    cases h
    exact Text.atBlank_nil
  | cons c s =>
    rw [splitFrom_cons_blank b (hs c rfl)] at h
    cases hparts : splitFrom op true s with
    | nil => exact absurd hparts (splitFrom_ne_nil true s)
    | cons first' later =>
      rw [hparts] at h
      cases h
      exact Text.atBlank_cons (hs c rfl) first'

/-! ### The words of the parts -/

/-- The text is empty or ends with a blank. -/
def EndsBlank (s : Text) : Prop := ∀ c ∈ s.getLast?, isBlank c = true

theorem EndsBlank.of_append {s t : Text} (h : EndsBlank (s ++ t)) : EndsBlank t := by
  intro c hc
  refine h c ?_
  rw [List.getLast?_append, Option.mem_def.mp hc]
  rfl

theorem words_modifyHead_word {w s : Text} (hne : w ≠ []) (hw : ∀ c ∈ w, isBlank c = false) (hs : Text.AtBlank s)
    (b : Bool) :
    ((splitFrom op b s).modifyHead (w ++ ·)).map Text.words =
      ((splitFrom op b s).map Text.words).modifyHead (w :: ·) := by
  have hfirst : ∀ first ∈ (splitFrom op b s).head?, Text.AtBlank first := fun _ => atBlank_of_mem_head? hs
  cases hparts : splitFrom op b s with
  | nil => rfl
  | cons first later =>
    rw [List.modifyHead_cons, List.map_cons, List.map_cons, List.modifyHead_cons,
      Text.words_word_append hne hw (hfirst first (by rw [hparts]; rfl))]

theorem words_modifyHead_blank {c : Char} (hc : isBlank c = true) (ss : List Text) :
    (ss.modifyHead (c :: ·)).map Text.words = ss.map Text.words := by
  cases ss with
  | nil => rfl
  | cons s ss => rw [List.modifyHead_cons, List.map_cons, List.map_cons, Text.words_cons_blank hc]

/-- The words of the parts of a text that ends with a blank are its words, cut at every spelling. -/
theorem map_words_splitFrom {s : Text} (h : EndsBlank s) :
    (splitFrom op true s).map Text.words = (Text.words s).splitOnP op.spells := by
  induction s using Text.byWords with
  | nil => rw [splitFrom_nil]; simp
  | blank c s hc ih =>
    rw [splitFrom_cons_blank true hc, words_modifyHead_blank hc, Text.words_cons_blank hc]
    exact ih (h.of_append (s := [c]))
  | word w s hne hw hs ih =>
    -- A word at the very end would not be cut out, but a blank stands there.
    have hsne : s ≠ [] := by
      rintro rfl
      have hlast := h (w.getLast hne) (by simp [List.getLast?_eq_some_getLast hne])
      rw [hw _ (List.getLast_mem hne)] at hlast
      cases hlast
    have ih := ih h.of_append
    rw [splitFrom_word_append true hne hw hs, Text.words_word_append hne hw hs,
      List.splitOnP_cons_eq_if_modifyHead, ← ih]
    have hempty : s.isEmpty = false := by simpa using hsne
    by_cases hspells : op.spells w = true
    · simp [hspells, hempty]
    · rw [if_neg hspells, if_neg (by simp [hspells]), words_modifyHead_word hne hw hs]

/-- Between blanks, the words of the parts are the words of the text, cut at every spelling. -/
theorem map_words_split (s : Text) :
    (op.split (' ' :: s ++ [' '])).map Text.words = (Text.words s).splitOnP op.spells := by
  have hends : EndsBlank (' ' :: s ++ [' ']) := by
    intro c hc
    rw [List.getLast?_append] at hc
    cases hc
    exact Text.isBlank_space
  have hat : Text.AtBlank (' ' :: s ++ [' ']) := Text.atBlank_space _
  rw [split, splitFrom_of_atBlank false true hat, map_words_splitFrom hends, List.cons_append,
    Text.words_cons_space, Text.words_append_blank s Text.isBlank_space]

end Connective
end SearchQuery
