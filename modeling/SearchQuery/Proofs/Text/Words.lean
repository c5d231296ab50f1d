import SearchQuery.Text.Blank

/-! Words and blanks. A text is read by its blanks and its words, each word up to the blank or the end that
    follows it (`byWords`); a blank before or between texts separates their words. -/

namespace SearchQuery.Text

/-! ### Cutting a text at its words -/

/-- The text is empty or starts with a blank. -/
def AtBlank (s : Text) : Prop := ∀ c ∈ s.head?, isBlank c = true

theorem isBlank_space : isBlank ' ' = true := rfl

theorem atBlank_nil : AtBlank [] := by
  intro c hc
  cases hc

theorem atBlank_cons {c : Char} (hc : isBlank c = true) (s : Text) : AtBlank (c :: s) := by
  intro d hd
  cases hd
  exact hc

theorem atBlank_space (s : Text) : AtBlank (' ' :: s) := atBlank_cons isBlank_space s

theorem AtBlank.append {s t : Text} (hs : AtBlank s) (ht : AtBlank t) : AtBlank (s ++ t) := by
  cases s with
  | nil => exact ht
  | cons c s => exact atBlank_cons (hs c rfl) _

theorem atBlank_dropWhile (s : Text) : AtBlank (s.dropWhile fun c => !isBlank c) := by
  intro c hc
  have h := List.head?_dropWhile_not (fun c => !isBlank c) s
  rw [Option.mem_def.mp hc] at h
  simpa using h

/-- A text is nothing, a blank before a text, or a word before a text that starts with a blank. -/
theorem byWords {motive : Text → Prop} (nil : motive [])
    (blank : ∀ c s, isBlank c = true → motive s → motive (c :: s))
    (word : ∀ w s, w ≠ [] → (∀ c ∈ w, isBlank c = false) → AtBlank s → motive s → motive (w ++ s)) :
    ∀ s, motive s := by
  intro s
  -- By length: a word is taken off whole, so the rest is not the tail of the list.
  induction hn : s.length using Nat.strongRecOn generalizing s with
  | ind n ih =>
    subst hn
    cases s with
    | nil => exact nil
    | cons c s =>
      cases hc : isBlank c
      · have hsplit := List.takeWhile_append_dropWhile (p := fun d => !isBlank d) (l := c :: s)
        have hlen := congrArg List.length hsplit
        rw [← hsplit]
        have hne : (c :: s).takeWhile (fun d => !isBlank d) ≠ [] := by simp [hc]
        refine word _ _ hne (fun d hd => ?_) (atBlank_dropWhile _) (ih _ ?_ _ rfl)
        · simpa using List.all_eq_true.mp List.all_takeWhile d hd
        · rw [List.length_append] at hlen
          have := List.length_pos_iff.mpr hne
          omega
      · exact blank c s hc (ih s.length (by simp) s rfl)

/-! ### Words of texts put together -/

theorem wordsFrom_cons (c : Char) (s : Text) :
    wordsFrom (c :: s) = if isBlank c then ([], words s) else (c :: (wordsFrom s).1, (wordsFrom s).2) := rfl

theorem words_eq (s : Text) :
    words s = if (wordsFrom s).1.isEmpty then (wordsFrom s).2 else (wordsFrom s).1 :: (wordsFrom s).2 := rfl

@[simp] theorem words_nil : words [] = [] := rfl

theorem words_cons_blank {c : Char} (hc : isBlank c = true) (s : Text) : words (c :: s) = words s := by
  simp only [words, wordsFrom, hc, ite_true, List.isEmpty_nil]

theorem words_cons_space (s : Text) : words (' ' :: s) = words s := words_cons_blank isBlank_space s

theorem wordsFrom_word_append {w : Text} (hw : ∀ c ∈ w, isBlank c = false) (s : Text) :
    wordsFrom (w ++ s) = (w ++ (wordsFrom s).1, (wordsFrom s).2) := by
  induction w with
  | nil => rfl
  | cons c w ih =>
    simp only [List.cons_append, wordsFrom, ih fun d hd => hw d (List.mem_cons_of_mem c hd),
      hw c List.mem_cons_self, Bool.false_eq_true, ite_false]

theorem wordsFrom_of_atBlank {s : Text} (h : AtBlank s) : wordsFrom s = ([], words s) := by
  cases s with
  | nil => rfl
  | cons c s =>
    have hc : isBlank c = true := h c rfl
    rw [words_cons_blank hc]
    simp only [wordsFrom, hc, ite_true, words]

theorem words_word_append {w s : Text} (hne : w ≠ []) (hw : ∀ c ∈ w, isBlank c = false) (hs : AtBlank s) :
    words (w ++ s) = w :: words s := by
  have hempty : w.isEmpty = false := by simpa using hne
  rw [words, wordsFrom_word_append hw, wordsFrom_of_atBlank hs]
  simp [hempty]

theorem words_word {w : Text} (hne : w ≠ []) (hw : ∀ c ∈ w, isBlank c = false) : words w = [w] := by
  have h := words_word_append hne hw atBlank_nil
  rwa [List.append_nil] at h

theorem words_append {s t : Text} (ht : AtBlank t) : words (s ++ t) = words s ++ words t := by
  induction s using byWords with
  | nil => rfl
  | blank c s hc ih => rw [List.cons_append, words_cons_blank hc, words_cons_blank hc, ih]
  | word w s hne hw hs ih =>
    rw [List.append_assoc, words_word_append hne hw (hs.append ht), words_word_append hne hw hs, ih]
    rfl

theorem words_append_blank (s : Text) {c : Char} (hc : isBlank c = true) : words (s ++ [c]) = words s := by
  rw [words_append (atBlank_cons hc []), words_cons_blank hc, words_nil, List.append_nil]

theorem words_reverse (s : Text) : words s.reverse = (words s).reverse.map List.reverse := by
  induction s using byWords with
  | nil => rfl
  | blank c s hc ih => rw [List.reverse_cons, words_append_blank _ hc, words_cons_blank hc, ih]
  | word w s hne hw hs ih =>
    have hreverse : words w.reverse = [w.reverse] :=
      words_word (by simpa using hne) fun c hc => hw c (List.mem_reverse.mp hc)
    have happend : words (s.reverse ++ w.reverse) = words s.reverse ++ words w.reverse := by
      cases s with
      | nil => rfl
      | cons c s =>
        have hc : isBlank c = true := hs c rfl
        rw [List.reverse_cons, words_append_blank _ hc, List.append_assoc, List.singleton_append,
          words_append (atBlank_cons hc _), words_cons_blank hc]
    rw [List.reverse_append, happend, hreverse, words_word_append hne hw hs, ih, List.reverse_cons, List.map_append]
    rfl

theorem ne_nil_of_mem_words {s : Text} : ∀ w ∈ words s, w ≠ [] ∧ ∀ c ∈ w, isBlank c = false := by
  induction s using byWords with
  | nil => simp
  | blank c s hc ih => rwa [words_cons_blank hc]
  | word w s hne hw hs ih =>
    rw [words_word_append hne hw hs]
    intro v hv
    rcases List.mem_cons.mp hv with rfl | hv
    · exact ⟨hne, hw⟩
    · exact ih v hv

/-! ### Blank texts -/

theorem notBlank_append (s t : Text) : notBlank (s ++ t) = (notBlank s || notBlank t) :=
  List.any_append

theorem notBlank_of_mem {s : Text} {c : Char} (hc : c ∈ s) (h : isBlank c = false) : notBlank s = true :=
  List.any_eq_true.mpr ⟨c, hc, by simp [h]⟩

theorem notBlank_eq_false_iff {s : Text} : notBlank s = false ↔ ∀ c ∈ s, isBlank c = true := by
  simp [notBlank]

theorem words_eq_nil_iff {s : Text} : words s = [] ↔ notBlank s = false := by
  induction s using byWords with
  | nil => simp [notBlank]
  | blank c s hc ih => rw [words_cons_blank hc, ih, notBlank, notBlank, List.any_cons, hc]; rfl
  | word w s hne hw hs ih =>
    obtain ⟨c, hc⟩ := List.exists_mem_of_ne_nil w hne
    rw [words_word_append hne hw hs, notBlank_append, notBlank_of_mem hc (hw c hc)]
    simp

end SearchQuery.Text
