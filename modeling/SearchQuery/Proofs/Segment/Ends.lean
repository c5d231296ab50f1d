import SearchQuery.Proofs.Segment.Split
import Mathlib.Data.List.Forall2
import Mathlib.Data.List.TakeWhile

/-! The ends of a segment. Words AND are left out where blanks stand on both sides of them; an OR stands at an
    end of the rest exactly when the first or the last word of it is a spelling of OR. -/

namespace SearchQuery

/-! ### Words left when a connective is left out -/

/-- The words that stay when the spellings between blanks are left out. The flags tell whether blanks stand
    before the first word and after the last one. -/
def undelimited {α : Type} (spells : α → Bool) (before after : Bool) : List α → List α
  | [] => []
  | [w] => if before && spells w && after then [] else [w]
  | w :: v :: ws =>
    if before && spells w then undelimited spells true after (v :: ws)
    else w :: undelimited spells true after (v :: ws)

/-- The text starts with a blank. -/
def Text.startsBlank (s : Text) : Bool := s.head?.any isBlank

/-- The text ends with a blank. -/
def Text.endsBlank (s : Text) : Bool := s.getLast?.any isBlank

theorem undelimited_sublist {α : Type} (spells : α → Bool) (before after : Bool) (ws : List α) :
    (undelimited spells before after ws).Sublist ws := by
  fun_induction undelimited spells before after ws with
  | case1 => exact .slnil
  | case2 => exact List.nil_sublist _
  | case3 before w h => exact .refl _
  | case4 before w v ws h ih => exact ih.cons w
  | case5 before w v ws h ih => exact ih.cons_cons w

theorem undelimited_eq_self {α : Type} {spells : α → Bool} {ws : List α} (h : ∀ w ∈ ws, spells w = false)
    (before after : Bool) : undelimited spells before after ws = ws := by
  fun_induction undelimited spells before after ws with
  | case1 => rfl
  | case2 before w hw => simp [h w List.mem_cons_self] at hw
  | case3 => rfl
  | case4 before w v ws hw => simp [h w List.mem_cons_self] at hw
  | case5 before w v ws hw ih => rw [ih fun u hu => h u (List.mem_cons_of_mem w hu)]

theorem undelimited_cons {α : Type} (spells : α → Bool) (before after : Bool) (w : α) {ws : List α} (h : ws ≠ []) :
    undelimited spells before after (w :: ws) =
      if before && spells w then undelimited spells true after ws else w :: undelimited spells true after ws := by
  obtain ⟨v, ws, rfl⟩ := List.exists_cons_of_ne_nil h
  rfl

/-- A word that does not connect stays. -/
theorem mem_undelimited {α : Type} {spells : α → Bool} {w : α} (hw : spells w = false) {ws : List α} (h : w ∈ ws)
    (before after : Bool) : w ∈ undelimited spells before after ws := by
  fun_induction undelimited spells before after ws with
  | case1 => cases h
  | case2 before v hv =>
    cases List.mem_singleton.mp h
    simp [hw] at hv
  | case3 => exact h
  | case4 before v u ws hv ih =>
    rcases List.mem_cons.mp h with rfl | h
    · simp [hw] at hv
    · exact ih h
  | case5 before v u ws hv ih =>
    rcases List.mem_cons.mp h with rfl | h
    · exact List.mem_cons_self
    · exact List.mem_cons_of_mem v (ih h)

/-- Where a word does not connect, the first word that stays is the same whatever follows. -/
theorem head?_undelimited_append {α : Type} {spells : α → Bool} {ws : List α} (h : ∃ w ∈ ws, spells w = false)
    (us : List α) (before after after' : Bool) :
    (undelimited spells before after' (ws ++ us)).head? = (undelimited spells before after ws).head? := by
  fun_induction undelimited spells before after ws with
  | case1 =>
    obtain ⟨w, hw, -⟩ := h
    cases hw
  | case2 before w hw =>
    obtain ⟨v, hv, hspells⟩ := h
    cases List.mem_singleton.mp hv
    simp [hspells] at hw
  | case3 before w hw =>
    obtain ⟨v, hv, hspells⟩ := h
    cases List.mem_singleton.mp hv
    cases us with
    | nil => simp [undelimited, hspells]
    | cons u us => simp [undelimited, hspells]
  | case4 before w v ws hw ih =>
    obtain ⟨x, hx, hspells⟩ := h
    rcases List.mem_cons.mp hx with rfl | hx
    · simp [hspells] at hw
    · rw [List.cons_append, undelimited_cons _ _ _ _ (List.append_ne_nil_of_left_ne_nil (List.cons_ne_nil v ws) us),
        if_pos hw]
      exact ih ⟨x, hx, hspells⟩
  | case5 before w v ws hw ih =>
    rw [List.cons_append, undelimited_cons _ _ _ _ (List.append_ne_nil_of_left_ne_nil (List.cons_ne_nil v ws) us),
      if_neg hw]
    rfl

/-- Where a word does not connect, the last word that stays is the same whatever comes before. -/
theorem getLast?_undelimited_append {α : Type} {spells : α → Bool} {ws : List α} (h : ∃ w ∈ ws, spells w = false)
    (us : List α) (before before' after : Bool) :
    (undelimited spells before' after (us ++ ws)).getLast? = (undelimited spells before after ws).getLast? := by
  have hkeep : ∀ {v : α} {vs : List α}, (∃ w ∈ vs, spells w = false) →
      (v :: undelimited spells true after vs).getLast? = (undelimited spells true after vs).getLast? := fun hvs => by
    obtain ⟨w, hw, hspells⟩ := hvs
    obtain ⟨x, xs, hxs⟩ := List.exists_cons_of_ne_nil (List.ne_nil_of_mem (mem_undelimited hspells hw true after))
    rw [hxs, List.getLast?_cons_cons]
  have hcons : ∀ {b : Bool} {v : α} {vs : List α}, (∃ w ∈ vs, spells w = false) →
      (undelimited spells b after (v :: vs)).getLast? = (undelimited spells true after vs).getLast? := fun hvs => by
    obtain ⟨w, hw, -⟩ := id hvs
    rw [undelimited_cons _ _ _ _ (List.ne_nil_of_mem hw)]
    split
    · rfl
    · exact hkeep hvs
  induction us generalizing before' with
  | cons u us ih =>
    obtain ⟨w, hw, hspells⟩ := id h
    rw [List.cons_append, hcons ⟨w, List.mem_append_right us hw, hspells⟩, ih]
  | nil =>
    -- The flag before a word counts only if the word connects, and then another one follows it that does not.
    cases ws with
    | nil =>
      obtain ⟨w, hw, -⟩ := h
      cases hw
    | cons v vs =>
      by_cases hvs : ∃ w ∈ vs, spells w = false
      · rw [List.nil_append, hcons hvs, hcons hvs]
      · obtain ⟨w, hw, hspells⟩ := h
        rcases List.mem_cons.mp hw with rfl | hw
        · cases vs <;> simp [undelimited, hspells]
        · exact absurd ⟨w, hw, hspells⟩ hvs

theorem forall₂_undelimited {α β : Type} {R : α → β → Prop} {p : α → Bool} {q : β → Bool}
    (hR : ∀ a b, R a b → p a = q b) (before after : Bool) {xs : List α} {ys : List β} (h : List.Forall₂ R xs ys) :
    List.Forall₂ R (undelimited p before after xs) (undelimited q before after ys) := by
  induction h generalizing before with
  | nil => exact .nil
  | @cons x y xs ys hxy h ih =>
    cases h with
    | nil =>
      rw [undelimited, undelimited, hR x y hxy]
      split
      · exact .nil
      · exact .cons hxy .nil
    | cons hxy' h =>
      rw [undelimited, undelimited, hR x y hxy]
      split
      · exact ih true
      · exact .cons hxy (ih true)

namespace Text

theorem joinWith_cons {sep s : Text} {ss : List Text} (h : ss ≠ []) :
    joinWith sep (s :: ss) = s ++ (sep ++ joinWith sep ss) := by
  obtain ⟨t, ts, rfl⟩ := List.exists_cons_of_ne_nil h
  simp [joinWith, List.intersperse]

theorem joinWith_modifyHead {sep w : Text} {ss : List Text} (h : ss ≠ []) :
    joinWith sep (ss.modifyHead (w ++ ·)) = w ++ joinWith sep ss := by
  match ss with
  | [] => exact absurd rfl h
  | [s] => simp [joinWith]
  | s :: t :: ss => simp [joinWith, List.intersperse]

theorem startsBlank_word_append {w : Text} (hne : w ≠ []) (hw : ∀ c ∈ w, isBlank c = false) (s : Text) :
    startsBlank (w ++ s) = false := by
  obtain ⟨c, w', rfl⟩ := List.exists_cons_of_ne_nil hne
  exact hw c List.mem_cons_self

theorem endsBlank_word {w : Text} (hne : w ≠ []) (hw : ∀ c ∈ w, isBlank c = false) : endsBlank w = false := by
  rw [endsBlank, List.getLast?_eq_some_getLast hne]
  exact hw _ (List.getLast_mem hne)

theorem endsBlank_append_of_ne_nil (w : Text) {s : Text} (h : s ≠ []) : endsBlank (w ++ s) = endsBlank s := by
  obtain ⟨x, c, rfl⟩ := (List.eq_nil_or_concat s).resolve_left h
  simp [endsBlank]

theorem endsBlank_of_words_eq_nil {s : Text} (h : words s = []) (hne : s ≠ []) : endsBlank s = true := by
  have hblank := notBlank_eq_false_iff.mp (words_eq_nil_iff.mp h)
  rw [endsBlank, List.getLast?_eq_some_getLast hne]
  exact hblank _ (List.getLast_mem hne)

end Text

namespace Connective

variable {op : Connective}

theorem joinWith_splitFrom_cons_blank (b : Bool) {c : Char} (hc : isBlank c = true) (s : Text) :
    Text.joinWith [' '] (splitFrom op b (c :: s)) = c :: Text.joinWith [' '] (splitFrom op true s) := by
  rw [splitFrom_cons_blank b hc]
  exact Text.joinWith_modifyHead (w := [c]) (splitFrom_ne_nil _ _)

theorem joinWith_splitFrom_atBlank (b : Bool) {s : Text} (hs : Text.AtBlank s) :
    Text.AtBlank (Text.joinWith [' '] (splitFrom op b s)) := by
  cases s with
  | nil =>
    rw [splitFrom_nil]
    exact Text.atBlank_nil
  | cons c s =>
    rw [joinWith_splitFrom_cons_blank b (hs c rfl)]
    exact Text.atBlank_cons (hs c rfl) _

/-- Of a word before others, only the blanks before it and the word itself tell whether it is left out. -/
theorem undelimited_word (b : Bool) (w : Text) {s : Text} (hs : s ≠ []) :
    undelimited op.spells b s.endsBlank (w :: Text.words s) =
      if b && op.spells w then undelimited op.spells true s.endsBlank (Text.words s)
      else w :: undelimited op.spells true s.endsBlank (Text.words s) := by
  cases hwords : Text.words s with
  | nil => simp [undelimited, Text.endsBlank_of_words_eq_nil hwords hs]
  | cons v ws => rfl

theorem words_joinWith_splitFrom (b : Bool) (s : Text) :
    Text.words (Text.joinWith [' '] (splitFrom op b s)) =
      undelimited op.spells (b || s.startsBlank) s.endsBlank (Text.words s) := by
  induction s using Text.byWords generalizing b with
  | nil =>
    rw [splitFrom_nil]
    rfl
  | blank c s hc ih =>
    have hstarts : Text.startsBlank (c :: s) = true := hc
    rw [joinWith_splitFrom_cons_blank b hc, Text.words_cons_blank hc, Text.words_cons_blank hc, ih true, hstarts,
      Bool.or_true, Bool.true_or]
    by_cases hs : s = []
    · subst hs
      rfl
    · have hends := Text.endsBlank_append_of_ne_nil [c] hs
      rw [List.singleton_append] at hends
      rw [hends]
  | word w s hne hw hs ih =>
    rw [splitFrom_word_append b hne hw hs, Text.words_word_append hne hw hs, Text.startsBlank_word_append hne hw,
      Bool.or_false]
    by_cases hsne : s = []
    · subst hsne
      rw [List.append_nil, Text.endsBlank_word hne hw, splitFrom_nil]
      simp [Text.joinWith, undelimited, Text.words_word hne hw]
    -- With a blank after it, the word is cut out if a blank stands before it as well.
    · have hempty : s.isEmpty = false := by simpa using hsne
      have hrest : Text.AtBlank (Text.joinWith [' '] (splitFrom op true s)) := joinWith_splitFrom_atBlank true hs
      have ih := ih true
      rw [Bool.true_or] at ih
      rw [Text.endsBlank_append_of_ne_nil w hsne, hempty, Bool.not_false, Bool.and_true, undelimited_word b w hsne,
        ← ih]
      split
      · rw [Text.joinWith_cons (splitFrom_ne_nil _ _), List.nil_append, List.singleton_append, Text.words_cons_space]
      · rw [Text.joinWith_modifyHead (splitFrom_ne_nil _ _), Text.words_word_append hne hw hrest]

end Connective

namespace Segment

/-- The words of a text without its delimited words AND are those that are no AND between blanks. -/
theorem words_dropAnd (s : Text) :
    Text.words (dropAnd s) = undelimited Connective.and.spells s.startsBlank s.endsBlank (Text.words s) :=
  Connective.words_joinWith_splitFrom false s

end Segment

/-! ### Connectives at the ends -/

namespace Text

theorem trimStart_cons_blank {c : Char} (hc : isBlank c = true) (s : Text) : trimStart (c :: s) = trimStart s :=
  List.dropWhile_cons_of_pos hc

theorem trimStart_word_append {w : Text} (hne : w ≠ []) (hw : ∀ c ∈ w, isBlank c = false) (s : Text) :
    trimStart (w ++ s) = w ++ s := by
  obtain ⟨c, w, rfl⟩ := List.exists_cons_of_ne_nil hne
  exact List.dropWhile_cons_of_neg (by simp [hw c List.mem_cons_self])

/-- The text without the blanks at its end. -/
def trimEnd (s : Text) : Text := (s.reverse.dropWhile isBlank).reverse

theorem trim_eq (s : Text) : trim s = trimEnd (trimStart s) := rfl

theorem trimEnd_word_append {w : Text} (hne : w ≠ []) (hw : ∀ c ∈ w, isBlank c = false) (s : Text) :
    trimEnd (w ++ s) = w ++ trimEnd s := by
  have hstart : trimStart w.reverse = w.reverse := by
    have h := trimStart_word_append (w := w.reverse) (by simpa using hne)
      (fun c hc => hw c (List.mem_reverse.mp hc)) []
    rwa [List.append_nil] at h
  rw [trimEnd, List.reverse_append, List.dropWhile_append, ← trimStart, ← trimStart, hstart]
  split
  · next h =>
    have hs : trimStart s.reverse = [] := by simpa using h
    rw [trimEnd, ← trimStart, hs, List.reverse_reverse, List.reverse_nil, List.append_nil]
  · rw [List.reverse_append, List.reverse_reverse]
    rfl

theorem trimEnd_eq_nil_iff {s : Text} : trimEnd s = [] ↔ words s = [] := by
  rw [words_eq_nil_iff, notBlank_eq_false_iff, trimEnd, List.reverse_eq_nil_iff, List.dropWhile_eq_nil_iff]
  simp

theorem AtBlank.trimEnd {s : Text} (h : AtBlank s) : AtBlank (trimEnd s) := by
  have hprefix : s.trimEnd <+: s := List.reverse_suffix.mp (by
    rw [Text.trimEnd, List.reverse_reverse]
    exact List.dropWhile_suffix _)
  obtain ⟨t, ht⟩ := hprefix
  intro c hc
  refine h c ?_
  rw [← ht, List.head?_append, Option.mem_def.mp hc]
  rfl

end Text

namespace Connective

/-- Nothing but a spelling is left of a text without its outer blanks when the spelling is its only word. -/
theorem spells_trim_iff {op : Connective} {s : Text} :
    op.spells s.trim = true ↔ ∃ w, Text.words s = [w] ∧ op.spells w = true := by
  induction s using Text.byWords with
  | nil =>
    refine ⟨fun h => ?_, fun ⟨w, h, _⟩ => by cases h⟩
    cases op <;> cases h
  | blank c s hc ih => rw [Text.trim_eq, Text.trimStart_cons_blank hc, ← Text.trim_eq, Text.words_cons_blank hc, ih]
  | word w s hne hw hs ih =>
    rw [Text.trim_eq, Text.trimStart_word_append hne hw, Text.trimEnd_word_append hne hw, spells_eq,
      spelledBy_append isBlank_letters hs.trimEnd, ← spells_eq, Text.words_word_append hne hw hs, Bool.and_eq_true,
      List.isEmpty_iff, Text.trimEnd_eq_nil_iff]
    refine ⟨fun ⟨hspells, hwords⟩ => ⟨w, by rw [hwords], hspells⟩, fun ⟨v, hwords, hspells⟩ => ?_⟩
    obtain ⟨rfl, hnil⟩ := List.cons.inj hwords
    exact ⟨hspells, hnil⟩

/-- A text starts with letters that connect it when its first word is spelled by them: the letters stand before
    a blank, or they are all there is. -/
theorem or_isSome_delimited? {ls : List Text} (hls : ∀ forms ∈ ls, ∀ c ∈ forms, isBlank c = false) (hne : ls ≠ [])
    {isOnly : Bool} {s : Text} (hOnly : isOnly = true ↔ ∃ w, Text.words s = [w] ∧ spelledBy ls w = true) :
    (isOnly || (delimited? ls s.trimStart).isSome) = (Text.words s).head?.any (spelledBy ls) := by
  induction s using Text.byWords with
  | nil =>
    have hnone : delimited? ls [] = none := by
      obtain ⟨forms, ls, rfl⟩ := List.exists_cons_of_ne_nil hne
      rfl
    have hfalse : isOnly = false := by
      rw [Bool.eq_false_iff, Ne, hOnly]
      rintro ⟨w, hw, -⟩
      cases hw
    rw [hfalse, Text.trimStart, List.dropWhile_nil, hnone]
    rfl
  | blank c s hc ih =>
    rw [Text.words_cons_blank hc] at hOnly ⊢
    rw [Text.trimStart_cons_blank hc]
    exact ih hOnly
  | word w s hwne hw hs ih =>
    rw [Text.words_word_append hwne hw hs] at hOnly ⊢
    rw [Text.trimStart_word_append hwne hw, delimited?_append hls hw hs, List.head?_cons, Option.any_some]
    by_cases hspelled : spelledBy ls w = true
    · rw [hspelled, Bool.true_and]
      cases s with
      | nil => rw [hOnly.mpr ⟨w, rfl, hspelled⟩, Bool.true_or]
      | cons c s => simp
    · have hfalse : isOnly = false := by
        rw [Bool.eq_false_iff, Ne, hOnly]
        rintro ⟨v, hv, hspells⟩
        obtain ⟨rfl, -⟩ := List.cons.inj hv
        exact hspelled hspells
      rw [Bool.eq_false_iff.mpr hspelled, hfalse]
      rfl

theorem letters_ne_nil (op : Connective) : op.letters ≠ [] := by
  cases op <;> decide

theorem spelledBy_iff_forall₂ {ls : List Text} {w : Text} :
    spelledBy ls w = true ↔ List.Forall₂ (fun forms c => c ∈ forms) ls w := by
  fun_induction afterLetters? ls w with
  | case1 w => cases w <;> simp [spelledBy, afterLetters?]
  | case2 => simp [spelledBy, afterLetters?]
  | case3 forms ls c w hc ih =>
    have hmem : c ∈ forms := by simpa using hc
    rw [List.forall₂_cons, ← ih, spelledBy, afterLetters?, if_pos hc, ← spelledBy]
    simp [hmem]
  | case4 forms ls c w hc =>
    have hmem : c ∉ forms := by simpa using hc
    rw [List.forall₂_cons, spelledBy, afterLetters?, if_neg hc]
    simp [hmem]

theorem spelledBy_reverse (ls : List Text) (w : Text) : spelledBy ls.reverse w.reverse = spelledBy ls w := by
  rw [Bool.eq_iff_iff, spelledBy_iff_forall₂, spelledBy_iff_forall₂, List.forall₂_reverse_iff]

end Connective

namespace Segment

/-- An OR stands at the start of a segment exactly when its first word is a spelling of OR. -/
theorem startsWithOr_eq (s : Text) :
    (isOnlyOr s || Connective.or.startsText s) = (Text.words s).head?.any Connective.or.spells :=
  Connective.or_isSome_delimited? Connective.isBlank_letters (Connective.letters_ne_nil .or) Connective.spells_trim_iff

/-- An OR stands at the end of a segment exactly when its last word is a spelling of OR. -/
theorem endsWithOr_eq (s : Text) :
    (isOnlyOr s || Connective.or.endsText s) = (Text.words s).getLast?.any Connective.or.spells := by
  have hOnly : isOnlyOr s = true ↔ ∃ w, Text.words s.reverse = [w] ∧
      Connective.spelledBy Connective.or.letters.reverse w = true := by
    rw [isOnlyOr, Connective.spells_trim_iff, Text.words_reverse]
    constructor
    · rintro ⟨w, hw, hspells⟩
      refine ⟨w.reverse, by rw [hw]; rfl, ?_⟩
      rw [Connective.spelledBy_reverse]
      exact hspells
    · rintro ⟨w, hw, hspells⟩
      obtain ⟨v, hv, rfl⟩ := List.map_eq_singleton_iff.mp hw
      rw [Connective.spelledBy_reverse] at hspells
      refine ⟨v, ?_, hspells⟩
      rw [← List.reverse_reverse (Text.words s), hv]
      rfl
  have h := Connective.or_isSome_delimited? (s := s.reverse)
    (fun forms hforms => Connective.isBlank_letters forms (List.mem_reverse.mp hforms)) (by decide) hOnly
  refine h.trans ?_
  rw [Text.words_reverse, List.head?_map, List.head?_reverse]
  cases (Text.words s).getLast? with
  | none => rfl
  | some w => exact Connective.spelledBy_reverse _ w

end Segment
end SearchQuery
