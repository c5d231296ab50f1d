import SearchQuery.Proofs.Phrase.Extraction

/-! Phrases taken out and put back. Each sweep takes spans out of the text it reads, and the spans around words come
    back where they stood, typed with the same sign. Only spaces are added and only blank spans are lost, so a class
    of characters that spaces and the signs of blank spans are not in comes through both ways as it was
    (`filter_restored`). -/

namespace SearchQuery

/-- What the pattern finds in a text. -/
def Pattern.spans {β : Type} (p : Pattern β) (s : Text) : List β :=
  (p.pieces s).filterMap fun
    | .plain _ => none
    | .found value => some value

namespace Pattern

variable {β : Type} {p : Pattern β}

theorem spans_of_none {c : Char} {s : Text} (h : p.read (c :: s) = none) : p.spans (c :: s) = p.spans s := by
  rw [spans, pieces_of_none h]
  rfl

theorem spans_of_some {s rest : Text} {value : β} (h : p.read s = some (value, rest)) :
    p.spans s = value :: p.spans rest := by
  rw [spans, pieces_of_some h]
  rfl

end Pattern

namespace Phrase

/-- The character is not blank, and not written around the words of a phrase. -/
def isBare (c : Char) : Bool := !isBlank c && c ≠ '"' && c ≠ '-'

/-- Neither sweep finds a span around blanks. -/
def noBlankSpan (s : Text) : Bool :=
  let unmarked := s.filter fun c => !isMark c
  (negativePattern.spans unmarked).all Text.notBlank &&
    (positivePattern.spans (sweep negativePattern negativeTag unmarked).1).all Text.notBlank

/-! ### Spans among the atoms -/

section
variable {as rest : List Atom} {words : Text}

theorem text_of_opened (h : opened? as = some (words, rest)) :
    Atom.text as = (Atom.phrase false words).typed ++ Atom.text rest := by
  rw [(opened?_eq_some h).1]
  simp [Atom.typed]

theorem spans_of_opened (hplain : NoPlain as) (h : opened? as = some (words, rest)) (i : Nat) :
    positivePattern.spans (numbered i 0 as) = words :: positivePattern.spans (numbered i 0 rest) := by
  have hread := read_positive_numbered (i := i) hplain
  rw [h] at hread
  exact Pattern.spans_of_some hread

theorem spans_of_not_opened {c : Char} (hplain : NoPlain (.char c :: as)) (h : opened? (.char c :: as) = none)
    (i : Nat) : positivePattern.spans (numbered i 0 (.char c :: as)) = positivePattern.spans (numbered i 0 as) := by
  have hread := read_positive_numbered (i := i) hplain
  rw [h] at hread
  exact Pattern.spans_of_none hread

/-- The sweep for plain phrases passes over the placeholder of a negated one. -/
theorem spans_of_negated (i : Nat) :
    positivePattern.spans (numbered i 0 (.phrase true words :: as)) =
      positivePattern.spans (numbered (i + 1) 0 as) := by
  rw [numbered, Pattern.spans, pieces_positive_append_placeholder, List.filterMap_append]
  simp [Pattern.spans, List.filterMap_map]

end

/-! ### Characters that are kept -/

section
variable {keep : Char → Bool}

/-- Nothing is kept of spans around blanks. -/
def BlanksLost (keep : Char → Bool) (negated : Bool) (spans : List Text) : Prop :=
  ∀ words ∈ spans, words.notBlank = false → (Atom.phrase negated words).typed.filter keep = []

theorem filter_text_pad (hspace : keep ' ' = false) (as : List Atom) :
    (Atom.text (Atom.pad as)).filter keep = (Atom.text as).filter keep := by
  induction as with
  | nil => rfl
  | cons a as ih =>
    have ha : (Atom.text a.spaced).filter keep = a.typed.filter keep := by
      cases a with
      | char c => rfl
      | phrase negated words => simp [Atom.spaced, Atom.typed, hspace]
    rw [Atom.pad_cons, Atom.text_append, List.filter_append, ha, ih, Atom.text_cons, List.filter_append]

/-- The sweep for negated phrases, of which only blank spans are lost. -/
theorem filter_text_marked {s : Text} (h : BlanksLost keep true (negativePattern.spans s)) :
    (Atom.text (marked true (negativePattern.pieces s))).filter keep = s.filter keep := by
  fun_induction negativePattern.pieces s with
  | case1 => rfl
  | case2 c s words rest hread ih =>
    have hspan : c :: s = (Atom.phrase true words).typed ++ rest := by
      rw [(read_negative_eq_some hread).1]
      simp [Atom.typed]
    rw [Pattern.spans_of_some hread] at h
    obtain ⟨hlost, hlater⟩ := List.forall_mem_cons.mp h
    rw [marked, hspan, List.filter_append]
    split
    · rw [Atom.text_cons, List.filter_append, ih hlater]
    · next hb => rw [ih hlater, hlost (by simpa using hb), List.nil_append]
  | case3 c s hread ih =>
    rw [Pattern.spans_of_none hread] at h
    rw [marked, Atom.text_cons, List.filter_append, ih h, ← List.filter_append]
    rfl

/-- The sweep for plain phrases, which reads a text with the negated ones numbered. -/
theorem filter_text_plainPhrases {as : List Atom} (hplain : NoPlain as) (i : Nat)
    (h : BlanksLost keep false (positivePattern.spans (numbered i 0 as))) :
    (Atom.text (plainPhrases as)).filter keep = (Atom.text as).filter keep := by
  fun_induction plainPhrases as generalizing i with
  | case1 => rfl
  | case2 a as words rest hq hb ih =>
    rw [spans_of_opened hplain hq] at h
    obtain ⟨-, hlater⟩ := List.forall_mem_cons.mp h
    rw [text_of_opened hq, Atom.text_cons, List.filter_append, List.filter_append,
      ih (hplain.of_opened hq) i hlater]
  | case3 a as words rest hq hb ih =>
    rw [spans_of_opened hplain hq] at h
    obtain ⟨hlost, hlater⟩ := List.forall_mem_cons.mp h
    rw [text_of_opened hq, List.filter_append, hlost (by simpa using hb), List.nil_append,
      ih (hplain.of_opened hq) i hlater]
  | case4 a as hq ih =>
    rw [Atom.text_cons, Atom.text_cons, List.filter_append, List.filter_append]
    cases a with
    | char c =>
      rw [spans_of_not_opened hplain hq] at h
      rw [ih hplain.of_cons i h]
    | phrase negated words =>
      cases negated with
      | true =>
        rw [spans_of_negated] at h
        rw [ih hplain.of_cons (i + 1) h]
      | false => exact absurd hplain not_noPlain_cons

/-- Characters of a class without spaces are the same in a text and in what its phrases are put back to, if none of them
    stands in a blank span that a sweep takes out. -/
theorem filter_restored {s : Text} (hspace : keep ' ' = false)
    (hnegative : BlanksLost keep true (negativePattern.spans (s.filter fun c => !isMark c)))
    (hpositive : BlanksLost keep false
      (positivePattern.spans (sweep negativePattern negativeTag (s.filter fun c => !isMark c)).1)) :
    (Atom.text (Atom.pad (Atom.pad (scan s)))).filter keep = s.filter fun c => !isMark c && keep c := by
  have hnumbered : (sweep negativePattern negativeTag (s.filter fun c => !isMark c)).1 =
      numbered 0 0 (marked true (negativePattern.pieces (s.filter fun c => !isMark c))) := by
    rw [sweep, number_negative 0 0]
  rw [hnumbered] at hpositive
  calc (Atom.text (Atom.pad (Atom.pad (scan s)))).filter keep
      = (Atom.text (scan s)).filter keep := by rw [filter_text_pad hspace, filter_text_pad hspace]
    _ = (Atom.text (marked true (negativePattern.pieces (s.filter fun c => !isMark c)))).filter keep :=
      filter_text_plainPhrases (noPlain_marked s) 0 hpositive
    _ = (s.filter fun c => !isMark c).filter keep := filter_text_marked hnegative
    _ = s.filter fun c => !isMark c && keep c := by
      rw [List.filter_filter]
      simp only [Bool.and_comm]

end

theorem filter_isBare_typed {words : Text} (h : words.notBlank = false) (negated : Bool) :
    (Atom.phrase negated words).typed.filter isBare = [] := by
  have hwords : words.filter isBare = [] := List.filter_eq_nil_iff.mpr fun c hc => by
    simp [isBare, Text.notBlank_eq_false_iff.mp h c hc]
  cases negated <;> simp [Atom.typed, hwords, isBare]

/-- Phrases are put back where they stood, and putting them back does not fail: but for blanks, quotes and dashes
    nothing of the text is lost or moved, and if neither sweep finds a blank span, nothing but blanks is. Marks of
    placeholders are not text. -/
theorem restore_extract (s : Text) :
    ∃ w, restore (extract s).2 (extract s).1 = .ok w ∧
      w.filter isBare = (s.filter fun c => !isMark c && isBare c) ∧
      (noBlankSpan s = true →
        (w.filter fun c => !isBlank c) = s.filter fun c => !isMark c && !isBlank c) := by
  refine ⟨_, (reads_extract s).restore_eq, ?_, fun hspans => ?_⟩
  · exact filter_restored rfl (fun words _ hb => filter_isBare_typed hb true)
      fun words _ hb => filter_isBare_typed hb false
  · rw [noBlankSpan, Bool.and_eq_true, List.all_eq_true, List.all_eq_true] at hspans
    obtain ⟨hnegative, hpositive⟩ := hspans
    exact filter_restored rfl (fun words hwords hb => absurd (hnegative words hwords) (by simp [hb]))
      fun words hwords hb => absurd (hpositive words hwords) (by simp [hb])

/-- A plain phrase around a dash, a negated one, a mark of placeholders, and a quote that is left over. -/
theorem restore_extract_quoted :
    ∃ w, restore (extract "a\"- b\"\ue000 -\"c\" d\"".toList).2 (extract "a\"- b\"\ue000 -\"c\" d\"".toList).1 = .ok w ∧
      (w.filter fun c => !isBlank c) = "a\"-b\"-\"c\"d\"".toList := by
  obtain ⟨w, hw, -, hkept⟩ := restore_extract "a\"- b\"\ue000 -\"c\" d\"".toList
  exact ⟨w, hw, (hkept (by decide +kernel)).trans (by decide)⟩

end Phrase
end SearchQuery
