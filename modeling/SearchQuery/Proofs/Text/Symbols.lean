import SearchQuery.Text.Blank
import SearchQuery.Text.Symbols

/-! Symbols in ASCII. Of all characters only the full-width brackets and the ideographic space change, each into a
    character of the same kind, so a text without them and without closing quotes stays as it is. -/

namespace SearchQuery.Text

/-- A symbol comes out in ASCII, and any other character as it is. -/
theorem normalizeSymbol_cases (c : Char) :
    (c = '（' ∧ normalizeSymbol c = '(') ∨ (c = '）' ∧ normalizeSymbol c = ')') ∨
      (c = '\u3000' ∧ normalizeSymbol c = ' ') ∨ (c ≠ '（' ∧ c ≠ '）' ∧ normalizeSymbol c = c) := by
  unfold normalizeSymbol
  split
  · next hopen => exact Or.inl ⟨hopen, rfl⟩
  · next hopen =>
    split
    · next hclose => exact Or.inr (Or.inl ⟨hclose, rfl⟩)
    · next hclose =>
      split
      · next hspace => exact Or.inr (Or.inr (Or.inl ⟨hspace, rfl⟩))
      · exact Or.inr (Or.inr (Or.inr ⟨hopen, hclose, rfl⟩))

/-- What holds of the ASCII symbols and of a character holds of what the character comes out as. -/
theorem normalizeSymbol_induction {p : Char → Prop} (hopen : p '(') (hclose : p ')') (hspace : p ' ') {c : Char}
    (hc : p c) : p (normalizeSymbol c) := by
  rcases normalizeSymbol_cases c with ⟨-, h⟩ | ⟨-, h⟩ | ⟨-, h⟩ | ⟨-, -, h⟩
  · exact h ▸ hopen
  · exact h ▸ hclose
  · exact h ▸ hspace
  · exact h.symm ▸ hc

theorem normalizeSymbol_eq_self {c : Char} (hopen : c ≠ '（') (hclose : c ≠ '）') (hspace : c ≠ '\u3000') :
    normalizeSymbol c = c := by
  rw [normalizeSymbol, if_neg hopen, if_neg hclose, if_neg hspace]

/-- No character but a symbol comes out as one that is neither a symbol nor the ASCII form of one. -/
theorem normalizeSymbol_eq_iff {d : Char} (h : d ∉ ['（', '）', '\u3000', '(', ')', ' ']) (c : Char) :
    normalizeSymbol c = d ↔ c = d := by
  simp only [List.mem_cons, List.not_mem_nil, or_false, not_or] at h
  obtain ⟨hopen, hclose, hspace, hopen', hclose', hspace'⟩ := h
  constructor
  · intro heq
    rcases normalizeSymbol_cases c with ⟨-, h⟩ | ⟨-, h⟩ | ⟨-, h⟩ | ⟨-, -, h⟩
    · exact absurd (heq.symm.trans h) hopen'
    · exact absurd (heq.symm.trans h) hclose'
    · exact absurd (heq.symm.trans h) hspace'
    · exact h.symm.trans heq
  · rintro rfl
    exact normalizeSymbol_eq_self hopen hclose hspace

theorem normalizeSymbol_idem (c : Char) : normalizeSymbol (normalizeSymbol c) = normalizeSymbol c := by
  rcases normalizeSymbol_cases c with ⟨-, h⟩ | ⟨-, h⟩ | ⟨-, h⟩ | ⟨-, -, h⟩
  · rw [h]; rfl
  · rw [h]; rfl
  · rw [h]; rfl
  · rw [h, h]

theorem isBlank_normalizeSymbol (c : Char) : isBlank (normalizeSymbol c) = isBlank c := by
  rcases normalizeSymbol_cases c with ⟨rfl, -⟩ | ⟨rfl, -⟩ | ⟨rfl, -⟩ | ⟨-, -, h⟩
  · rfl
  · rfl
  · rfl
  · rw [h]

theorem notBlank_normalizeSymbols (s : Text) : s.normalizeSymbols.notBlank = s.notBlank := by
  rw [notBlank, notBlank, normalizeSymbols, List.any_map]
  simp only [Function.comp_def, isBlank_normalizeSymbol]

theorem ne_of_mem_normalizeQuotes {s : Text} : ∀ c ∈ s.normalizeQuotes, c ≠ '”' := by
  intro c hc
  obtain ⟨d, -, rfl⟩ := List.mem_map.mp hc
  rw [normalizeQuote]
  split
  · simp
  · assumption

theorem normalizeQuotes_eq_self {s : Text} (h : ∀ c ∈ s, c ≠ '”') : s.normalizeQuotes = s :=
  (List.map_congr_left fun c hc => if_neg (h c hc)).trans (List.map_id s)

/-- Quotes and the other symbols are brought into ASCII apart, so either can come first. -/
theorem normalizeQuotes_normalizeSymbols (s : Text) :
    s.normalizeSymbols.normalizeQuotes = s.normalizeQuotes.normalizeSymbols := by
  have hquote : normalizeSymbol '"' = '"' := by decide
  rw [normalizeQuotes, normalizeSymbols, normalizeSymbols, normalizeQuotes, List.map_map, List.map_map]
  refine List.map_congr_left fun c _ => ?_
  have hclosing := normalizeSymbol_eq_iff (d := '”') (by decide) c
  simp only [Function.comp_apply, normalizeQuote, hclosing]
  split
  · exact hquote.symm
  · rfl

end SearchQuery.Text
