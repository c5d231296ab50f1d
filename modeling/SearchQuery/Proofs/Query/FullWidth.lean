import SearchQuery.Proofs.Layer.Filling
import SearchQuery.Proofs.Query.Total

/-! Full-width symbols mean the same as ASCII ones. Symbols are normalized after phrases are taken out, so normalizing a
    query beforehand changes nothing but the words of its phrases. No phrase is found or lost by it, since neither
    quotes nor dashes nor blanks change their kind (`scan_normalizeSymbols`), and the layers keep their shape whatever
    words stand in phrases (`Layer.direct_mapWords`). -/

namespace SearchQuery

open Text (normalizeSymbol normalizeSymbols)

/-- Symbols brought into ASCII, in phrases too. -/
def Renaming.symbols : Renaming where
  char := normalizeSymbol
  words := Text.normalizeSymbols
  isBlank_char := Text.isBlank_normalizeSymbol
  notBlank_words := Text.notBlank_normalizeSymbols
  char_eq_dash_iff := Text.normalizeSymbol_eq_iff (by decide)
  char_mem_iff op forms hforms c := by
    -- No letter of a connective is a symbol or the ASCII form of one.
    have hletters : ∀ d ∈ forms, d ∉ ['（', '）', '\u3000', '(', ')', ' '] := by
      cases op <;>
        simp only [Connective.letters, List.mem_cons, List.not_mem_nil, or_false] at hforms <;>
        rcases hforms with rfl | rfl | rfl <;> exact List.all_iff_forall_prop.mp (by decide)
    constructor
    · intro h
      exact (Text.normalizeSymbol_eq_iff (hletters _ h) c).mp rfl ▸ h
    · intro h
      exact ((Text.normalizeSymbol_eq_iff (hletters c h) c).mpr rfl).symm ▸ h

/-! ### Phrases -/

namespace Phrase

open Renaming (symbols)

theorem isMark_normalizeSymbol (c : Char) : isMark (normalizeSymbol c) = isMark c := by
  have hopen := Text.normalizeSymbol_eq_iff (d := openMark) (by decide) c
  have hclose := Text.normalizeSymbol_eq_iff (d := closeMark) (by decide) c
  simp only [isMark, hopen, hclose]

theorem normalizeSymbol_eq_quote_iff (c : Char) : normalizeSymbol c = '"' ↔ c = '"' :=
  Text.normalizeSymbol_eq_iff (by decide) c

theorem read_negative_normalizeSymbols (s : Text) :
    negativePattern.read s.normalizeSymbols =
      (negativePattern.read s).map fun (words, rest) => (words.normalizeSymbols, rest.normalizeSymbols) := by
  have hinside : ∀ c, decide (normalizeSymbol c ≠ '"') = decide (c ≠ '"') := fun c => by
    simp only [ne_eq, normalizeSymbol_eq_quote_iff]
  have hdash : ∀ c, normalizeSymbol c = '-' ↔ c = '-' := Text.normalizeSymbol_eq_iff (by decide)
  cases s with
  | nil => rfl
  | cons c s =>
    show negativePattern.read (normalizeSymbol c :: normalizeSymbols s) = _
    by_cases hc : c = '-'
    · subst hc
      rw [(hdash '-').mpr rfl]
      cases s with
      | nil => rfl
      | cons d s =>
        show negativePattern.read ('-' :: normalizeSymbol d :: normalizeSymbols s) = _
        by_cases hd : d = '"'
        · subst hd
          rw [(normalizeSymbol_eq_quote_iff '"').mpr rfl]
          exact Text.upTo?_map hinside normalizeSymbol_eq_quote_iff s
        · rw [read_negative_of_not_opens (opensPhrase_of_ne (mt (normalizeSymbol_eq_quote_iff d).mp hd) _),
            read_negative_of_not_opens (opensPhrase_of_ne hd s)]
          rfl
    · rw [read_negative_of_ne (mt (hdash c).mp hc), read_negative_of_ne hc]
      rfl

theorem marked_normalizeSymbols (s : Text) :
    marked true (negativePattern.pieces s.normalizeSymbols) =
      (marked true (negativePattern.pieces s)).map (Atom.rename symbols) := by
  fun_induction negativePattern.pieces s with
  | case1 =>
    show marked true (negativePattern.pieces []) = _
    rw [Pattern.pieces_nil]
    rfl
  | case2 c s words rest h ih =>
    have hread := read_negative_normalizeSymbols (c :: s)
    rw [h] at hread
    rw [Pattern.pieces_of_some hread, marked, marked, ih, Text.notBlank_normalizeSymbols]
    split <;> rfl
  | case3 c s h ih =>
    have hread := read_negative_normalizeSymbols (c :: s)
    rw [h] at hread
    have hnone : negativePattern.read (normalizeSymbol c :: normalizeSymbols s) = none := hread
    show marked true (negativePattern.pieces (normalizeSymbol c :: normalizeSymbols s)) = _
    rw [Pattern.pieces_of_none hnone, marked, marked, ih]
    rfl

theorem quoted?_rename (as : List Atom) :
    quoted? (as.map (Atom.rename symbols)) =
      (quoted? as).map fun (words, rest) => (words.normalizeSymbols, rest.map (Atom.rename symbols)) := by
  fun_induction quoted? as with
  | case1 as => rfl
  | case2 c as hc ih =>
    have hc' : normalizeSymbol c ≠ '"' := mt (normalizeSymbol_eq_quote_iff c).mp hc
    show quoted? (.char (normalizeSymbol c) :: as.map (Atom.rename symbols)) = _
    rw [quoted?, if_neg hc', ih, Option.map_map, Option.map_map]
    rfl
  | case3 as hne =>
    cases as with
    | nil => rfl
    | cons a as =>
      cases a with
      | char c => exact absurd rfl (hne c as)
      | phrase => rfl

theorem opened?_rename (as : List Atom) :
    opened? (as.map (Atom.rename symbols)) =
      (opened? as).map fun (words, rest) => (words.normalizeSymbols, rest.map (Atom.rename symbols)) := by
  cases as with
  | nil => rfl
  | cons a as =>
    cases a with
    | phrase => rfl
    | char c =>
      show opened? (.char (normalizeSymbol c) :: as.map (Atom.rename symbols)) = _
      rw [opened?, opened?]
      simp only [normalizeSymbol_eq_quote_iff]
      split
      · exact quoted?_rename as
      · rfl

theorem plainPhrases_rename (as : List Atom) :
    plainPhrases (as.map (Atom.rename symbols)) = (plainPhrases as).map (Atom.rename symbols) := by
  fun_induction plainPhrases as with
  | case1 => rw [List.map_nil, plainPhrases]
  | case2 a as words rest hq hb ih =>
    have hopened := opened?_rename (a :: as)
    rw [hq] at hopened
    rw [plainPhrases_of_some hopened (by rw [Text.notBlank_normalizeSymbols, hb]), ih]
    rfl
  | case3 a as words rest hq hb ih =>
    have hopened := opened?_rename (a :: as)
    rw [hq] at hopened
    rw [plainPhrases_of_blank hopened (by simpa [Text.notBlank_normalizeSymbols] using hb), ih]
  | case4 a as hq ih =>
    have hopened := opened?_rename (a :: as)
    rw [hq] at hopened
    rw [List.map_cons, plainPhrases_of_none hopened, ih, List.map_cons]

/-- The atoms of a text are the same before and after its symbols are brought into ASCII, but for these symbols. -/
theorem scan_normalizeSymbols (s : Text) : scan s.normalizeSymbols = (scan s).map (Atom.rename symbols) := by
  have hfilter : s.normalizeSymbols.filter (fun c => !isMark c) = normalizeSymbols (s.filter fun c => !isMark c) := by
    rw [Text.normalizeSymbols, List.filter_map]
    simp only [Function.comp_def, isMark_normalizeSymbol]
    rfl
  rw [scan, scan, hfilter, marked_normalizeSymbols, plainPhrases_rename]

end Phrase

/-! ### Queries -/

namespace Atom

open Renaming (symbols)

theorem pad_map_rename (as : List Atom) : pad (as.map (rename symbols)) = (pad as).map (rename symbols) := by
  induction as with
  | nil => rfl
  | cons a as ih =>
    rw [List.map_cons, pad_cons, pad_cons, ih, List.map_append]
    cases a <;> rfl

theorem normalize_rename (a : Atom) : (a.rename symbols).normalize = a.normalize.mapWords normalizeSymbols := by
  cases a with
  | char c => exact congrArg char (Text.normalizeSymbol_idem c)
  | phrase => rfl

/-- The atom is no symbol that has an ASCII form. -/
def IsNormal : Atom → Prop
  | .char c => normalizeSymbol c = c
  | .phrase _ _ => True

theorem isNormal_normalize (a : Atom) : a.normalize.IsNormal := by
  cases a with
  | char c => exact Text.normalizeSymbol_idem c
  | phrase => trivial

theorem map_mapWords_of_isNormal {as : List Atom} (h : ∀ a ∈ as, a.IsNormal) :
    as.map (mapWords normalizeSymbols) = as.map (rename symbols) := by
  refine List.map_congr_left fun a ha => ?_
  cases a with
  | char c => exact congrArg char (h _ ha).symm
  | phrase => rfl

theorem text_map_rename (as : List Atom) : text (as.map (rename symbols)) = (text as).normalizeSymbols := by
  induction as with
  | nil => rfl
  | cons a as ih =>
    rw [List.map_cons, text_cons, ih, text_cons, Text.normalizeSymbols, Text.normalizeSymbols, List.map_append]
    congr 1
    cases a with
    | char c => rfl
    | phrase negated words =>
      cases negated <;> simp [rename, symbols, typed, Text.normalizeSymbols, Text.normalizeSymbol]

end Atom

open Renaming (symbols)

theorem Segment.read_normalizeSymbols (s : Text) : read s.normalizeSymbols = (read s).rename symbols := by
  rw [read_eq, read_eq, Phrase.scan_normalizeSymbols, ofAtoms_rename]

theorem Layer.atoms_normalizeSymbols (query : Text) :
    atoms query.normalizeSymbols = (atoms query).map (Atom.mapWords normalizeSymbols) := by
  rw [atoms, Text.normalizeQuotes_normalizeSymbols, Phrase.scan_normalizeSymbols, Atom.pad_map_rename, List.map_map,
    atoms, List.map_map]
  exact List.map_congr_left fun a _ => Atom.normalize_rename a

/-- A query with its symbols in ASCII asks for the same as before, but for the symbols in its leaves. -/
theorem Query.parse_normalizeSymbols (settings : Settings) (query : Text) :
    ∃ c, parse settings query = .ok c ∧
      parse settings query.normalizeSymbols = .ok (c.mapLeaves normalizeSymbols normalizeSymbols) := by
  refine ⟨_, parse_eq settings query, ?_⟩
  rw [parse_eq, Layer.atoms_normalizeSymbols]
  refine congrArg Except.ok (Layer.direct_mapWords (ρ := symbols) settings fun r hr => ?_)
  have hatoms : ∀ a ∈ Layer.atoms query, a.IsNormal := fun a ha => by
    obtain ⟨b, -, rfl⟩ := List.mem_map.mp ha
    exact Atom.isNormal_normalize b
  have hsymbol : (Atom.char '(').IsNormal ∧ (Atom.char ' ').IsNormal := ⟨rfl, rfl⟩
  have hrun : ∀ a ∈ r, a.IsNormal :=
    Nest.forall_mem_runsFrom hsymbol.2 (Layer.each_nest hsymbol.1 settings hatoms) (by simp) r hr
  rw [Atom.map_mapWords_of_isNormal hrun, Atom.text_map_rename, Segment.read_normalizeSymbols]

end SearchQuery
