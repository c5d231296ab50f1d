import SearchQuery.Proofs.Layer.Filling
import SearchQuery.Proofs.Layer.Pairing
import SearchQuery.Proofs.Query.Margins

/-! Parts of a query that can be put for each other. Two texts between blanks that hold words of the same meaning are
    read alike wherever they stand, since blanks keep their words apart from those around them. To see that nothing else
    depends on which of them stands in a query, a character that no query keeps is put in their place; the brackets are
    paired around that character, and then either text is filled in for it (`Layer.direct_interchange`). -/

namespace SearchQuery

open Skeleton (direct)

/-! ### Words of the same meaning -/

/-- The words spell the same connective, or ask for the same. -/
def Word.Same (v w : Word) : Prop := (∀ op : Connective, v.spells op = w.spells op) ∧ v.condition? = w.condition?

theorem Word.Same.refl (w : Word) : Same w w := ⟨fun _ => rfl, rfl⟩

/-- Spellings of one connective mean the same. -/
theorem Word.same_of_spells {op : Connective} {v w : Word} (hv : v.spells op = true) (hw : w.spells op = true) :
    Same v w := by
  refine ⟨fun op' => ?_, by rw [condition?_of_spells hv, condition?_of_spells hw]⟩
  by_cases hop : op' = op
  · rw [hop, hv, hw]
  · have hother : ∀ {u : Word}, u.spells op = true → u.spells op' = false := fun hu => by
      rw [Bool.eq_false_iff]
      exact fun hu' => hop (eq_of_spells hu' hu)
    rw [hother hv, hother hw]

theorem Word.runs_congr {vs ws : List Word} (h : List.Forall₂ Same vs ws) : runs vs = runs ws := by
  induction h with
  | nil => rfl
  | cons hw _ ih => rw [runs_cons, runs_cons, hw.1, hw.2, ih]

/-- Atoms with words of the same meaning are the same segment if they start and end alike. -/
theorem Segment.ofAtoms_congr {as bs : List Atom} (hwords : List.Forall₂ Word.Same (Atom.words as) (Atom.words bs))
    (hhead : as.head?.any Atom.isBlank = bs.head?.any Atom.isBlank)
    (hlast : as.getLast?.any Atom.isBlank = bs.getLast?.any Atom.isBlank) : ofAtoms as = ofAtoms bs := by
  have hspells : ∀ (op : Connective) (v w : Word), v.Same w → v.spells op = w.spells op := fun op _ _ h => h.1 op
  rw [ofAtoms, ofAtoms, Segment.mk.injEq, hhead, hlast]
  have hleft := forall₂_undelimited (hspells .and) (bs.head?.any Atom.isBlank) (bs.getLast?.any Atom.isBlank) hwords
  exact ⟨any_head?_of_forall₂ (hspells .or) hleft, by rw [Word.runs_congr hwords],
    any_getLast?_of_forall₂ (hspells .or) hleft⟩

/-! ### Texts between blanks -/

/-- The texts mean the same word for word. -/
def Text.SameWords (u v : Text) : Prop := List.Forall₂ (fun s t => Word.Same (.term s) (.term t)) u.words v.words

/-- The text can be cut out of a query: it starts and ends with a blank, and has no bracket, quote or mark of a
    placeholder. -/
structure Text.Severable (u : Text) : Prop where
  startsBlank : u.startsBlank = true
  endsBlank : u.endsBlank = true
  plain : ∀ c ∈ u, Nest.isBracket (.char c) = false ∧ c ≠ '"' ∧ Phrase.isMark c = false

namespace Text

variable {u v s t : Text}

/-- The words of the texts mean the same, and the words that they start with are the same. -/
def Alike (s t : Text) : Prop :=
  (wordsFrom s).1 = (wordsFrom t).1 ∧
    List.Forall₂ (fun x y => Word.Same (.term x) (.term y)) (wordsFrom s).2 (wordsFrom t).2

theorem Alike.sameWords (h : Alike s t) : SameWords s t := by
  rw [SameWords, words_eq, words_eq, h.1]
  split
  · exact h.2
  · exact .cons (.refl _) h.2

theorem Alike.cons (h : Alike s t) (c : Char) : Alike (c :: s) (c :: t) := by
  rw [Alike, wordsFrom_cons, wordsFrom_cons, h.1]
  split
  · exact ⟨rfl, h.sameWords⟩
  · exact ⟨rfl, h.2⟩

theorem Severable.exists_cons (h : Severable u) : ∃ c later, u = c :: later ∧ isBlank c = true := by
  cases u with
  | nil => exact absurd h.startsBlank (by decide)
  | cons c later => exact ⟨c, later, rfl, h.startsBlank⟩

theorem Severable.exists_concat (h : Severable u) : ∃ earlier c, u = earlier ++ [c] ∧ isBlank c = true := by
  rcases List.eq_nil_or_concat u with rfl | ⟨earlier, c, rfl⟩
  · exact absurd h.endsBlank (by decide)
  · have hblank := h.endsBlank
    rw [List.concat_eq_append, Text.endsBlank, List.getLast?_concat] at hblank
    exact ⟨earlier, c, List.concat_eq_append, hblank⟩

theorem Severable.words_append (h : Severable u) (s : Text) : words (u ++ s) = words u ++ words s := by
  obtain ⟨earlier, c, rfl, hc⟩ := h.exists_concat
  rw [List.append_assoc, List.singleton_append, Text.words_append (atBlank_cons hc s), words_cons_blank hc,
    words_append_blank earlier hc]

theorem Severable.atBlank (h : Severable u) (s : Text) : AtBlank (u ++ s) := by
  obtain ⟨c, later, rfl, hc⟩ := h.exists_cons
  exact atBlank_cons hc (later ++ s)

/-- Texts between blanks mean the same before texts that do. -/
theorem Alike.append (hu : Severable u) (hv : Severable v) (huv : SameWords u v) (h : Alike s t) :
    Alike (u ++ s) (v ++ t) := by
  rw [Alike, wordsFrom_of_atBlank (hu.atBlank s), wordsFrom_of_atBlank (hv.atBlank t), hu.words_append, hv.words_append]
  exact ⟨rfl, List.rel_append huv h.sameWords⟩

theorem notBlank_eq_of_sameWords (h : SameWords u v) : u.notBlank = v.notBlank := by
  have hnil : words u = [] ↔ words v = [] := by
    rw [← List.length_eq_zero_iff, ← List.length_eq_zero_iff, h.length_eq]
  rw [words_eq_nil_iff, words_eq_nil_iff] at hnil
  rwa [Bool.eq_iff_iff, ← not_iff_not, Bool.not_eq_true, Bool.not_eq_true]

end Text

/-! ### Filling in for a character -/

open Text (Severable SameWords Alike)

/-- The text in place of a character that is no bracket and no dash, and blank only if the text is. -/
def Filling.single (m : Char) (u : Text) (hu : Severable u) (hkept : m ∉ ['(', ')', '-', ' '])
    (hblank : u.notBlank = !isBlank m) : Filling where
  char c := if c = m then u else [c]
  words := id
  char_of_kept c hc := if_neg fun heq : c = m => hkept (heq ▸ hc)
  isBracket_of_mem c hc d hd := by
    split at hd
    · exact (hu.plain d hd).1
    · exact List.mem_singleton.mp hd ▸ hc
  notBlank_char c := by
    split
    · next heq => rw [heq, hblank]
    · exact Bool.or_false _
  getLast?_char c hc := by
    split
    · obtain ⟨earlier, d, rfl, hd⟩ := hu.exists_concat
      refine ⟨d, List.getLast?_concat, ?_⟩
      rintro rfl
      exact absurd hd (by decide)
    · exact ⟨c, rfl, hc⟩

variable {u v : Text} {m : Char}

/-- The text with another in place of a character. -/
def Text.put (s : Text) (m : Char) (u : Text) : Text := s.flatMap fun c => if c = m then u else [c]

theorem flatMap_fill_single (hu : Severable u) (hkept : m ∉ ['(', ')', '-', ' ']) (hblank : u.notBlank = !isBlank m)
    (s : Text) : (s.map Atom.char).flatMap (Atom.fill (.single m u hu hkept hblank)) = (s.put m u).map .char := by
  rw [Text.put, List.flatMap_map, List.map_flatMap]
  rfl

namespace Text

variable (hu : Severable u) (hv : Severable v) (huv : SameWords u v)

include hu hv huv in
theorem alike_put (m : Char) (s : Text) : Alike (s.put m u) (s.put m v) := by
  induction s with
  | nil => exact ⟨rfl, .nil⟩
  | cons c s ih =>
    rw [put, put, List.flatMap_cons, List.flatMap_cons]
    split
    · exact ih.append hu hv huv
    · exact ih.cons c

include hu hv in
theorem startsBlank_put (m : Char) (s : Text) : (s.put m u).startsBlank = (s.put m v).startsBlank := by
  cases s with
  | nil => rfl
  | cons c s =>
    rw [put, put, List.flatMap_cons, List.flatMap_cons]
    split
    · obtain ⟨d, later, rfl, hd⟩ := hu.exists_cons
      obtain ⟨e, later', rfl, he⟩ := hv.exists_cons
      exact hd.trans he.symm
    · rfl

include hu hv in
theorem endsBlank_put (m : Char) (s : Text) : (s.put m u).endsBlank = (s.put m v).endsBlank := by
  rcases List.eq_nil_or_concat s with rfl | ⟨s, c, rfl⟩
  · rfl
  · rw [List.concat_eq_append, put, put, List.flatMap_append, List.flatMap_append, List.flatMap_singleton,
      List.flatMap_singleton, Text.endsBlank, Text.endsBlank]
    split
    · obtain ⟨earlier, d, rfl, hd⟩ := hu.exists_concat
      obtain ⟨earlier', e, rfl, he⟩ := hv.exists_concat
      rw [← List.append_assoc, ← List.append_assoc, List.getLast?_concat, List.getLast?_concat]
      exact hd.trans he.symm
    · rw [List.getLast?_concat, List.getLast?_concat]

theorem put_append_cons {x y : Text} (hx : m ∉ x) (hy : m ∉ y) (u : Text) : (x ++ m :: y).put m u = x ++ u ++ y := by
  have hother : ∀ {t : Text}, m ∉ t → t.flatMap (fun c => if c = m then u else [c]) = t := fun {t} ht => by
    have hsame : ∀ c ∈ t, (if c = m then u else [c]) = [c] := fun c hc => if_neg fun heq : c = m => ht (heq ▸ hc)
    rw [List.flatMap_congr hsame]
    exact List.flatMap_singleton' t
  rw [put, List.flatMap_append, List.flatMap_cons, if_pos rfl, hother hx, hother hy, List.append_assoc]

end Text

/-! ### Reading what is filled in -/

/-- A character of a text without quotes and marks, or the one that something is to be filled in for. -/
def Fillable (m c : Char) : Prop := c = m ∨ c ≠ '"' ∧ Phrase.isMark c = false

theorem scan_put (hu : Severable u) {s : Text} (hs : ∀ c ∈ s, Fillable m c) :
    Phrase.scan (s.put m u) = (s.put m u).map .char := by
  refine Phrase.scan_of_plain fun c hc => ?_
  obtain ⟨d, hd, hc⟩ := List.mem_flatMap.mp hc
  split at hc
  · exact (hu.plain c hc).2
  · next hne =>
    rw [List.mem_singleton.mp hc]
    exact (hs d hd).resolve_left hne

/-- A text is read alike with either of two texts in place of a character. -/
theorem read_put (hu : Severable u) (hv : Severable v) (huv : SameWords u v) {s : Text} (hs : ∀ c ∈ s, Fillable m c) :
    Segment.read (s.put m u) = Segment.read (s.put m v) := by
  have hwords := (Text.alike_put hu hv huv m s).sameWords
  have hhead : ∀ t : Text, (t.map Atom.char).head?.any Atom.isBlank = t.startsBlank := fun t => by
    rw [List.head?_map, Option.any_map]
    rfl
  have hlast : ∀ t : Text, (t.map Atom.char).getLast?.any Atom.isBlank = t.endsBlank := fun t => by
    rw [List.getLast?_map, Option.any_map]
    rfl
  rw [Segment.read_eq, Segment.read_eq, scan_put hu hs, scan_put hv hs]
  refine Segment.ofAtoms_congr ?_ ?_ ?_
  · rw [Atom.words_map_char, Atom.words_map_char, List.forall₂_map_left_iff, List.forall₂_map_right_iff]
    exact hwords
  · rw [hhead, hhead, Text.startsBlank_put hu hv]
  · rw [hlast, hlast, Text.endsBlank_put hu hv]

theorem exists_eq_map_char {p : Char → Prop} {r : List Atom} (h : ∀ a ∈ r, Nest.IsChar p a) :
    ∃ s : Text, r = s.map .char ∧ ∀ c ∈ s, p c := by
  induction r with
  | nil => exact ⟨[], rfl, by simp⟩
  | cons a r ih =>
    obtain ⟨c, rfl, hc⟩ := h a List.mem_cons_self
    obtain ⟨s, rfl, hs⟩ := ih fun b hb => h b (List.mem_cons_of_mem _ hb)
    exact ⟨c :: s, rfl, List.forall_mem_cons.mpr ⟨hc, hs⟩⟩

theorem direct_put (settings : Settings) (hu : Severable u) (hv : Severable v) (huv : SameWords u v)
    (hkept : m ∉ ['(', ')', '-', ' ']) (hblank : u.notBlank = !isBlank m) {s : Text} (hs : ∀ c ∈ s, Fillable m c) :
    direct (Layer.nest settings ((s.put m u).map .char)).nodes =
      direct (Layer.nest settings ((s.put m v).map .char)).nodes := by
  have hblank' : v.notBlank = !isBlank m := (Text.notBlank_eq_of_sameWords huv).symm.trans hblank
  have hchar : ∀ a ∈ s.map Atom.char, Nest.IsChar (Fillable m) a := fun a ha => by
    obtain ⟨c, hc, rfl⟩ := List.mem_map.mp ha
    exact ⟨c, rfl, hs c hc⟩
  have hopen : Nest.IsChar (Fillable m) (.char '(') := ⟨'(', rfl, Or.inr (by decide)⟩
  have hspace : Nest.IsChar (Fillable m) (.char ' ') := ⟨' ', rfl, Or.inr (by decide)⟩
  rw [← flatMap_fill_single hu hkept hblank, ← flatMap_fill_single hv hkept hblank']
  rw [Layer.direct_fill (ρ := .refl) settings fun r hr => ?_, Condition.rename_refl]
  obtain ⟨t, rfl, ht⟩ := exists_eq_map_char (Nest.forall_mem_runsFrom hspace (Layer.each_nest hopen settings hchar)
    (by simp) r hr)
  rw [ReadAlike, flatMap_fill_single, flatMap_fill_single, Atom.text_map_char, Atom.text_map_char,
    read_put hu hv huv ht, Segment.rename, Condition.rename_refl]

/-! ### Queries -/

namespace Query

/-- The query has no quotes. -/
def Quoteless (query : Text) : Prop := ∀ c ∈ query, c ≠ '"' ∧ c ≠ '”'

instance : DecidablePred Quoteless := fun query => List.decidableBAll _ query

/-- What is read of a query without quotes: its characters but for the marks of placeholders, with its symbols in
    ASCII. -/
def visible (query : Text) : Text := Text.normalizeSymbols (query.filter fun c => !Phrase.isMark c)

variable {query x y : Text}

theorem Quoteless.append (hx : Quoteless x) (hy : Quoteless y) : Quoteless (x ++ y) := by
  intro c hc
  rcases List.mem_append.mp hc with hc | hc
  · exact hx c hc
  · exact hy c hc

theorem Quoteless.of_append (h : Quoteless (x ++ y)) : Quoteless x ∧ Quoteless y :=
  ⟨fun c hc => h c (List.mem_append_left y hc), fun c hc => h c (List.mem_append_right x hc)⟩

theorem quoteless_of_blank {b : Text} (hb : Text.Blank b) : Quoteless b := by
  intro c hc
  refine ⟨(Text.ne_of_isBlank (hb c hc)).1, ?_⟩
  rintro rfl
  exact absurd (hb _ hc) (by decide)

theorem visible_append (x y : Text) : visible (x ++ y) = visible x ++ visible y := by
  rw [visible, List.filter_append, Text.normalizeSymbols, List.map_append]
  rfl

theorem mem_visible {c : Char} (h : c ∈ visible query) (hquery : Quoteless query) :
    c ≠ '"' ∧ Phrase.isMark c = false ∧ c ≠ '\u3000' := by
  obtain ⟨d, hd, rfl⟩ := List.mem_map.mp h
  obtain ⟨hd, hmark⟩ := List.mem_filter.mp hd
  refine ⟨?_, ?_, ?_⟩
  · exact Text.normalizeSymbol_induction (p := (· ≠ '"')) (by decide) (by decide) (by decide) (hquery d hd).1
  · exact Text.normalizeSymbol_induction (p := fun c => Phrase.isMark c = false) rfl rfl rfl (by simpa using hmark)
  · rcases Text.normalizeSymbol_cases d with ⟨-, h⟩ | ⟨-, h⟩ | ⟨-, h⟩ | ⟨-, -, h⟩
    · rw [h]; decide
    · rw [h]; decide
    · rw [h]; decide
    · rw [h]
      rintro rfl
      exact absurd h (by decide)

theorem parse_of_quoteless (settings : Settings) (h : Quoteless query) :
    parse settings query = .ok (direct (Layer.nest settings ((visible query).map .char)).nodes) := by
  rw [parse_eq, Layer.atoms_of_no_quote h]
  rfl

/-- Texts between blanks whose words mean the same can be put for each other. -/
theorem parse_interchange (settings : Settings) (hx : Quoteless x) (hy : Quoteless y) (hqu : Quoteless u)
    (hqv : Quoteless v) (hu : Severable (visible u)) (hv : Severable (visible v))
    (huv : SameWords (visible u) (visible v)) : parse settings (x ++ u ++ y) = parse settings (x ++ v ++ y) := by
  -- Neither of the two characters is kept in a query; one of them is blank.
  obtain ⟨m, hkept, hblank, hmark⟩ : ∃ m, m ∉ ['(', ')', '-', ' '] ∧ (visible u).notBlank = !isBlank m ∧
      (Phrase.isMark m = true ∨ m = '\u3000') := by
    cases hb : (visible u).notBlank with
    | true => exact ⟨Phrase.openMark, by decide, rfl, Or.inl rfl⟩
    | false => exact ⟨'\u3000', by decide, rfl, Or.inr rfl⟩
  have hfresh : ∀ {z : Text}, Quoteless z → m ∉ visible z := fun hz hm => by
    obtain ⟨-, hnone, hspace⟩ := mem_visible hm hz
    rcases hmark with h | h
    · rw [h] at hnone
      cases hnone
    · exact hspace h
  have hfillable : ∀ c ∈ visible x ++ m :: visible y, Fillable m c := fun c hc => by
    rcases List.mem_append.mp hc with hc | hc
    · exact Or.inr ⟨(mem_visible hc hx).1, (mem_visible hc hx).2.1⟩
    · rcases List.mem_cons.mp hc with rfl | hc
      · exact Or.inl rfl
      · exact Or.inr ⟨(mem_visible hc hy).1, (mem_visible hc hy).2.1⟩
  have hput := direct_put settings hu hv huv hkept hblank hfillable
  rw [Text.put_append_cons (hfresh hx) (hfresh hy), Text.put_append_cons (hfresh hx) (hfresh hy)] at hput
  rw [parse_of_quoteless settings ((hx.append hqu).append hy), parse_of_quoteless settings ((hx.append hqv).append hy),
    visible_append, visible_append, visible_append, visible_append, hput]

/-! ### Blanks for blanks -/

theorem visible_of_blank {b : Text} (hb : Text.Blank b) : visible b = b.normalizeSymbols := by
  rw [visible, Phrase.filter_isMark_of_blank hb]

theorem severable_of_blank {b : Text} (hb : Text.Blank b) (hne : b ≠ []) : Severable b := by
  refine ⟨?_, ?_, fun c hc => ⟨?_, (Text.ne_of_isBlank (hb c hc)).1, (Text.ne_of_isBlank (hb c hc)).2.2⟩⟩
  · obtain ⟨c, later, rfl⟩ := List.exists_cons_of_ne_nil hne
    exact hb c List.mem_cons_self
  · obtain ⟨earlier, c, rfl⟩ := List.eq_nil_or_concat' b |>.resolve_left hne
    rw [Text.endsBlank, List.getLast?_concat]
    exact hb c (by simp)
  · exact isBracket_of_blank hb _ (List.mem_map_of_mem hc)

/-- Blanks can be put for blanks. -/
theorem parse_blanks (settings : Settings) (hx : Quoteless x) (hy : Quoteless y) {b b' : Text} (hb : Text.Blank b)
    (hb' : Text.Blank b') (hne : b ≠ []) (hne' : b' ≠ []) :
    parse settings (x ++ b ++ y) = parse settings (x ++ b' ++ y) := by
  have hsever : ∀ {t : Text}, Text.Blank t → t ≠ [] → Severable (visible t) := fun ht hne => by
    rw [visible_of_blank ht]
    exact severable_of_blank ht.normalizeSymbols (by simpa [Text.normalizeSymbols] using hne)
  have hwords : ∀ {t : Text}, Text.Blank t → (visible t).words = [] := fun ht => by
    rw [visible_of_blank ht]
    exact Text.words_eq_nil_iff.mpr (Text.notBlank_eq_false_iff.mpr ht.normalizeSymbols)
  refine parse_interchange settings hx hy (quoteless_of_blank hb) (quoteless_of_blank hb') (hsever hb hne)
    (hsever hb' hne') ?_
  rw [SameWords, hwords hb, hwords hb']
  exact .nil

end Query
end SearchQuery
