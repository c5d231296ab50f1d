import SearchQuery.Proofs.Layer.Ends
import SearchQuery.Proofs.Layer.Filling
import SearchQuery.Proofs.Phrase.Margins
import SearchQuery.Proofs.Query.Total

/-! Blanks at the ends of a query. They are part of no phrase and of no pair of brackets, so they stand before the first
    run of text and after the last one. There they change no word, but only whether an AND at the end has blanks on both
    sides, and so whether an OR stands at the start of the first item of the level or at the end of the last one. Nothing
    comes before the first item and nothing after the last one, so the condition is the same (`Query.parse_margins`). -/

namespace SearchQuery

open Skeleton (items item direct level adjoins)
open Text (Blank)

/-! ### Segments -/

/-- The flag before the words matters only to an AND at their start, so not to an OR at their end. -/
theorem any_getLast?_undelimited {α : Type} {p q : α → Bool} (hpq : ∀ w, p w = true → q w = false)
    (before before' after : Bool) (ws : List α) :
    (undelimited p before after ws).getLast?.any q = (undelimited p before' after ws).getLast?.any q := by
  have hkept : ∀ b : Bool, ∀ w : α, ∀ vs : List α, vs ≠ [] → p w = true →
      (undelimited p b after (w :: vs)).getLast?.any q = (undelimited p true after vs).getLast?.any q := by
    intro b w vs hvs hw
    rw [undelimited_cons p b after w hvs]
    split
    · rfl
    · rcases List.eq_nil_or_concat (undelimited p true after vs) with hnil | ⟨us, u, hus⟩
      · rw [hnil, List.getLast?_singleton, Option.any_some, hpq w hw]
        rfl
      · rw [hus, List.concat_eq_append, ← List.cons_append, List.getLast?_concat, List.getLast?_concat]
  cases ws with
  | nil => rfl
  | cons w vs =>
    by_cases hw : p w = true
    · cases vs with
      | nil =>
        have hlone : ∀ b : Bool, (undelimited p b after [w]).getLast?.any q = false := fun b => by
          rw [undelimited]
          split
          · rfl
          · exact hpq w hw
        rw [hlone, hlone]
      | cons v vs => rw [hkept before w _ (List.cons_ne_nil v vs) hw, hkept before' w _ (List.cons_ne_nil v vs) hw]
    · have hsame : ∀ b : Bool, undelimited p b after (w :: vs) = undelimited p false after (w :: vs) := fun b => by
        cases vs <;> simp [undelimited, hw]
      rw [hsame before, hsame before']

/-- The flag after the words matters only to an AND at their end, so not to an OR at their start. -/
theorem any_head?_undelimited {α : Type} {p q : α → Bool} (hpq : ∀ w, p w = true → q w = false)
    (before after after' : Bool) (ws : List α) :
    (undelimited p before after ws).head?.any q = (undelimited p before after' ws).head?.any q := by
  fun_induction undelimited p before after ws with
  | case1 => rfl
  | case2 before w hw =>
    have hq : q w = false := hpq w (by simp_all)
    rw [undelimited]
    split
    · rfl
    · exact hq.symm
  | case3 before w hw =>
    rw [undelimited]
    split
    · next hw' => exact hpq w (by simp_all)
    · rfl
  | case4 before w v ws hw ih => rw [undelimited, if_pos hw, ih]
  | case5 before w v ws hw ih => rw [undelimited, if_neg hw]; rfl

namespace Atom

variable {t : Text}

theorem words_blank_append (ht : Blank t) (as : List Atom) : words (t.map .char ++ as) = words as := by
  induction t with
  | nil => rfl
  | cons c t ih =>
    rw [List.map_cons, List.cons_append, words_cons_blank (ht c List.mem_cons_self),
      ih fun d hd => ht d (List.mem_cons_of_mem c hd)]

theorem words_append_blanks (ht : Blank t) (as : List Atom) : words (as ++ t.map .char) = words as := by
  cases t with
  | nil => rw [List.map_nil, List.append_nil]
  | cons c t =>
    have hlater : words (t.map .char) = [] := by
      have hwords := words_blank_append (fun d hd => ht d (List.mem_cons_of_mem c hd)) []
      rwa [List.append_nil] at hwords
    rw [List.map_cons, words_append_blank (ht c List.mem_cons_self), hlater, List.append_nil]

end Atom

namespace Segment

variable {t : Text}

theorem ofAtoms_blank_append (ht : Blank t) (as : List Atom) :
    (ofAtoms (t.map .char ++ as)).condition = (ofAtoms as).condition ∧
      (ofAtoms (t.map .char ++ as)).endsWithOr = (ofAtoms as).endsWithOr := by
  rw [ofAtoms, ofAtoms, Atom.words_blank_append ht]
  refine ⟨rfl, ?_⟩
  cases as with
  | nil => rfl
  | cons a as =>
    rw [List.getLast?_append_of_ne_nil _ (List.cons_ne_nil a as)]
    exact any_getLast?_undelimited (fun _ => Word.not_or_of_and) _ _ _ _

theorem ofAtoms_append_blank (ht : Blank t) (as : List Atom) :
    (ofAtoms (as ++ t.map .char)).condition = (ofAtoms as).condition ∧
      (ofAtoms (as ++ t.map .char)).startsWithOr = (ofAtoms as).startsWithOr := by
  rw [ofAtoms, ofAtoms, Atom.words_append_blanks ht]
  refine ⟨rfl, ?_⟩
  cases as with
  | nil => rfl
  | cons a as =>
    rw [List.cons_append, List.head?_cons, List.head?_cons]
    exact any_head?_undelimited (fun _ => Word.not_or_of_and) _ _ _ _

theorem read_blank_append (ht : Blank t) (s : Text) :
    (read (t ++ s)).condition = (read s).condition ∧ (read (t ++ s)).endsWithOr = (read s).endsWithOr := by
  rw [read_eq, read_eq, Phrase.scan_blank_append ht]
  exact ofAtoms_blank_append ht _

theorem read_append_blank (ht : Blank t) (s : Text) :
    (read (s ++ t)).condition = (read s).condition ∧ (read (s ++ t)).startsWithOr = (read s).startsWithOr := by
  rw [read_eq, read_eq, Phrase.scan_append_blank ht]
  exact ofAtoms_append_blank ht _

end Segment

/-! ### Levels -/

namespace Skeleton

/-- The conditions of the runs that a level is cut into. -/
def runConditions (xs : List Segment) : List (List ClosedCondition) :=
  (xs.splitBy adjoins).map (List.map Segment.condition)

theorem runConditions_cons_cons (x y : Segment) (ys : List Segment) :
    runConditions (x :: y :: ys) =
      if adjoins x y then (runConditions (y :: ys)).modifyHead (x.condition :: ·)
      else [x.condition] :: runConditions (y :: ys) := by
  rw [runConditions]
  split
  · next h =>
    rw [splitBy_cons_of_true h, runConditions]
    cases (y :: ys).splitBy adjoins <;> rfl
  · next h =>
    rw [splitBy_cons_of_false (by simpa using h)]
    rfl

/-- Whether an OR stands before the first item of a level does not matter. -/
theorem level_cons_congr {x y : Segment} (hcondition : x.condition = y.condition) (hends : x.endsWithOr = y.endsWithOr)
    (xs : List Segment) : level (x :: xs) = level (y :: xs) := by
  rw [level_eq, level_eq]
  refine congrArg Segment.alternate ?_
  cases xs with
  | nil => exact congrArg (fun c => [[c]]) hcondition
  | cons z zs =>
    have hadjoins : adjoins x z = adjoins y z := by rw [adjoins, adjoins, hends]
    have hruns := runConditions_cons_cons x z zs
    rw [hadjoins, hcondition, ← runConditions_cons_cons] at hruns
    exact hruns

/-- Whether an OR stands after the last item of a level does not matter. -/
theorem level_concat_congr {x y : Segment} (hcondition : x.condition = y.condition)
    (hstarts : x.startsWithOr = y.startsWithOr) (xs : List Segment) : level (xs ++ [x]) = level (xs ++ [y]) := by
  have hruns : runConditions (xs ++ [x]) = runConditions (xs ++ [y]) := by
    induction xs with
    | nil => exact congrArg (fun c => [[c]]) hcondition
    | cons z zs ih =>
      cases zs with
      | nil =>
        have hadjoins : adjoins z x = adjoins z y := by rw [adjoins, adjoins, hstarts]
        rw [List.cons_append, List.cons_append, List.nil_append, List.nil_append, runConditions_cons_cons, hadjoins,
          runConditions_cons_cons z y, show runConditions [x] = runConditions [y] from ih]
      | cons w ws =>
        rw [List.cons_append, List.cons_append, runConditions_cons_cons, List.cons_append, List.cons_append,
          runConditions_cons_cons, ← List.cons_append, ← List.cons_append, ih]
  rw [level_eq, level_eq]
  exact congrArg Segment.alternate hruns

end Skeleton

/-! ### Nests -/

namespace Nest

variable {as : List Atom}

theorem spliced_below (ms : Nest) (opens : List Nest) (outer current : Nest) :
    spliced (opens ++ [ms ++ outer]) current = ms ++ spliced (opens ++ [outer]) current := by
  induction opens generalizing current with
  | nil => exact append_assoc ms outer _
  | cons o opens ih => exact ih _

/-- Atoms that are no brackets stand after what is read before them. -/
theorem resume_append_ofAtoms (h : ∀ a ∈ as, isBracket a = false) (opens : List Nest) (current ns : Nest) :
    resume opens current (ns ++ ofAtoms as) = resume opens current ns ++ ofAtoms as := by
  induction ns generalizing opens current with
  | nil =>
    have hcloses := Closes.ofAtoms h opens current nil
    rw [append_nil] at hcloses
    rw [nil_append, hcloses]
    exact spliced_append opens current _
  | pair inside later _ ih => rw [pair_append, resume_pair, resume_pair, ih]
  | atom a later ih =>
    rw [atom_append]
    by_cases ha : isBracket a = true
    · cases a with
      | phrase => cases ha
      | char c =>
        rcases eq_of_isBracket ha with rfl | rfl
        · rw [resume_open, resume_open, ih]
        · cases opens with
          | nil => rw [resume_stray, resume_stray, ih]
          | cons outer opens => rw [resume_close, resume_close, ih]
    · have ha : isBracket a = false := by simpa using ha
      rw [resume_atom ha, resume_atom ha, ih]

/-- What stands below everything that has been read stays there. -/
theorem resume_below (ms ns : Nest) :
    (∀ current, resume [] (ms ++ current) ns = ms ++ resume [] current ns) ∧
      ∀ opens outer current, resume (opens ++ [ms ++ outer]) current ns = ms ++ resume (opens ++ [outer]) current ns := by
  -- Brackets that open and close move the level at the bottom onto the stack and back.
  induction ns with
  | nil => exact ⟨fun current => rfl, spliced_below ms⟩
  | pair inside later _ ih =>
    refine ⟨fun current => ?_, fun opens outer current => ih.2 opens outer _⟩
    rw [resume_pair, resume_pair, append_assoc, ih.1]
  | atom a later ih =>
    by_cases ha : isBracket a = true
    · cases a with
      | phrase => cases ha
      | char c =>
        rcases eq_of_isBracket ha with rfl | rfl
        · exact ⟨fun current => ih.2 [] current nil, fun opens outer current => ih.2 (current :: opens) outer nil⟩
        · refine ⟨fun current => ?_, fun opens outer current => ?_⟩
          · rw [resume_stray, resume_stray, append_assoc, ih.1]
          · cases opens with
            | nil =>
              rw [List.nil_append, List.nil_append, resume_close, resume_close, append_assoc, ih.1]
            | cons o opens => exact ih.2 opens outer _
    · have ha : isBracket a = false := by simpa using ha
      refine ⟨fun current => ?_, fun opens outer current => ?_⟩
      · rw [resume_atom ha, resume_atom ha, append_assoc, ih.1]
      · rw [resume_atom ha, resume_atom ha, ih.2]

end Nest

theorem isBracket_of_blank {t : Text} (ht : Blank t) : ∀ a ∈ t.map Atom.char, Nest.isBracket a = false := by
  intro a ha
  obtain ⟨c, hc, rfl⟩ := List.mem_map.mp ha
  rw [Bool.eq_false_iff]
  intro hbracket
  rcases Nest.eq_of_isBracket hbracket with rfl | rfl
  · exact absurd (ht _ hc) (by decide)
  · exact absurd (ht _ hc) (by decide)

variable {before after : Text}

/-- Blanks before and after atoms stand before and after the nest that the atoms are read as. -/
theorem Layer.nest_margins (settings : Settings) (hbefore : Blank before) (hafter : Blank after) (as : List Atom) :
    nest settings (before.map .char ++ as ++ after.map .char) =
      .ofAtoms (before.map .char) ++ nest settings as ++ .ofAtoms (after.map .char) := by
  have hresume : Nest.resume [] .nil (.ofAtoms (before.map .char ++ as ++ after.map .char)) =
      .ofAtoms (before.map .char) ++ Nest.resume [] .nil (.ofAtoms as) ++ .ofAtoms (after.map .char) := by
    have hcloses := Nest.Closes.ofAtoms (isBracket_of_blank hbefore) [] .nil (.ofAtoms as)
    have hbelow := (Nest.resume_below (.ofAtoms (before.map .char)) (.ofAtoms as)).1 .nil
    rw [Nest.append_nil] at hbelow
    rw [Nest.ofAtoms_append, Nest.resume_append_ofAtoms (isBracket_of_blank hafter), Nest.ofAtoms_append, hcloses,
      Nest.nil_append, hbelow]
  rw [nest, hresume, nest]
  split
  · rw [Nest.dropBrackets_append, Nest.dropBrackets_append, Nest.dropBrackets_ofAtoms (isBracket_of_blank hbefore),
      Nest.dropBrackets_ofAtoms (isBracket_of_blank hafter)]
  · rfl

theorem text_pad_map_char_append (t : Text) (run : List Atom) :
    Atom.text (Atom.pad (t.map .char ++ run)) = t ++ Atom.text (Atom.pad run) := by
  rw [Atom.pad_append, Atom.pad_map_char, Atom.text_append, Atom.text_map_char]

theorem text_pad_append_map_char (t : Text) (run : List Atom) :
    Atom.text (Atom.pad (run ++ t.map .char)) = Atom.text (Atom.pad run) ++ t := by
  rw [Atom.pad_append, Atom.pad_map_char, Atom.text_append, Atom.text_map_char]

/-- Blanks before the first run of a level. -/
theorem level_segment_before (hbefore : Blank before) (run : List Atom) (xs : List Segment) :
    level (items (Atom.segment (before.map .char ++ run)) ++ xs) = level (items (Atom.segment run) ++ xs) := by
  rw [Atom.segment, Atom.segment, text_pad_map_char_append, Text.notBlank_append,
    Text.notBlank_eq_false_iff.mpr hbefore, Bool.false_or]
  split
  · obtain ⟨hcondition, hends⟩ := Segment.read_blank_append hbefore (Atom.text (Atom.pad run))
    rw [Skeleton.items_eq_map, Skeleton.items_eq_map, List.map_singleton, List.map_singleton, Skeleton.item_text,
      Skeleton.item_text]
    exact Skeleton.level_cons_congr hcondition hends xs
  · rfl

/-- Blanks after the last run of a level. -/
theorem level_segment_after (hafter : Blank after) (run : List Atom) (xs : List Segment) :
    level (xs ++ items (Atom.segment (run ++ after.map .char))) = level (xs ++ items (Atom.segment run)) := by
  rw [Atom.segment, Atom.segment, text_pad_append_map_char, Text.notBlank_append,
    Text.notBlank_eq_false_iff.mpr hafter, Bool.or_false]
  split
  · obtain ⟨hcondition, hstarts⟩ := Segment.read_append_blank hafter (Atom.text (Atom.pad run))
    rw [Skeleton.items_eq_map [_], Skeleton.items_eq_map [_], List.map_singleton,
      List.map_singleton, Skeleton.item_text, Skeleton.item_text]
    exact Skeleton.level_concat_congr hcondition hstarts xs
  · rfl

/-- Blanks before and after a nest leave its condition as it is. -/
theorem direct_margins (hbefore : Blank before) (hafter : Blank after) (ns : Nest) :
    direct (.ofAtoms (before.map .char) ++ ns ++ .ofAtoms (after.map .char) : Nest).nodes = direct ns.nodes := by
  have hdash : (before.map Atom.char).getLast? ≠ some (.char '-') := fun h => by
    obtain ⟨c, hc, hdash⟩ := List.mem_map.mp (List.mem_of_mem_getLast? h)
    cases hdash
    exact absurd (hbefore _ hc) (by decide)
  have hafter' : direct (ns ++ .ofAtoms (after.map .char) : Nest).nodes = direct ns.nodes := by
    rw [direct, Nest.nodes, Nest.nodesFrom_append, ← Nest.append_nil (.ofAtoms _), Operand.nodesFrom_ofAtoms_append,
      Operand.items_append, Nest.nodesFrom, level_segment_after hafter, ← Operand.items_append,
      ← Nest.nodesFrom_eq_toBack]
    rfl
  rw [← hafter', Nest.append_assoc, direct, Nest.nodes, Operand.nodesFrom_ofAtoms_append, List.nil_append,
    ← List.append_nil (before.map Atom.char), Nest.nodesFrom_append_run hdash, Operand.items_append,
    level_segment_before hbefore, ← Operand.items_append, ← Nest.nodesFrom_eq_fromFront]
  rfl

/-! ### Queries -/

theorem Text.Blank.normalizeSymbols {t : Text} (ht : Blank t) : Blank t.normalizeSymbols := by
  intro c hc
  obtain ⟨d, hd, rfl⟩ := List.mem_map.mp hc
  rw [Text.isBlank_normalizeSymbol]
  exact ht d hd

theorem Layer.atoms_margins (hbefore : Blank before) (hafter : Blank after) (query : Text) :
    atoms (before ++ query ++ after) =
      before.normalizeSymbols.map .char ++ atoms query ++ after.normalizeSymbols.map .char := by
  have hquotes : ∀ {t : Text}, Blank t → t.normalizeQuotes = t := fun ht =>
    Text.normalizeQuotes_eq_self fun c hc => by
      rintro rfl
      exact absurd (ht _ hc) (by decide)
  have hnormal : ∀ t : Text, (t.map Atom.char).map Atom.normalize = t.normalizeSymbols.map .char := fun t => by
    rw [Text.normalizeSymbols, List.map_map, List.map_map]
    rfl
  have hsplit : (before ++ query ++ after).normalizeQuotes = before ++ query.normalizeQuotes ++ after := by
    conv_rhs => rw [← hquotes hbefore, ← hquotes hafter]
    rw [Text.normalizeQuotes, List.map_append, List.map_append]
    rfl
  rw [atoms, hsplit, Phrase.scan_append_blank hafter, Phrase.scan_blank_append hbefore, Atom.pad_append, Atom.pad_append,
    Atom.pad_map_char, Atom.pad_map_char, List.map_append, List.map_append, hnormal, hnormal]
  rfl

/-- Blanks before and after a query do not change what it asks for. -/
theorem Query.parse_margins (settings : Settings) (hbefore : Blank before) (hafter : Blank after) (query : Text) :
    parse settings (before ++ query ++ after) = parse settings query := by
  rw [parse_eq, parse_eq, Layer.atoms_margins hbefore hafter,
    Layer.nest_margins settings hbefore.normalizeSymbols hafter.normalizeSymbols,
    direct_margins hbefore.normalizeSymbols hafter.normalizeSymbols]

end SearchQuery
