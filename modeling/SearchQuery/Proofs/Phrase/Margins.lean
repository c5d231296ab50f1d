import SearchQuery.Proofs.Phrase.Typed

/-! Blanks before and after a text. A blank is neither a quote nor a dash, so the phrases of the text are found as they
    are without the blanks, and the blanks stand beside its atoms (`scan_blank_append`, `scan_append_blank`). -/

namespace SearchQuery

/-- The text consists of blanks. -/
def Text.Blank (s : Text) : Prop := ∀ c ∈ s, isBlank c = true

instance : DecidablePred Text.Blank := fun s => List.decidableBAll _ s

namespace Text

theorem ne_of_isBlank {c : Char} (h : isBlank c = true) : c ≠ '"' ∧ c ≠ '-' ∧ Phrase.isMark c = false := by
  refine ⟨?_, ?_, Bool.eq_false_iff.mpr fun hmark => ?_⟩
  · rintro rfl
    exact absurd h (by decide)
  · rintro rfl
    exact absurd h (by decide)
  · simp only [Phrase.isMark, Bool.or_eq_true, decide_eq_true_eq] at hmark
    rcases hmark with rfl | rfl
    · exact absurd h (by decide)
    · exact absurd h (by decide)

theorem upTo?_of_inside {inside : Char → Bool} {close : Char} {s : Text} (h : ∀ c ∈ s, inside c = true) :
    upTo? inside close s = none := by
  induction s with
  | nil => rfl
  | cons c s ih => rw [upTo?_cons (h c List.mem_cons_self), ih fun d hd => h d (List.mem_cons_of_mem c hd)]; rfl

theorem upTo?_append_inside {inside : Char → Bool} {close : Char} {t : Text} (ht : ∀ c ∈ t, inside c = true) (s : Text) :
    upTo? inside close (s ++ t) = (upTo? inside close s).map fun (body, rest) => (body, rest ++ t) := by
  induction s with
  | nil => exact upTo?_of_inside ht
  | cons c s ih =>
    rw [List.cons_append]
    cases hc : inside c with
    | true =>
      rw [upTo?_cons hc, upTo?_cons hc, ih, Option.map_map, Option.map_map]
      rfl
    | false =>
      rw [upTo?_cons_of_not hc, upTo?_cons_of_not hc]
      split <;> rfl

end Text

/-! ### Phrases -/

namespace Phrase

open Text (Blank ne_of_isBlank)

variable {t : Text}

theorem marked_map_plain_append (negated : Bool) (s : Text) (ps : List (Piece Text)) :
    marked negated (s.map .plain ++ ps) = s.map .char ++ marked negated ps := by
  induction s with
  | nil => rfl
  | cons c s ih => rw [List.map_cons, List.cons_append, marked, ih]; rfl

theorem marked_append_map_plain (negated : Bool) (s : Text) (ps : List (Piece Text)) :
    marked negated (ps ++ s.map .plain) = marked negated ps ++ s.map .char := by
  fun_induction marked negated ps with
  | case1 =>
    have hmarked := marked_map_plain_append negated s []
    rwa [List.append_nil, marked, List.append_nil] at hmarked
  | case2 c ps ih => rw [List.cons_append, marked, ih]; rfl
  | case3 words ps hb ih => rw [List.cons_append, marked, if_pos hb, ih]; rfl
  | case4 words ps hb ih => rw [List.cons_append, marked, if_neg hb, ih]

theorem plainPhrases_blank_append (ht : Blank t) (as : List Atom) :
    plainPhrases (t.map .char ++ as) = t.map .char ++ plainPhrases as := by
  induction t with
  | nil => rfl
  | cons c t ih =>
    have hnone : opened? (.char c :: (t.map .char ++ as)) = none := by
      rw [opened?, if_neg (ne_of_isBlank (ht c List.mem_cons_self)).1]
    rw [List.map_cons, List.cons_append, plainPhrases_of_none hnone, ih fun d hd => ht d (List.mem_cons_of_mem c hd)]
    rfl

theorem quoted?_of_blank (ht : Blank t) : quoted? (t.map .char) = none := by
  induction t with
  | nil => rfl
  | cons c t ih =>
    rw [List.map_cons, quoted?, if_neg (ne_of_isBlank (ht c List.mem_cons_self)).1,
      ih fun d hd => ht d (List.mem_cons_of_mem c hd)]
    rfl

theorem quoted?_append_blank (ht : Blank t) (as : List Atom) :
    quoted? (as ++ t.map .char) = (quoted? as).map fun (words, rest) => (words, rest ++ t.map .char) := by
  fun_induction quoted? as with
  | case1 as => rfl
  | case2 c as hc ih =>
    rw [List.cons_append, quoted?, if_neg hc, ih, Option.map_map, Option.map_map]
    rfl
  | case3 as hne =>
    cases as with
    | cons a as =>
      cases a with
      | char c => exact absurd rfl (hne c as)
      | phrase => rfl
    | nil =>
      rw [List.nil_append, quoted?_of_blank ht]
      rfl

theorem opened?_append_blank (ht : Blank t) (a : Atom) (as : List Atom) :
    opened? (a :: as ++ t.map .char) = (opened? (a :: as)).map fun (words, rest) => (words, rest ++ t.map .char) := by
  cases a with
  | phrase => rfl
  | char c =>
    rw [List.cons_append, opened?, opened?]
    split
    · exact quoted?_append_blank ht as
    · rfl

theorem plainPhrases_append_blank (ht : Blank t) (as : List Atom) :
    plainPhrases (as ++ t.map .char) = plainPhrases as ++ t.map .char := by
  fun_induction plainPhrases as with
  | case1 =>
    have hblank := plainPhrases_blank_append ht []
    rwa [List.append_nil, plainPhrases, List.append_nil] at hblank
  | case2 a as words rest hq hb ih =>
    have hopened := opened?_append_blank ht a as
    rw [hq] at hopened
    rw [plainPhrases_of_some hopened hb, ih]
    rfl
  | case3 a as words rest hq hb ih =>
    have hopened := opened?_append_blank ht a as
    rw [hq] at hopened
    rw [plainPhrases_of_blank hopened (by simpa using hb), ih]
  | case4 a as hq ih =>
    have hopened := opened?_append_blank ht a as
    rw [hq] at hopened
    have hnone : opened? (a :: (as ++ t.map .char)) = none := hopened
    rw [List.cons_append, plainPhrases_of_none hnone, ih]
    rfl

theorem read_negative_append_blank (ht : Blank t) (s : Text) :
    negativePattern.read (s ++ t) = (negativePattern.read s).map fun (words, rest) => (words, rest ++ t) := by
  have hinside : ∀ c ∈ t, decide (c ≠ '"') = true := fun c hc => by simpa using (ne_of_isBlank (ht c hc)).1
  have hblank : negativePattern.read t = none := by
    cases t with
    | nil => rfl
    | cons c t => exact read_negative_of_ne (ne_of_isBlank (ht c List.mem_cons_self)).2.1 t
  cases s with
  | nil => exact hblank
  | cons c s =>
    rw [List.cons_append]
    by_cases hc : c = '-'
    · subst hc
      cases s with
      | nil =>
        cases t with
        | nil => rfl
        | cons d t =>
          exact read_negative_of_not_opens (opensPhrase_of_ne (ne_of_isBlank (ht d List.mem_cons_self)).1 t)
      | cons d s =>
        by_cases hd : d = '"'
        · subst hd
          exact Text.upTo?_append_inside hinside s
        · rw [List.cons_append, read_negative_of_not_opens (opensPhrase_of_ne hd _),
            read_negative_of_not_opens (opensPhrase_of_ne hd s)]
          rfl
    · rw [read_negative_of_ne hc, read_negative_of_ne hc]
      rfl

theorem pieces_negative_append_blank (ht : Blank t) (s : Text) :
    negativePattern.pieces (s ++ t) = negativePattern.pieces s ++ t.map .plain := by
  fun_induction negativePattern.pieces s with
  | case1 =>
    have hnone : ∀ c ∈ t, ∀ rest, negativePattern.read (c :: rest) = none := fun c hc rest =>
      read_negative_of_ne (ne_of_isBlank (ht c hc)).2.1 rest
    have hpieces := Pattern.pieces_append hnone []
    rwa [List.append_nil, Pattern.pieces_nil, List.append_nil] at hpieces
  | case2 c s words rest h ih =>
    have hread := read_negative_append_blank ht (c :: s)
    rw [h] at hread
    rw [Pattern.pieces_of_some hread, ih]
    rfl
  | case3 c s h ih =>
    have hread := read_negative_append_blank ht (c :: s)
    rw [h] at hread
    have hnone : negativePattern.read (c :: (s ++ t)) = none := hread
    rw [List.cons_append, Pattern.pieces_of_none hnone, ih]
    rfl

theorem filter_isMark_of_blank (ht : Blank t) : t.filter (fun c => !isMark c) = t :=
  List.filter_eq_self.mpr fun c hc => by rw [(ne_of_isBlank (ht c hc)).2.2]; rfl

/-- Blanks before a text are no part of its phrases. -/
theorem scan_blank_append (ht : Blank t) (s : Text) : scan (t ++ s) = t.map .char ++ scan s := by
  have hnone : ∀ c ∈ t, ∀ rest, negativePattern.read (c :: rest) = none := fun c hc rest =>
    read_negative_of_ne (ne_of_isBlank (ht c hc)).2.1 rest
  rw [scan, List.filter_append, filter_isMark_of_blank ht, Pattern.pieces_append hnone, marked_map_plain_append,
    plainPhrases_blank_append ht]
  rfl

/-- Blanks after a text are no part of its phrases. -/
theorem scan_append_blank (ht : Blank t) (s : Text) : scan (s ++ t) = scan s ++ t.map .char := by
  rw [scan, List.filter_append, filter_isMark_of_blank ht, pieces_negative_append_blank ht, marked_append_map_plain,
    plainPhrases_append_blank ht]
  rfl

end Phrase
end SearchQuery
