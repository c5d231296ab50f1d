import SearchQuery.Proofs.Phrase.Extraction
import Mathlib.Data.List.Chain

/-! Atoms typed out. What is typed is found again as the same atoms if every dash and every quote in it is taken for
    what it is: no dash comes to negate a phrase that is none, and a quote that is left over has no partner before the
    next negated phrase (`scan_text_iff`). The atoms of a text have no such partners (`unpaired_scan`). A dash at the end
    of a plain phrase stands right before the closing quote, so a phrase like that is found again where no other phrase
    follows (`scan_text_of_parted`). -/

namespace SearchQuery

/-- A quote is typed for the atom. -/
def Atom.hasQuote : Atom → Bool
  | .char c => c = '"'
  | .phrase _ _ => true

namespace Phrase

/-! ### The sweep for negated phrases -/

/-- The text starts with a quote that another one closes. -/
def opensPhrase : Text → Bool
  | '"' :: s => s.contains '"'
  | _ => false

/-- No dash among the atoms would be taken for the negation of a phrase once they are typed. -/
def Clear : List Atom → Prop
  | [] => True
  | .char c :: as => (c = '-' → opensPhrase (Atom.text as) = false) ∧ Clear as
  | .phrase _ _ :: as => Clear as

instance decidableClear : DecidablePred Clear
  | [] => instDecidableTrue
  | .char _ :: as => have := decidableClear as; instDecidableAnd
  | .phrase _ _ :: as => decidableClear as

theorem opensPhrase_of_ne {c : Char} (hc : c ≠ '"') (s : Text) : opensPhrase (c :: s) = false := by
  rw [opensPhrase]
  intro t heq
  exact hc (List.cons.inj heq).1

theorem read_negative_of_not_opens {s : Text} (h : opensPhrase s = false) : negativePattern.read ('-' :: s) = none := by
  by_contra hread
  obtain ⟨⟨words, rest⟩, hread⟩ := Option.ne_none_iff_exists'.mp hread
  obtain ⟨heq, -⟩ := read_negative_eq_some hread
  rw [(List.cons.inj heq).2] at h
  simp [opensPhrase] at h

theorem exists_read_negative {s : Text} (h : opensPhrase s = true) :
    ∃ words rest, negativePattern.read ('-' :: s) = some (words, rest) := by
  unfold opensPhrase at h
  split at h
  · next s =>
    obtain ⟨words, rest, rfl, hwords⟩ := List.eq_append_cons_of_mem (List.contains_iff_mem.mp h)
    refine ⟨words, rest, Text.upTo?_append (fun c hc => ?_) (by decide) rest⟩
    have hne : c ≠ '"' := fun heq => hwords (heq ▸ hc)
    simpa using hne
  · cases h

theorem length_text_marked_le (s : Text) :
    (Atom.text (marked true (negativePattern.pieces s))).length ≤ s.length := by
  fun_induction negativePattern.pieces s with
  | case1 => exact Nat.le_refl 0
  | case2 c s words rest hread ih =>
    have hlength := congrArg List.length (read_negative_eq_some hread).1
    simp only [List.length_cons, List.length_append] at hlength ⊢
    rw [marked]
    split
    · rw [Atom.text_cons, Atom.typed]
      simp only [List.cons_append, List.length_cons, List.length_append, List.length_nil]
      omega
    · omega
  | case3 c s hread ih =>
    rw [marked, Atom.text_cons, Atom.typed, List.singleton_append, List.length_cons, List.length_cons]
    omega

variable {p : Char → Prop} {as : List Atom}

theorem marked_pieces_phrase {words : Text} (h : Extracted p (.phrase true words)) (s : Text) :
    marked true (negativePattern.pieces ((Atom.phrase true words).typed ++ s)) =
      .phrase true words :: marked true (negativePattern.pieces s) := by
  obtain ⟨hb, hwords⟩ := h
  have hread : negativePattern.read ('-' :: '"' :: (words ++ '"' :: s)) = some (words, s) :=
    Text.upTo?_append (fun c hc => by simpa using (hwords c hc).1) (by decide) s
  rw [Atom.typed]
  simp only [List.cons_append, List.append_assoc, List.nil_append]
  rw [Pattern.pieces_of_some hread, marked, if_pos hb]

/-- The sweep for negated phrases gives back the atoms that were typed, no plain phrases among them, just in case no
    dash is mistaken. -/
theorem marked_pieces_text_iff (h : ∀ a ∈ as, Extracted p a) (hplain : NoPlain as) :
    marked true (negativePattern.pieces (Atom.text as)) = as ↔ Clear as := by
  induction as with
  | nil => exact iff_of_true (by rw [Atom.text_nil, Pattern.pieces_nil]; rfl) trivial
  | cons a as ih =>
    have ih := ih (fun b hb => h b (List.mem_cons_of_mem a hb)) hplain.of_cons
    cases a with
    | char c =>
      rw [Atom.text_cons, Atom.typed, List.singleton_append, Clear]
      by_cases hc : c = '-' ∧ opensPhrase (Atom.text as) = true
      · -- The find takes the place of the dash; a blank one is left out, and then too little text remains.
        obtain ⟨rfl, hopens⟩ := hc
        obtain ⟨words, rest, hread⟩ := exists_read_negative hopens
        refine iff_of_false (fun heq => ?_) fun hclear => by simp [hopens] at hclear
        rw [Pattern.pieces_of_some hread, marked] at heq
        split at heq
        · cases (List.cons.inj heq).1
        · have hle := length_text_marked_le rest
          have hlt := negativePattern.shorter hread
          rw [heq, Atom.text_cons, Atom.typed, List.singleton_append] at hle
          omega
      · have hnot : c = '-' → opensPhrase (Atom.text as) = false := fun hdash => by
          simpa [hdash] using hc
        have hnone : negativePattern.read (c :: Atom.text as) = none := by
          by_cases hdash : c = '-'
          · rw [hdash]
            exact read_negative_of_not_opens (hnot hdash)
          · exact read_negative_of_ne hdash _
        rw [Pattern.pieces_of_none hnone, marked, List.cons_inj_right, ih]
        exact ⟨fun hclear => ⟨hnot, hclear⟩, fun hclear => hclear.2⟩
    | phrase negated words =>
      cases negated with
      | true =>
        rw [Atom.text_cons, marked_pieces_phrase (h _ List.mem_cons_self), List.cons_inj_right, ih]
        rfl
      | false => exact absurd hplain not_noPlain_cons

/-! ### The sweep for plain phrases -/

/-- A quote that is left over is not closed by the next one: a negated phrase comes before. -/
def Unpaired (as : List Atom) : Prop :=
  (as.filter Atom.hasQuote).IsChain fun a b => a = .char '"' → ∃ words, b = .phrase true words

/-- The atom with a plain phrase spelled out. -/
def spelled : Atom → List Atom
  | .phrase false words => .char '"' :: (words.map .char ++ [.char '"'])
  | a => [a]

@[simp] theorem flatMap_spelled_char {c : Char} : (.char c :: as).flatMap spelled = .char c :: as.flatMap spelled := rfl

@[simp] theorem flatMap_spelled_negated {words : Text} :
    (.phrase true words :: as).flatMap spelled = .phrase true words :: as.flatMap spelled := rfl

@[simp] theorem unpaired_cons_char {c : Char} (hc : c ≠ '"') : Unpaired (.char c :: as) ↔ Unpaired as := by
  rw [Unpaired, List.filter_cons_of_neg (by simpa [Atom.hasQuote] using hc)]
  rfl

@[simp] theorem unpaired_cons_phrase {negated : Bool} {words : Text} :
    Unpaired (.phrase negated words :: as) ↔ Unpaired as := by
  rw [Unpaired, List.filter_cons_of_pos rfl, List.isChain_cons]
  simp [Unpaired]

theorem unpaired_cons_quote :
    Unpaired (.char '"' :: as) ↔ (∀ b ∈ as.find? Atom.hasQuote, ∃ words, b = .phrase true words) ∧ Unpaired as := by
  rw [Unpaired, List.filter_cons_of_pos rfl, List.isChain_cons, List.head?_filter]
  simp [Unpaired]

theorem quoted?_spelled (h : ∀ b ∈ as.find? Atom.hasQuote, ∃ words, b = .phrase true words) :
    quoted? (as.flatMap spelled) = none := by
  induction as with
  | nil => rfl
  | cons a as ih =>
    cases a with
    | char c =>
      have hc : c ≠ '"' := by
        rintro rfl
        obtain ⟨words, hwords⟩ := h _ (List.find?_cons_of_pos rfl)
        cases hwords
      rw [List.find?_cons_of_neg (by simpa [Atom.hasQuote] using hc)] at h
      rw [flatMap_spelled_char, quoted?, if_neg hc, ih h]
      rfl
    | phrase negated words =>
      cases negated with
      | true => rfl
      | false =>
        obtain ⟨words', hwords⟩ := h _ (List.find?_cons_of_pos rfl)
        cases hwords

theorem quoted?_append {words : Text} (h : ∀ c ∈ words, c ≠ '"') (as : List Atom) :
    quoted? (words.map .char ++ .char '"' :: as) = some (words, as) := by
  induction words with
  | nil => rfl
  | cons c words ih =>
    rw [List.map_cons, List.cons_append, quoted?, if_neg (h c List.mem_cons_self),
      ih fun d hd => h d (List.mem_cons_of_mem c hd)]
    rfl

theorem plainPhrases_of_none {a : Atom} (h : opened? (a :: as) = none) :
    plainPhrases (a :: as) = a :: plainPhrases as := by
  rw [plainPhrases]
  split
  · next hs =>
    rw [h] at hs
    cases hs
  · rfl

theorem plainPhrases_of_some {rest : List Atom} {words : Text} (h : opened? as = some (words, rest))
    (hb : words.notBlank = true) : plainPhrases as = .phrase false words :: plainPhrases rest := by
  cases as with
  | nil => cases h
  | cons a as =>
    rw [plainPhrases]
    split
    · next hs =>
      rw [h] at hs
      cases hs
      rw [if_pos hb]
    · next hs =>
      rw [h] at hs
      cases hs

theorem plainPhrases_of_blank {as rest : List Atom} {words : Text} (h : opened? as = some (words, rest))
    (hb : words.notBlank = false) : plainPhrases as = plainPhrases rest := by
  cases as with
  | nil => cases h
  | cons a as =>
    rw [plainPhrases]
    split
    · next hs =>
      rw [h] at hs
      cases hs
      rw [if_neg (by simp [hb])]
    · next hs =>
      rw [h] at hs
      cases hs

theorem plainPhrases_spelled (h : ∀ a ∈ as, Extracted p a) (hunpaired : Unpaired as) :
    plainPhrases (as.flatMap spelled) = as := by
  induction as with
  | nil => rw [List.flatMap_nil, plainPhrases]
  | cons a as ih =>
    have ih := ih fun b hb => h b (List.mem_cons_of_mem _ hb)
    cases a with
    | char c =>
      rw [flatMap_spelled_char]
      by_cases hc : c = '"'
      · subst hc
        obtain ⟨hnext, hlater⟩ := unpaired_cons_quote.mp hunpaired
        have hnone : opened? (.char '"' :: as.flatMap spelled) = none := quoted?_spelled hnext
        rw [plainPhrases_of_none hnone, ih hlater]
      · have hnone : opened? (.char c :: as.flatMap spelled) = none := by rw [opened?, if_neg hc]
        rw [plainPhrases_of_none hnone, ih ((unpaired_cons_char hc).mp hunpaired)]
    | phrase negated words =>
      cases negated with
      | true =>
        rw [flatMap_spelled_negated, plainPhrases_of_none rfl, ih (unpaired_cons_phrase.mp hunpaired)]
      | false =>
        obtain ⟨hb, hwords⟩ := h _ List.mem_cons_self
        have hsome : opened? (spelled (.phrase false words) ++ as.flatMap spelled) =
            some (words, as.flatMap spelled) := by
          simp only [spelled, List.cons_append, List.append_assoc, List.nil_append, opened?, ite_true]
          exact quoted?_append (fun c hc => (hwords c hc).1) _
        rw [List.flatMap_cons, plainPhrases_of_some hsome hb, ih (unpaired_cons_phrase.mp hunpaired)]

theorem find?_plainPhrases (hplain : NoPlain as) (h : quoted? as = none) :
    ∀ b ∈ (plainPhrases as).find? Atom.hasQuote, ∃ words, b = .phrase true words := by
  induction as with
  | nil => simp [plainPhrases]
  | cons a as ih =>
    cases a with
    | char c =>
      rw [quoted?] at h
      split at h
      · cases h
      · next hc =>
        have hnone : opened? (.char c :: as) = none := by rw [opened?, if_neg hc]
        rw [plainPhrases_of_none hnone, List.find?_cons_of_neg (by simpa [Atom.hasQuote] using hc)]
        exact ih hplain.of_cons (Option.map_eq_none_iff.mp h)
    | phrase negated words =>
      cases negated with
      | true =>
        rw [plainPhrases_of_none rfl, List.find?_cons_of_pos rfl]
        intro b hb
        cases hb
        exact ⟨words, rfl⟩
      | false => exact absurd hplain not_noPlain_cons

theorem unpaired_plainPhrases (hplain : NoPlain as) : Unpaired (plainPhrases as) := by
  fun_induction plainPhrases as with
  | case1 => exact .nil
  | case2 a as words rest hq hb ih => exact unpaired_cons_phrase.mpr (ih (hplain.of_opened hq))
  | case3 a as words rest hq hb ih => exact ih (hplain.of_opened hq)
  | case4 a as hq ih =>
    cases a with
    | phrase negated words => exact unpaired_cons_phrase.mpr (ih hplain.of_cons)
    | char c =>
      by_cases hc : c = '"'
      · subst hc
        exact unpaired_cons_quote.mpr ⟨find?_plainPhrases hplain.of_cons hq, ih hplain.of_cons⟩
      · exact (unpaired_cons_char hc).mpr (ih hplain.of_cons)

/-- The quotes that a text keeps have no partners. -/
theorem unpaired_scan (s : Text) : Unpaired (scan s) := unpaired_plainPhrases (noPlain_marked s)

/-! ### Typed atoms found again -/

theorem text_flatMap_spelled (as : List Atom) : Atom.text (as.flatMap spelled) = Atom.text as := by
  induction as with
  | nil => rfl
  | cons a as ih =>
    rw [List.flatMap_cons, Atom.text_append, ih, Atom.text_cons]
    cases a with
    | char c => rfl
    | phrase negated words =>
      cases negated with
      | true => simp [spelled]
      | false => simp [spelled, Atom.typed]

theorem mem_flatMap_spelled (hquote : p '"') (h : ∀ a ∈ as, Extracted p a) :
    ∀ b ∈ as.flatMap spelled, Extracted p b ∧ ∀ words, b ≠ .phrase false words := by
  intro b hb
  obtain ⟨a, ha, hb⟩ := List.mem_flatMap.mp hb
  have ha := h a ha
  cases a with
  | char c => exact List.mem_singleton.mp hb ▸ ⟨ha, fun _ => Atom.noConfusion⟩
  | phrase negated words =>
    cases negated with
    | true => exact List.mem_singleton.mp hb ▸ ⟨ha, by simp⟩
    | false =>
      have hchar : ∀ c, .char c ∈ spelled (.phrase false words) → p c ∧ isMark c = false := by
        simp only [spelled, List.mem_cons, List.mem_append, List.mem_map, List.not_mem_nil, or_false, Atom.char.injEq,
          exists_eq_right]
        rintro c (rfl | hc | rfl)
        · exact ⟨hquote, by decide⟩
        · exact (ha.2 c hc).2
        · exact ⟨hquote, by decide⟩
      cases b with
      | char c => exact ⟨hchar c hb, fun _ => Atom.noConfusion⟩
      | phrase negated words' => simp [spelled] at hb

theorem noPlain_of_extracted (h : ∀ a ∈ as, Extracted p a ∧ ∀ words, a ≠ .phrase false words) : NoPlain as := by
  intro a ha
  refine ⟨(h a ha).2, fun c hc => ?_⟩
  subst hc
  exact (h _ ha).1.2

/-- Plain phrases are only taken together, or text is left out. -/
theorem spelled_plainPhrases (hplain : NoPlain as) :
    (plainPhrases as).flatMap spelled = as ∨ (Atom.text (plainPhrases as)).length < (Atom.text as).length := by
  fun_induction plainPhrases as with
  | case1 => exact Or.inl rfl
  | case2 a as words rest hq hb ih =>
    rw [(opened?_eq_some hq).1]
    rcases ih (hplain.of_opened hq) with ih | ih
    · exact Or.inl (by simp [spelled, ih])
    · refine Or.inr ?_
      simp only [Atom.text_cons, Atom.text_append, Atom.text_map_char, Atom.typed, List.length_append, List.length_cons]
      omega
  | case3 a as words rest hq hb ih =>
    rw [(opened?_eq_some hq).1]
    have hle : (Atom.text (plainPhrases rest)).length ≤ (Atom.text rest).length := by
      rcases ih (hplain.of_opened hq) with ih | ih
      · rw [← text_flatMap_spelled (plainPhrases rest), ih]
      · exact Nat.le_of_lt ih
    refine Or.inr ?_
    simp only [Atom.text_cons, Atom.text_append, Atom.text_map_char, Atom.typed, List.length_append, List.length_cons]
    omega
  | case4 a as hq ih =>
    rcases ih hplain.of_cons with ih | ih
    · left
      cases a with
      | char c => rw [flatMap_spelled_char, ih]
      | phrase negated words =>
        cases negated with
        | true => rw [flatMap_spelled_negated, ih]
        | false => exact absurd hplain not_noPlain_cons
    · refine Or.inr ?_
      simp only [Atom.text_cons, List.length_append]
      omega

theorem isMark_of_mem_text (h : ∀ a ∈ as, Extracted p a) : ∀ c ∈ Atom.text as, isMark c = false := by
  refine Atom.mem_text (p := fun c => isMark c = false) (by decide) (by decide) fun a ha => ?_
  have := h a ha
  cases a with
  | char c => exact this.2
  | phrase negated words => exact fun c hc => (this.2 c hc).2.2

/-- Typed atoms are found again just in case no dash and no quote among them is mistaken. -/
theorem scan_text_iff (h : ∀ a ∈ as, Extracted (fun _ => True) a) :
    scan (Atom.text as) = as ↔ Clear (as.flatMap spelled) ∧ Unpaired as := by
  have hspelled := mem_flatMap_spelled trivial h
  have hsweep := marked_pieces_text_iff (fun b hb => (hspelled b hb).1) (noPlain_of_extracted hspelled)
  have hfilter : (Atom.text as).filter (fun c => !isMark c) = Atom.text as :=
    List.filter_eq_self.mpr fun c hc => by simp [isMark_of_mem_text h c hc]
  have hscan : scan (Atom.text as) = plainPhrases (marked true (negativePattern.pieces (Atom.text as))) := by
    rw [scan, hfilter]
  rw [text_flatMap_spelled] at hsweep
  constructor
  · intro heq
    refine ⟨hsweep.mp ?_, heq ▸ unpaired_scan _⟩
    rw [hscan] at heq
    have hmarked := noPlain_marked (Atom.text as)
    rw [hfilter] at hmarked
    -- No text was left out, so the second sweep took together what the first one left.
    rcases spelled_plainPhrases hmarked with hkept | hless
    · rw [heq] at hkept
      exact hkept.symm
    · rw [heq] at hless
      exact absurd (length_text_marked_le _) (Nat.not_le.mpr hless)
  · rintro ⟨hclear, hunpaired⟩
    rw [hscan, hsweep.mpr hclear, plainPhrases_spelled h hunpaired]

/-! ### Texts whose phrases are found as they were typed -/

/-- The atom can be typed without being taken for anything else: characters are no quotes and delimit no
    placeholder, and the same holds of the words of phrases, which are not blank and do not end with a dash. -/
def Typable : Atom → Prop
  | .char c => c ≠ '"' ∧ isMark c = false
  | .phrase _ words => words.notBlank = true ∧ (∀ c ∈ words, c ≠ '"' ∧ isMark c = false) ∧ words.getLast? ≠ some '-'

/-- No dash stands right before a plain phrase. -/
def Undashed (as : List Atom) : Prop := as.IsChain fun a b => a = .char '-' → ∀ words, b ≠ .phrase false words

/-- The atom can be typed: characters are no quotes and delimit no placeholder, and the same holds of the words of
    phrases, which are not blank. -/
def Quotable : Atom → Prop
  | .char c => c ≠ '"' ∧ isMark c = false
  | .phrase _ words => words.notBlank = true ∧ ∀ c ∈ words, c ≠ '"' ∧ isMark c = false

/-- The atom is a plain phrase that ends with a dash, so the dash would stand right before its closing quote. -/
def endsDashed : Atom → Bool
  | .phrase false words => words.getLast? = some '-'
  | _ => false

/-- No phrase follows a plain phrase that ends with a dash. -/
def Parted (as : List Atom) : Prop := (as.filter Atom.hasQuote).IsChain fun a _ => endsDashed a = false

instance : DecidablePred Parted := fun as => inferInstanceAs (Decidable ((as.filter Atom.hasQuote).IsChain _))

theorem Quotable.extracted {a : Atom} (h : Quotable a) : Extracted (fun _ => True) a := by
  cases a with
  | char c => exact ⟨trivial, h.2⟩
  | phrase negated words => exact ⟨h.1, fun c hc => ⟨(h.2 c hc).1, trivial, (h.2 c hc).2⟩⟩

theorem unpaired_of_quotable (h : ∀ a ∈ as, Quotable a) : Unpaired as := by
  induction as with
  | nil => exact .nil
  | cons a as ih =>
    have ih := ih fun b hb => h b (List.mem_cons_of_mem a hb)
    cases a with
    | char c => exact (unpaired_cons_char (h _ List.mem_cons_self).1).mpr ih
    | phrase negated words => exact unpaired_cons_phrase.mpr ih

theorem parted_cons_char {c : Char} (hc : c ≠ '"') : Parted (.char c :: as) ↔ Parted as := by
  rw [Parted, List.filter_cons_of_neg (by simpa [Atom.hasQuote] using hc)]
  rfl

theorem parted_cons_phrase {negated : Bool} {words : Text} :
    Parted (.phrase negated words :: as) ↔
      (endsDashed (.phrase negated words) = true → as.filter Atom.hasQuote = []) ∧ Parted as := by
  rw [Parted, List.filter_cons_of_pos rfl, List.isChain_cons]
  refine and_congr_left fun _ => ⟨fun h hdash => ?_, fun h b hb => ?_⟩
  · cases hfilter : as.filter Atom.hasQuote with
    | nil => rfl
    | cons b bs =>
      rw [h b (by rw [hfilter]; rfl)] at hdash
      cases hdash
  · rw [Bool.eq_false_iff]
    intro hdash
    rw [h hdash] at hb
    cases hb

/-- Atoms for which no quote is typed. -/
theorem quote_not_mem_text (h : as.filter Atom.hasQuote = []) : '"' ∉ Atom.text as := by
  intro hmem
  obtain ⟨a, ha, hc⟩ := List.mem_flatMap.mp hmem
  have hquote := List.filter_eq_nil_iff.mp h a ha
  cases a with
  | phrase => exact hquote rfl
  | char c => exact hquote (by simpa [Atom.hasQuote] using (List.mem_singleton.mp hc).symm)

theorem opensPhrase_text (h : ∀ a ∈ as, Quotable a) (hdash : Undashed (.char '-' :: as)) :
    opensPhrase (Atom.text as) = false := by
  cases as with
  | nil => rfl
  | cons a as =>
    cases a with
    | char c => exact opensPhrase_of_ne (h _ List.mem_cons_self).1 _
    | phrase negated words =>
      cases negated with
      | true => rfl
      | false => exact absurd rfl ((List.isChain_cons_cons.mp hdash).1 rfl words)

/-- The dash that a phrase ends with negates nothing where no quote follows. -/
theorem clear_quoted {words : Text} (hquote : ∀ c ∈ words, c ≠ '"')
    (hlast : words.getLast? = some '-' → '"' ∉ Atom.text as) (h : Clear as) :
    Clear (words.map .char ++ .char '"' :: as) := by
  induction words with
  | nil => exact ⟨fun heq => absurd heq (by decide), h⟩
  | cons c words ih =>
    cases words with
    | nil =>
      refine ⟨fun heq => ?_, ih (by simp) (by simp)⟩
      subst heq
      have hnone := hlast rfl
      simpa [opensPhrase, Atom.typed] using hnone
    | cons d words =>
      rw [List.getLast?_cons_cons] at hlast
      exact ⟨fun _ => opensPhrase_of_ne (hquote d (by simp)) _,
        ih (fun e he => hquote e (List.mem_cons_of_mem c he)) hlast⟩

theorem clear_of_parted (h : ∀ a ∈ as, Quotable a) (hdash : Undashed as) (hparted : Parted as) :
    Clear (as.flatMap spelled) := by
  induction as with
  | nil => trivial
  | cons a as ih =>
    have has : ∀ b ∈ as, Quotable b := fun b hb => h b (List.mem_cons_of_mem a hb)
    have ih := ih has hdash.of_cons
    cases a with
    | char c =>
      rw [flatMap_spelled_char]
      refine ⟨fun heq => ?_, ih ((parted_cons_char (h _ List.mem_cons_self).1).mp hparted)⟩
      subst heq
      rw [text_flatMap_spelled]
      exact opensPhrase_text has hdash
    | phrase negated words =>
      obtain ⟨hlast, hlater⟩ := parted_cons_phrase.mp hparted
      cases negated with
      | true => exact ih hlater
      | false =>
        obtain ⟨-, hwords⟩ := h _ List.mem_cons_self
        rw [List.flatMap_cons, spelled, List.cons_append, List.append_assoc]
        have hquote : words.getLast? = some '-' → '"' ∉ Atom.text (as.flatMap spelled) := fun hdash => by
          rw [text_flatMap_spelled]
          exact quote_not_mem_text (hlast (by simpa [endsDashed] using hdash))
        exact ⟨fun heq => absurd heq (by decide), clear_quoted (fun c hc => (hwords c hc).1) hquote (ih hlater)⟩

/-- Atoms that can be typed are found again in what is typed if no phrase follows a plain one that ends with a
    dash. -/
theorem scan_text_of_parted (h : ∀ a ∈ as, Quotable a) (hdash : Undashed as) (hparted : Parted as) :
    scan (Atom.text as) = as :=
  (scan_text_iff fun a ha => (h a ha).extracted).mpr ⟨clear_of_parted h hdash hparted, unpaired_of_quotable h⟩

theorem Typable.quotable {a : Atom} (h : Typable a) : Quotable a := by
  cases a with
  | char c => exact h
  | phrase negated words => exact ⟨h.1, h.2.1⟩

theorem parted_of_typable (h : ∀ a ∈ as, Typable a) : Parted as := by
  induction as with
  | nil => exact .nil
  | cons a as ih =>
    have ih := ih fun b hb => h b (List.mem_cons_of_mem a hb)
    cases a with
    | char c => exact (parted_cons_char (h _ List.mem_cons_self).1).mpr ih
    | phrase negated words =>
      refine parted_cons_phrase.mpr ⟨fun hdash => ?_, ih⟩
      cases negated with
      | true => cases hdash
      | false => exact absurd (by simpa [endsDashed] using hdash) (h _ List.mem_cons_self).2.2

/-- Atoms that can be typed are found again in what is typed, if none of their phrases ends with a dash. -/
theorem scan_text (h : ∀ a ∈ as, Typable a) (hdash : Undashed as) : scan (Atom.text as) = as :=
  scan_text_of_parted (fun a ha => (h a ha).quotable) hdash (parted_of_typable h)

theorem typable_of_mem_pad {as : List Atom} (h : ∀ a ∈ as, Typable a) : ∀ a ∈ Atom.pad as, Typable a :=
  Atom.forall_mem_pad ⟨by simp, rfl⟩ h

theorem head?_pad (as : List Atom) (negated : Bool) (words : Text) :
    (Atom.pad as).head? ≠ some (.phrase negated words) := by
  cases as with
  | nil => simp
  | cons a as => cases a <;> simp [Atom.spaced]

/-- No dash stands before a phrase with a space on either side. -/
theorem undashed_pad (as : List Atom) : Undashed (Atom.pad as) := by
  induction as with
  | nil => exact .nil
  | cons a as ih =>
    refine List.isChain_append.mpr ⟨?_, ih, fun x _ y hy _ words hphrase => ?_⟩
    · cases a <;> simp [Atom.spaced]
    · exact head?_pad as false words (hphrase ▸ hy)

theorem undashed_map_char (s : Text) : Undashed (s.map .char) := by
  induction s with
  | nil => exact .nil
  | cons c s ih =>
    refine List.isChain_cons.mpr ⟨fun a ha _ words => ?_, ih⟩
    obtain ⟨d, -, rfl⟩ := List.mem_map.mp (List.mem_of_mem_head? ha)
    exact Atom.noConfusion

/-- A text without quotes and marks has no phrases. -/
theorem scan_of_plain {s : Text} (h : ∀ c ∈ s, c ≠ '"' ∧ isMark c = false) : scan s = s.map .char := by
  have htypable : ∀ a ∈ s.map Atom.char, Typable a := fun a ha => by
    obtain ⟨c, hc, rfl⟩ := List.mem_map.mp ha
    exact h c hc
  have hscan := scan_text htypable (undashed_map_char s)
  rwa [Atom.text_map_char] at hscan

end Phrase
end SearchQuery
