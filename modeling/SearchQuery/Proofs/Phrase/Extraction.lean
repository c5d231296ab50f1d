import SearchQuery.Phrase.Extract
import SearchQuery.Proofs.Phrase.Atom
import SearchQuery.Proofs.Text.Words

/-! What extraction finds, said without numbers. `scan` gives the atoms of a text: its characters, and the
    phrases between them in their order. Extraction writes these atoms with numbered placeholders for the
    phrases (`extract_eq`), so every placeholder in its text leads to the phrase that stood there. It enters them
    one by one, which comes to the same as numbering them (`extract_eq_sweep`). -/

namespace SearchQuery.Phrase

/-! ### The atoms of a text -/

/-- The pieces of a text as atoms: finds are phrases, but blank ones are left out. -/
def marked (negated : Bool) : List (Piece Text) → List Atom
  | [] => []
  | .plain c :: ps => .char c :: marked negated ps
  | .found words :: ps =>
    if words.notBlank then .phrase negated words :: marked negated ps else marked negated ps

/-- The characters up to the next quote, if no phrase comes before it, and what follows the quote. -/
def quoted? : List Atom → Option (Text × List Atom)
  | .char c :: as =>
    if c = '"' then some ([], as) else (quoted? as).map fun (words, rest) => (c :: words, rest)
  | _ => none

theorem quoted?_eq_some {as rest : List Atom} {words : Text} (h : quoted? as = some (words, rest)) :
    as = words.map .char ++ .char '"' :: rest ∧ ∀ c ∈ words, c ≠ '"' := by
  fun_induction quoted? as generalizing words with
  | case1 as =>
    cases h
    exact ⟨rfl, by simp⟩
  | case2 c as hc ih =>
    obtain ⟨⟨words', rest'⟩, h', heq⟩ := Option.map_eq_some_iff.mp h
    cases heq
    obtain ⟨rfl, hwords⟩ := ih h'
    exact ⟨rfl, fun d hd => (List.mem_cons.mp hd).elim (fun h => h ▸ hc) (hwords d)⟩
  | case3 => cases h

/-- A quote, the characters up to the next one, and what follows it. -/
def opened? : List Atom → Option (Text × List Atom)
  | .char c :: as => if c = '"' then quoted? as else none
  | _ => none

theorem opened?_eq_some {as rest : List Atom} {words : Text} (h : opened? as = some (words, rest)) :
    as = .char '"' :: (words.map .char ++ .char '"' :: rest) ∧ ∀ c ∈ words, c ≠ '"' := by
  unfold opened? at h
  split at h
  · split at h
    · next hc =>
      obtain ⟨rfl, hwords⟩ := quoted?_eq_some h
      exact ⟨hc ▸ rfl, hwords⟩
    · cases h
  · cases h

/-- The atoms with the plain phrases among them taken together. -/
def plainPhrases : List Atom → List Atom
  | [] => []
  | a :: as =>
    match _h : opened? (a :: as) with
    | some (words, rest) =>
      if words.notBlank then .phrase false words :: plainPhrases rest else plainPhrases rest
    | none => a :: plainPhrases as
termination_by as => as.length
decreasing_by
  · rw [(opened?_eq_some _h).1]
    simp only [List.length_cons, List.length_append, List.length_map]
    omega
  · rw [(opened?_eq_some _h).1]
    simp only [List.length_cons, List.length_append, List.length_map]
    omega
  · simp

/-- The atoms of a text. -/
def scan (s : Text) : List Atom :=
  plainPhrases (marked true (negativePattern.pieces (s.filter fun c => !isMark c)))

/-- Marks in a text are passed over. -/
theorem scan_eq_scan_filter (s : Text) : scan s = scan (s.filter fun c => !isMark c) := by
  rw [scan, scan, List.filter_filter]
  simp only [Bool.and_self]

/-! ### What the patterns find -/

theorem read_negative_eq_some {s words rest : Text} (h : negativePattern.read s = some (words, rest)) :
    s = '-' :: '"' :: (words ++ '"' :: rest) ∧ ∀ c ∈ words, c ≠ '"' := by
  simp only [negativePattern] at h
  split at h
  · exact ⟨by rw [Text.eq_append_of_upTo? h], fun c hc => by simpa using Text.inside_of_upTo? h c hc⟩
  · cases h

theorem read_negative_of_ne {c : Char} (hc : c ≠ '-') (s : Text) : negativePattern.read (c :: s) = none := by
  simp only [negativePattern]
  split
  · next heq => exact absurd (List.cons.inj heq).1 hc
  · rfl

theorem read_positive_of_ne {c : Char} (hc : c ≠ '"') (s : Text) : positivePattern.read (c :: s) = none := by
  simp only [positivePattern]
  split
  · next heq => exact absurd (List.cons.inj heq).1 hc
  · rfl

/-- Pieces hold characters of the text, and finds of the pattern where what follows is a rest of the text. -/
theorem mem_pieces {β : Type} {p : Pattern β}
    (hp : ∀ {s rest value}, p.read s = some (value, rest) → ∃ x, s = x ++ rest) {s : Text} :
    (∀ c, .plain c ∈ p.pieces s → c ∈ s) ∧
      ∀ value, .found value ∈ p.pieces s → ∃ x t rest, s = x ++ t ∧ p.read t = some (value, rest) := by
  fun_induction p.pieces s with
  | case1 => simp
  | case2 c s value rest h ih =>
    obtain ⟨x, hx⟩ := hp h
    refine ⟨fun d hd => ?_, fun v hv => ?_⟩
    · rcases List.mem_cons.mp hd with hd | hd
      · cases hd
      · exact hx ▸ List.mem_append_right x (ih.1 d hd)
    · rcases List.mem_cons.mp hv with hv | hv
      · cases hv
        exact ⟨[], c :: s, rest, rfl, h⟩
      · obtain ⟨y, t, rest', rfl, ht⟩ := ih.2 v hv
        exact ⟨x ++ y, t, rest', by rw [hx, List.append_assoc], ht⟩
  | case3 c s h ih =>
    refine ⟨fun d hd => ?_, fun v hv => ?_⟩
    · rcases List.mem_cons.mp hd with hd | hd
      · cases hd
        exact List.mem_cons_self
      · exact List.mem_cons_of_mem c (ih.1 d hd)
    · rcases List.mem_cons.mp hv with hv | hv
      · cases hv
      · obtain ⟨x, t, rest, rfl, ht⟩ := ih.2 v hv
        exact ⟨c :: x, t, rest, rfl, ht⟩

theorem mem_marked {negated : Bool} {ps : List (Piece Text)} {a : Atom} (h : a ∈ marked negated ps) :
    (∃ c, a = .char c ∧ .plain c ∈ ps) ∨
      ∃ words, a = .phrase negated words ∧ .found words ∈ ps ∧ words.notBlank = true := by
  fun_induction marked negated ps with
  | case1 => cases h
  | case2 c ps ih =>
    rcases List.mem_cons.mp h with rfl | h
    · exact Or.inl ⟨c, rfl, List.mem_cons_self⟩
    · rcases ih h with ⟨d, rfl, hd⟩ | ⟨words, rfl, hw, hb⟩
      · exact Or.inl ⟨d, rfl, List.mem_cons_of_mem _ hd⟩
      · exact Or.inr ⟨words, rfl, List.mem_cons_of_mem _ hw, hb⟩
  | case3 words ps hb ih =>
    rcases List.mem_cons.mp h with rfl | h
    · exact Or.inr ⟨words, rfl, List.mem_cons_self, hb⟩
    · rcases ih h with ⟨d, rfl, hd⟩ | ⟨words, rfl, hw, hb⟩
      · exact Or.inl ⟨d, rfl, List.mem_cons_of_mem _ hd⟩
      · exact Or.inr ⟨words, rfl, List.mem_cons_of_mem _ hw, hb⟩
  | case4 words ps hb ih =>
    rcases ih h with ⟨d, rfl, hd⟩ | ⟨words, rfl, hw, hb⟩
    · exact Or.inl ⟨d, rfl, List.mem_cons_of_mem _ hd⟩
    · exact Or.inr ⟨words, rfl, List.mem_cons_of_mem _ hw, hb⟩

/-- What extraction leaves of characters that satisfy `p`: characters that delimit no placeholder, and
    phrases that are not blank and hold no quote. -/
def Extracted (p : Char → Prop) : Atom → Prop
  | .char c => p c ∧ isMark c = false
  | .phrase _ words => words.notBlank = true ∧ ∀ c ∈ words, c ≠ '"' ∧ p c ∧ isMark c = false

theorem extracted_plainPhrases {p : Char → Prop} {as : List Atom} (h : ∀ a ∈ as, Extracted p a) :
    ∀ a ∈ plainPhrases as, Extracted p a := by
  fun_induction plainPhrases as with
  | case1 => exact h
  | case2 a as words rest hq hb ih =>
    obtain ⟨heq, hwords⟩ := opened?_eq_some hq
    rw [heq] at h
    intro b hb'
    rcases List.mem_cons.mp hb' with rfl | hb'
    · exact ⟨hb, fun d hd => ⟨hwords d hd, h (.char d) (by simp [hd])⟩⟩
    · exact ih (fun b hb => h b (by simp [hb])) b hb'
  | case3 a as words rest hq hb ih =>
    rw [(opened?_eq_some hq).1] at h
    exact ih fun b hb => h b (by simp [hb])
  | case4 a as hq ih =>
    intro b hb
    rcases List.mem_cons.mp hb with rfl | hb
    · exact h b List.mem_cons_self
    · exact ih (fun b hb => h b (List.mem_cons_of_mem _ hb)) b hb

theorem extracted_marked {p : Char → Prop} {s : Text} (h : ∀ c ∈ s, p c) :
    ∀ a ∈ marked true (negativePattern.pieces (s.filter fun c => !isMark c)), Extracted p a := by
  intro a ha
  have hs : ∀ c ∈ s.filter (fun c => !isMark c), p c ∧ isMark c = false := fun c hc => by
    obtain ⟨hc, hm⟩ := List.mem_filter.mp hc
    exact ⟨h c hc, by simpa using hm⟩
  have hpieces := mem_pieces (p := negativePattern) (s := s.filter fun c => !isMark c)
    fun {_ _ words} hr => ⟨'-' :: '"' :: words ++ ['"'], by simp [(read_negative_eq_some hr).1]⟩
  rcases mem_marked ha with ⟨c, rfl, hc⟩ | ⟨words, rfl, hw, hb⟩
  · exact hs c (hpieces.1 c hc)
  · obtain ⟨x, t, rest, hx, ht⟩ := hpieces.2 words hw
    obtain ⟨rfl, hquote⟩ := read_negative_eq_some ht
    exact ⟨hb, fun c hc => ⟨hquote c hc, hs c (by simp [hx, hc])⟩⟩

theorem extracted_scan {p : Char → Prop} {s : Text} (h : ∀ c ∈ s, p c) : ∀ a ∈ scan s, Extracted p a :=
  extracted_plainPhrases (extracted_marked h)

/-! ### Entering phrases one by one -/

/-- Replaces the phrases that a pattern finds by placeholders of the tag, each with a space on either side. -/
def sweep (p : Pattern Text) (tag s : Text) : Text × List Text :=
  Piece.number (fun n => ' ' :: placeholder tag n ++ [' ']) 0 (p.pieces s)

namespace Tables

/-- The tables with more phrases at the end of one of them. -/
def extend (tables : Tables) (tag : Text) (bodies : List Text) : Tables :=
  if tag = negativeTag then { tables with negative := tables.negative ++ bodies }
  else { tables with positive := tables.positive ++ bodies }

theorem add_eq (tables : Tables) (tag body : Text) :
    tables.add tag body = (tables.extend tag [body], placeholder tag ((tables.entries tag).length + 1)) := by
  unfold add extend
  split <;> rfl

theorem entries_extend (tables : Tables) (tag : Text) (bodies : List Text) :
    (tables.extend tag bodies).entries tag = tables.entries tag ++ bodies := by
  unfold entries extend
  split <;> rfl

theorem extend_nil (tables : Tables) (tag : Text) : tables.extend tag [] = tables := by
  unfold extend
  split <;> rw [List.append_nil]

theorem extend_extend (tables : Tables) (tag : Text) (bodies more : List Text) :
    (tables.extend tag bodies).extend tag more = tables.extend tag (bodies ++ more) := by
  unfold extend
  split <;> rw [List.append_assoc]

/-- Finds that are entered one by one are numbered on from the size of their table. -/
theorem enter_eq (tag : Text) (tables : Tables) (ps : List (Piece Text)) :
    enter tag tables ps =
      ((Piece.number (fun n => ' ' :: placeholder tag n ++ [' ']) (tables.entries tag).length ps).1,
        tables.extend tag
          (Piece.number (fun n => ' ' :: placeholder tag n ++ [' ']) (tables.entries tag).length ps).2) := by
  fun_induction enter tag tables ps with
  | case1 tables =>
    rw [Piece.number, extend_nil]
  | case2 tables c ps text later hlater ih =>
    cases hlater.symm.trans ih
    rfl
  | case3 tables body ps hb next mark hadd text later hlater ih =>
    cases hadd.symm.trans (tables.add_eq tag body)
    cases hlater.symm.trans ih
    simp [Piece.number, hb, entries_extend, extend_extend]
  | case4 tables body ps hb ih =>
    rw [ih, Piece.number, if_neg hb]

end Tables

/-- Extraction sweeps the text for negated phrases, and what this leaves for plain ones. -/
theorem extract_eq_sweep (s : Text) :
    extract s =
      let (text, negative) := sweep negativePattern negativeTag (s.filter fun c => !isMark c)
      let (text, positive) := sweep positivePattern positiveTag text
      (text, ⟨negative, positive⟩) := by
  simp only [extract, Tables.enter_eq, sweep]
  rfl

/-! ### Numbers -/

/-- The words of the phrases among the atoms, negated or plain ones. -/
def phrases (negated : Bool) : List Atom → List Text
  | [] => []
  | .char _ :: as => phrases negated as
  | .phrase n words :: as => if n = negated then words :: phrases negated as else phrases negated as

/-- The atoms written with placeholders for the phrases, numbered on from `i` negated and `j` plain ones. -/
def numbered (i j : Nat) : List Atom → Text
  | [] => []
  | .char c :: as => c :: numbered i j as
  | .phrase true _ :: as => ' ' :: placeholder negativeTag (i + 1) ++ ' ' :: numbered (i + 1) j as
  | .phrase false _ :: as => ' ' :: placeholder positiveTag (j + 1) ++ ' ' :: numbered i (j + 1) as

theorem number_negative (i j : Nat) (ps : List (Piece Text)) :
    Piece.number (fun n => ' ' :: placeholder negativeTag n ++ [' ']) i ps =
      (numbered i j (marked true ps), phrases true (marked true ps)) := by
  fun_induction marked true ps generalizing i with
  | case1 => rfl
  | case2 c ps ih => simp only [Piece.number, numbered, phrases, ih]
  | case3 words ps hb ih =>
    simp only [Piece.number, hb, ite_true, ih]
    simp [numbered, phrases]
  | case4 words ps hb ih => simp only [Piece.number, hb, ih]; rfl

/-- The atoms have no plain phrases yet, and no character of them delimits placeholders. -/
def NoPlain (as : List Atom) : Prop :=
  ∀ a ∈ as, (∀ words, a ≠ .phrase false words) ∧ ∀ c, a = .char c → isMark c = false

theorem NoPlain.of_cons {a : Atom} {as : List Atom} (h : NoPlain (a :: as)) : NoPlain as :=
  fun b hb => h b (List.mem_cons_of_mem a hb)

theorem NoPlain.of_opened {as rest : List Atom} {words : Text} (h : NoPlain as)
    (hopened : opened? as = some (words, rest)) : NoPlain rest :=
  fun b hb => h b (by simp [(opened?_eq_some hopened).1, hb])

theorem not_noPlain_cons {words : Text} {as : List Atom} : ¬NoPlain (.phrase false words :: as) :=
  fun h => (h _ List.mem_cons_self).1 words rfl

theorem upTo?_numbered {i : Nat} {as : List Atom} (h : NoPlain as) :
    Text.upTo? (fun c => c ≠ '"' && c ≠ openMark) '"' (numbered i 0 as) =
      (quoted? as).map fun (words, rest) => (words, numbered i 0 rest) := by
  fun_induction quoted? as with
  | case1 as =>
    rw [numbered, Text.upTo?_cons_of_not (by decide)]
    rfl
  | case2 c as hc ih =>
    have hmark := ne_openMark ((h _ List.mem_cons_self).2 c rfl)
    rw [numbered, Text.upTo?_cons (by simp [hc, hmark]), ih h.of_cons]
    simp only [Option.map_map]
    rfl
  | case3 as hne =>
    match as with
    | [] => rfl
    | .char c :: as => exact absurd rfl (hne c as)
    | .phrase true words :: as =>
      simp only [numbered, placeholder, List.cons_append]
      rw [Text.upTo?_cons (by decide), Text.upTo?_cons_of_not (by decide)]
      rfl
    | .phrase false words :: as => exact absurd h not_noPlain_cons

theorem read_positive_numbered {i : Nat} {as : List Atom} (h : NoPlain as) :
    positivePattern.read (numbered i 0 as) = (opened? as).map fun (words, rest) => (words, numbered i 0 rest) := by
  match as with
  | [] => rfl
  | .char c :: as =>
    rw [opened?, numbered]
    split
    · next hc =>
      subst hc
      exact upTo?_numbered h.of_cons
    · next hc => exact read_positive_of_ne hc _
  | .phrase true words :: as => exact read_positive_of_ne (by decide) _
  | .phrase false words :: as => exact absurd h not_noPlain_cons

theorem pieces_positive_append_placeholder (n : Nat) (s : Text) :
    positivePattern.pieces (' ' :: placeholder negativeTag n ++ ' ' :: s) =
      (' ' :: placeholder negativeTag n ++ [' ']).map .plain ++ positivePattern.pieces s := by
  have hquote : ∀ c ∈ placeholder (tagOf true) n, c ≠ '"' := forall_mem_placeholder (by decide)
  have hnone : ∀ c ∈ ' ' :: placeholder negativeTag n ++ [' '], ∀ rest, positivePattern.read (c :: rest) = none := by
    intro c hc rest
    refine read_positive_of_ne ?_ rest
    simp only [List.cons_append, List.mem_cons, List.mem_append, List.not_mem_nil, or_false] at hc
    rcases hc with rfl | hc | rfl
    · decide
    · exact hquote c hc
    · decide
  rw [← Pattern.pieces_append hnone]
  simp

theorem number_plain {as : List Atom} (h : NoPlain as) (i j : Nat) :
    Piece.number (fun n => ' ' :: placeholder positiveTag n ++ [' ']) j (positivePattern.pieces (numbered i 0 as)) =
      (numbered i j (plainPhrases as), phrases false (plainPhrases as)) := by
  fun_induction plainPhrases as generalizing i j with
  | case1 =>
    rw [numbered, Pattern.pieces_nil]
    rfl
  | case2 a as words rest hq hb ih =>
    have hread := read_positive_numbered (i := i) h
    rw [hq] at hread
    rw [Pattern.pieces_of_some hread]
    simp only [Piece.number, hb, ite_true, ih (h.of_opened hq)]
    simp [numbered, phrases]
  | case3 a as words rest hq hb ih =>
    have hread := read_positive_numbered (i := i) h
    rw [hq] at hread
    rw [Pattern.pieces_of_some hread]
    simp only [Piece.number, hb, ih (h.of_opened hq)]
    rfl
  | case4 a as hq ih =>
    cases a with
    | char c =>
      have hread := read_positive_numbered (i := i) h
      rw [hq, numbered] at hread
      rw [numbered, Pattern.pieces_of_none hread]
      simp only [Piece.number, ih h.of_cons, numbered, phrases]
    | phrase negated words =>
      cases negated with
      | true =>
        rw [numbered, pieces_positive_append_placeholder, Piece.number_map_plain_append, ih h.of_cons]
        simp [numbered, phrases]
      | false => exact absurd h not_noPlain_cons

theorem phrases_append (negated : Bool) (as bs : List Atom) :
    phrases negated (as ++ bs) = phrases negated as ++ phrases negated bs := by
  fun_induction phrases negated as with
  | case1 => rfl
  | case2 c as ih => simpa only [List.cons_append, phrases] using ih
  | case3 words as ih => simp [phrases, ih]
  | case4 n words as hn ih => simp [phrases, ih, hn]

@[simp] theorem phrases_map_char (negated : Bool) (s : Text) : phrases negated (s.map .char) = [] := by
  induction s with
  | nil => rfl
  | cons c s ih => simpa only [List.map_cons, phrases] using ih

theorem phrases_true_plainPhrases (as : List Atom) : phrases true (plainPhrases as) = phrases true as := by
  fun_induction plainPhrases as with
  | case1 => rfl
  | case2 a as words rest hq hb ih =>
    rw [(opened?_eq_some hq).1]
    simp [phrases, phrases_append, ih]
  | case3 a as words rest hq hb ih =>
    rw [(opened?_eq_some hq).1]
    simp [phrases, phrases_append, ih]
  | case4 a as hq ih =>
    cases a with
    | char c => simpa only [phrases] using ih
    | phrase n words => simp only [phrases, ih]

/-- The tables of the phrases among the atoms. -/
def tablesOf (as : List Atom) : Tables := ⟨phrases true as, phrases false as⟩

theorem noPlain_marked (s : Text) : NoPlain (marked true (negativePattern.pieces (s.filter fun c => !isMark c))) := by
  intro a ha
  rcases mem_marked ha with ⟨c, rfl, hc⟩ | ⟨words, rfl, -⟩
  · refine ⟨fun _ => by simp, fun d hd => ?_⟩
    cases hd
    exact (extracted_marked (p := fun _ => True) (fun _ _ => trivial) _ ha).2
  · exact ⟨fun _ => by simp, fun _ => by simp⟩

/-- Extraction writes the atoms of a text with their phrases numbered, and tabulates the phrases. -/
theorem extract_eq (s : Text) : extract s = (numbered 0 0 (scan s), tablesOf (scan s)) := by
  -- The second sweep reads a text with placeholders in it, and takes none of them for a phrase.
  simp only [extract_eq_sweep, sweep, number_negative 0 0, number_plain (noPlain_marked s)]
  rw [tablesOf, scan, phrases_true_plainPhrases]

/-- Tables that hold the phrases of the atoms, on from the numbers `i` and `j`, lead every placeholder of the
    numbered text to its phrase. -/
theorem reads_numbered {tables : Tables} {as : List Atom} (hmark : ∀ c, .char c ∈ as → isMark c = false) {i j : Nat}
    (hneg : ∀ k words, (phrases true as)[k]? = some words → tables.negative[i + k]? = some words)
    (hpos : ∀ k words, (phrases false as)[k]? = some words → tables.positive[j + k]? = some words) :
    Reads tables (numbered i j as) (Atom.pad as) := by
  induction as generalizing i j with
  | nil => exact .nil
  | cons a as ih =>
    have hmark' : ∀ c, .char c ∈ as → isMark c = false := fun c hc => hmark c (List.mem_cons_of_mem _ hc)
    match a with
    | .char c => exact .char (hmark c List.mem_cons_self) (ih hmark' hneg hpos)
    | .phrase true words =>
      have hw : tables.find (tagOf true) (Numeral.ofNat (i + 1)) = .ok words := find_of_getElem? (hneg 0 words rfl)
      have hlater := ih hmark' (i := i + 1) (j := j)
        (fun k w hk => by simpa [Nat.add_assoc, Nat.add_comm 1 k] using hneg (k + 1) w hk) hpos
      exact .char rfl (.phrase hw (.char rfl hlater))
    | .phrase false words =>
      have hw : tables.find (tagOf false) (Numeral.ofNat (j + 1)) = .ok words := find_of_getElem? (hpos 0 words rfl)
      have hlater := ih hmark' (i := i) (j := j + 1) hneg
        fun k w hk => by simpa [Nat.add_assoc, Nat.add_comm 1 k] using hpos (k + 1) w hk
      exact .char rfl (.phrase hw (.char rfl hlater))

/-- The text that extraction gives reads as the atoms that were found, phrases between spaces. -/
theorem reads_extract (s : Text) : Reads (extract s).2 (extract s).1 (Atom.pad (scan s)) := by
  rw [extract_eq]
  refine reads_numbered (fun c hc => ?_) (fun k words hk => ?_) (fun k words hk => ?_)
  · exact (extracted_scan (p := fun _ => True) (fun _ _ => trivial) _ hc).2
  · rwa [Nat.zero_add]
  · rwa [Nat.zero_add]

end SearchQuery.Phrase
