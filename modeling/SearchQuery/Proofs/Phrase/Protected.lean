import SearchQuery.Proofs.Phrase.Typed

/-! The text that extraction gives, token by token. A token is a character, or a placeholder between its two spaces. The
    tokens of the atoms of a text number its phrases from one on, negated and plain ones apart, and a mark of
    placeholders stands in a placeholder only. A quote that is left over has no partner before the next negated phrase,
    so there is one at most between two of them (`extract_protects`). -/

namespace SearchQuery.Phrase

/-! ### Tokens -/

/-- A character of a text, or a placeholder in it. -/
inductive Token where
  | char (c : Char)
  | placeholder (negated : Bool) (index : Nat)
deriving Repr, DecidableEq

namespace Token

/-- The token as it is written, a placeholder with a space on either side. -/
def written : Token → Text
  | .char c => [c]
  | .placeholder negated index => ' ' :: Phrase.placeholder (tagOf negated) index ++ [' ']

/-- The index of a placeholder for a negated phrase, or of one for a plain phrase. -/
def index? (negated : Bool) : Token → Option Nat
  | .char _ => none
  | .placeholder n index => if n = negated then some index else none

/-- The token is the placeholder of a negated phrase. -/
def isNegated : Token → Bool
  | .placeholder true _ => true
  | _ => false

/-- The quotes among tokens. -/
def quotes (ts : List Token) : Nat := (ts.flatMap written).count '"'

theorem quotes_cons_char (c : Char) (ts : List Token) :
    quotes (.char c :: ts) = quotes ts + if c = '"' then 1 else 0 := by
  simp [quotes, written, List.count_cons]

theorem quotes_cons_placeholder (negated : Bool) (index : Nat) (ts : List Token) :
    quotes (.placeholder negated index :: ts) = quotes ts := by
  have hquote : '"' ∉ Phrase.placeholder (tagOf negated) index := fun h =>
    forall_mem_placeholder (p := fun c => c ≠ '"') (by decide) _ h rfl
  simp [quotes, written, List.count_append, List.count_eq_zero.mpr hquote]

end Token

/-- The atoms as tokens, their phrases numbered on from `i` negated and `j` plain ones. -/
def tokens (i j : Nat) : List Atom → List Token
  | [] => []
  | .char c :: as => .char c :: tokens i j as
  | .phrase true _ :: as => .placeholder true (i + 1) :: tokens (i + 1) j as
  | .phrase false _ :: as => .placeholder false (j + 1) :: tokens i (j + 1) as

variable {as : List Atom}

theorem flatMap_written_tokens (i j : Nat) (as : List Atom) :
    (tokens i j as).flatMap Token.written = numbered i j as := by
  fun_induction tokens i j as with
  | case1 => rfl
  | case2 i j c as ih => rw [List.flatMap_cons, ih, numbered, Token.written, List.singleton_append]
  | case3 i j words as ih => simp [ih, numbered, Token.written, tagOf]
  | case4 i j words as ih => simp [ih, numbered, Token.written, tagOf]

theorem mem_of_char_mem_tokens {i j : Nat} {c : Char} (h : .char c ∈ tokens i j as) : .char c ∈ as := by
  fun_induction tokens i j as with
  | case1 => cases h
  | case2 i j d as ih =>
    rcases List.mem_cons.mp h with h | h
    · cases h
      exact List.mem_cons_self
    · exact List.mem_cons_of_mem _ (ih h)
  | case3 i j words as ih => exact List.mem_cons_of_mem _ (ih (List.mem_of_ne_of_mem Token.noConfusion h))
  | case4 i j words as ih => exact List.mem_cons_of_mem _ (ih (List.mem_of_ne_of_mem Token.noConfusion h))

theorem mem_of_mem_phrases {negated : Bool} {words : Text} (h : words ∈ phrases negated as) :
    .phrase negated words ∈ as := by
  fun_induction phrases negated as with
  | case1 => cases h
  | case2 c as ih => exact List.mem_cons_of_mem _ (ih h)
  | case3 words' as ih =>
    rcases List.mem_cons.mp h with rfl | h
    · exact List.mem_cons_self
    · exact List.mem_cons_of_mem _ (ih h)
  | case4 n words' as hn ih => exact List.mem_cons_of_mem _ (ih h)

/-- The indexes of the placeholders of a kind are those of its phrases, in their order. -/
theorem filterMap_index?_tokens (negated : Bool) (i j : Nat) (as : List Atom) :
    (tokens i j as).filterMap (Token.index? negated) =
      List.range' ((if negated then i else j) + 1) (phrases negated as).length := by
  fun_induction tokens i j as with
  | case1 => rfl
  | case2 i j c as ih =>
    rw [List.filterMap_cons_none rfl, phrases]
    exact ih
  | case3 i j words as ih => cases negated <;> simpa [Token.index?, phrases, List.range'_succ] using ih
  | case4 i j words as ih => cases negated <;> simpa [Token.index?, phrases, List.range'_succ] using ih

/-! ### Quotes that are left over -/

theorem splitOnP_cons_of_not {t : Token} (ht : t.isNegated = false) {ts part : List Token} {parts : List (List Token)}
    (h : ts.splitOnP Token.isNegated = part :: parts) :
    (t :: ts).splitOnP Token.isNegated = (t :: part) :: parts := by
  rw [List.splitOnP_cons_eq_if_modifyHead, if_neg (by simp [ht]), h, List.modifyHead_cons]

/-- Before the first negated phrase, between two of them and after the last one there is at most one quote, and none
    before the first if the first atom with a quote is a negated phrase, or there is no such atom. -/
theorem exists_splitOnP_tokens (h : Unpaired as) (i j : Nat) :
    ∃ part parts, (tokens i j as).splitOnP Token.isNegated = part :: parts ∧
      ((∀ b ∈ as.find? Atom.hasQuote, ∃ words, b = .phrase true words) → Token.quotes part = 0) ∧
      ∀ ts ∈ part :: parts, Token.quotes ts ≤ 1 := by
  fun_induction tokens i j as with
  | case1 => exact ⟨[], [], rfl, fun _ => rfl, List.forall_mem_singleton.mpr (Nat.zero_le 1)⟩
  | case2 i j c as ih =>
    by_cases hc : c = '"'
    · subst hc
      obtain ⟨hnext, hlater⟩ := unpaired_cons_quote.mp h
      obtain ⟨part, parts, hsplit, hnone, hparts⟩ := ih hlater
      refine ⟨.char '"' :: part, parts, splitOnP_cons_of_not rfl hsplit, fun hfirst => ?_, ?_⟩
      · obtain ⟨words, hwords⟩ := hfirst _ (List.find?_cons_of_pos rfl)
        cases hwords
      · obtain ⟨-, hparts⟩ := List.forall_mem_cons.mp hparts
        refine List.forall_mem_cons.mpr ⟨?_, hparts⟩
        rw [Token.quotes_cons_char, hnone hnext, if_pos rfl]
    · obtain ⟨part, parts, hsplit, hnone, hparts⟩ := ih ((unpaired_cons_char hc).mp h)
      have hquotes : Token.quotes (.char c :: part) = Token.quotes part := by
        rw [Token.quotes_cons_char, if_neg hc, Nat.add_zero]
      refine ⟨.char c :: part, parts, splitOnP_cons_of_not rfl hsplit, fun hfirst => ?_, ?_⟩
      · rw [List.find?_cons_of_neg (by simpa [Atom.hasQuote] using hc)] at hfirst
        rw [hquotes, hnone hfirst]
      · rw [List.forall_mem_cons, hquotes]
        exact List.forall_mem_cons.mp hparts
  | case3 i j words as ih =>
    obtain ⟨part, parts, hsplit, -, hparts⟩ := ih (unpaired_cons_phrase.mp h)
    refine ⟨[], part :: parts, ?_, fun _ => rfl, List.forall_mem_cons.mpr ⟨Nat.zero_le 1, hparts⟩⟩
    rw [List.splitOnP_cons_eq_if_modifyHead, hsplit]
    rfl
  | case4 i j words as ih =>
    obtain ⟨part, parts, hsplit, -, hparts⟩ := ih (unpaired_cons_phrase.mp h)
    refine ⟨.placeholder false (j + 1) :: part, parts, splitOnP_cons_of_not rfl hsplit, fun hfirst => ?_, ?_⟩
    · obtain ⟨words', hwords⟩ := hfirst _ (List.find?_cons_of_pos rfl)
      cases hwords
    · rw [List.forall_mem_cons, Token.quotes_cons_placeholder]
      exact List.forall_mem_cons.mp hparts

/-! ### What extraction gives -/

/-- The tokens protect the phrases of the tables: marks stand in placeholders only, the placeholders of either table are
    numbered in their order, each entry once, and what is left of quotes cannot be paired across a negated phrase. The
    words of a phrase are not blank and hold no quote and no mark. -/
structure Protects (tables : Tables) (ts : List Token) : Prop where
  unmarked : ∀ c, .char c ∈ ts → isMark c = false
  negative : ts.filterMap (Token.index? true) = List.range' 1 tables.negative.length
  positive : ts.filterMap (Token.index? false) = List.range' 1 tables.positive.length
  words : ∀ words ∈ tables.negative ++ tables.positive,
    words.notBlank = true ∧ ∀ c ∈ words, c ≠ '"' ∧ isMark c = false
  quotes : ∀ part ∈ ts.splitOnP Token.isNegated, (part.flatMap Token.written).count '"' ≤ 1

/-- The text that extraction gives is written in tokens that protect the phrases of its tables. -/
theorem extract_protects (s : Text) :
    ∃ ts, (extract s).1 = ts.flatMap Token.written ∧ Protects (extract s).2 ts := by
  have hextracted : ∀ a ∈ scan s, Extracted (fun _ => True) a := extracted_scan fun _ _ => trivial
  have hphrase : ∀ negated, ∀ words ∈ phrases negated (scan s),
      words.notBlank = true ∧ ∀ c ∈ words, c ≠ '"' ∧ isMark c = false := fun negated words hwords => by
    obtain ⟨hblank, hchars⟩ := hextracted _ (mem_of_mem_phrases hwords)
    exact ⟨hblank, fun c hc => ⟨(hchars c hc).1, (hchars c hc).2.2⟩⟩
  rw [extract_eq]
  refine ⟨tokens 0 0 (scan s), (flatMap_written_tokens 0 0 (scan s)).symm, ?_⟩
  constructor
  case unmarked => exact fun c hc => (hextracted _ (mem_of_char_mem_tokens hc)).2
  case negative => exact filterMap_index?_tokens true 0 0 (scan s)
  case positive => exact filterMap_index?_tokens false 0 0 (scan s)
  case words =>
    intro words hwords
    rcases List.mem_append.mp hwords with hwords | hwords
    · exact hphrase true words hwords
    · exact hphrase false words hwords
  case quotes =>
    obtain ⟨part, parts, hsplit, -, hparts⟩ := exists_splitOnP_tokens (unpaired_scan s) 0 0
    rw [hsplit]
    exact hparts

/-- A forged placeholder, a quote that is left over before a negated phrase, and a blank phrase after a plain one. -/
example :
    extract "\"\ue000PK:9\ue001 -\"a\" \"b\"\" \"".toList =
      ("\"PK:9  \ue000NPK:1\ue001   \ue000PK:1\ue001 ".toList, ⟨[['a']], [['b']]⟩) := by
  decide +kernel

end SearchQuery.Phrase
