import SearchQuery.Phrase.Restore
import SearchQuery.Text.Symbols
import SearchQuery.Proofs.Text.Numeral
import SearchQuery.Proofs.Text.Pieces
import SearchQuery.Proofs.Text.Symbols
import Mathlib.Data.Bool.AllAny

/-! Atoms: what query text is made of while its phrases are taken out. A text with placeholders reads as a
    sequence of atoms when each of its placeholders leads to the words of a phrase. No placeholder holds a
    character that any later stage looks for, so a text can be cut at such a character and its parts still read
    as the parts of the sequence. -/

namespace SearchQuery

/-- A character of a query, or a phrase that stands in it. -/
inductive Atom where
  | char (c : Char)
  | phrase (negated : Bool) (words : Text)
deriving Repr, DecidableEq

namespace Atom

/-- The atom as it is typed: a phrase in quotes, with a dash before them if it is negated. -/
def typed : Atom → Text
  | .char c => [c]
  | .phrase true words => '-' :: '"' :: words ++ ['"']
  | .phrase false words => '"' :: words ++ ['"']

/-- The atom with a space on either side if it is a phrase. -/
def spaced : Atom → List Atom
  | .char c => [.char c]
  | .phrase negated words => [.char ' ', .phrase negated words, .char ' ']

/-- The text that is typed for atoms. -/
def text (as : List Atom) : Text := as.flatMap typed

/-- The atoms with a space on either side of every phrase. -/
def pad (as : List Atom) : List Atom := as.flatMap spaced

/-- The atom with its symbol in ASCII, if it is a character. -/
def normalize : Atom → Atom
  | .char c => .char (Text.normalizeSymbol c)
  | .phrase negated words => .phrase negated words

/-- The characters of the atom are of a class. -/
def Has (p : Char → Prop) : Atom → Prop
  | .char c => p c
  | .phrase _ words => ∀ c ∈ words, p c

/-- The atom is no character that delimits placeholders. -/
def Unmarked : Atom → Prop
  | .char c => Phrase.isMark c = false
  | .phrase _ _ => True

@[simp] theorem text_nil : text [] = [] := rfl

@[simp] theorem text_cons (a : Atom) (as : List Atom) : text (a :: as) = a.typed ++ text as := rfl

@[simp] theorem text_append (as bs : List Atom) : text (as ++ bs) = text as ++ text bs := List.flatMap_append

@[simp] theorem text_map_char (s : Text) : text (s.map .char) = s := by
  induction s with
  | nil => rfl
  | cons c s ih =>
    rw [List.map_cons, text_cons, ih]
    rfl

@[simp] theorem pad_nil : pad [] = [] := rfl

@[simp] theorem pad_cons (a : Atom) (as : List Atom) : pad (a :: as) = a.spaced ++ pad as := rfl

@[simp] theorem pad_append (as bs : List Atom) : pad (as ++ bs) = pad as ++ pad bs := List.flatMap_append

@[simp] theorem pad_map_char (s : Text) : pad (s.map .char) = s.map .char := by
  induction s with
  | nil => rfl
  | cons c s ih =>
    rw [List.map_cons, pad_cons, ih]
    rfl

/-- What holds of the atoms and of a space holds of the atoms with spaces beside the phrases. -/
theorem forall_mem_pad {p : Atom → Prop} (hspace : p (.char ' ')) {as : List Atom} (h : ∀ a ∈ as, p a) :
    ∀ a ∈ pad as, p a := by
  intro b hb
  obtain ⟨a, ha, hb⟩ := List.mem_flatMap.mp hb
  cases a with
  | char c =>
    rw [spaced, List.mem_singleton] at hb
    exact hb ▸ h _ ha
  | phrase negated words =>
    rw [spaced, List.mem_cons, List.mem_cons, List.mem_singleton] at hb
    rcases hb with rfl | rfl | rfl
    · exact hspace
    · exact h _ ha
    · exact hspace

theorem mem_text {p : Char → Prop} (hquote : p '"') (hdash : p '-') {as : List Atom} (h : ∀ a ∈ as, a.Has p) :
    ∀ c ∈ text as, p c := by
  intro c hc
  obtain ⟨a, ha, hc⟩ := List.mem_flatMap.mp hc
  have := h a ha
  cases a with
  | char d =>
    rw [List.mem_singleton.mp hc]
    exact this
  | phrase negated words =>
    cases negated <;> simp only [typed, List.cons_append, List.mem_cons, List.mem_append, List.not_mem_nil,
      or_false] at hc
    · rcases hc with rfl | hc | rfl
      · exact hquote
      · exact this c hc
      · exact hquote
    · rcases hc with rfl | rfl | hc | rfl
      · exact hdash
      · exact hquote
      · exact this c hc
      · exact hquote

end Atom

namespace Phrase

/-! ### Placeholders -/

/-- The tag of a phrase. -/
def tagOf (negated : Bool) : Text := if negated then negativeTag else positiveTag

/-- The characters that placeholders are written in. -/
def placeholderAlphabet : List Char :=
  [openMark, closeMark, ':', 'N', 'P', 'K', '0', '1', '2', '3', '4', '5', '6', '7', '8', '9']

theorem mem_placeholderAlphabet {negated : Bool} {n : Nat} :
    ∀ c ∈ placeholder (tagOf negated) n, c ∈ placeholderAlphabet := by
  intro c hc
  have hdigit : ∀ c ∈ Numeral.ofNat n, c ∈ placeholderAlphabet := Numeral.forall_mem_ofNat (by decide)
  have htag : ∀ c ∈ tagOf negated, c ∈ placeholderAlphabet := by
    cases negated <;> simp [tagOf, negativeTag, positiveTag, placeholderAlphabet]
  simp only [placeholder, List.cons_append, List.mem_cons, List.mem_append, List.not_mem_nil, or_false] at hc
  rcases hc with rfl | (hc | rfl | hc) | rfl
  · decide
  · exact htag c hc
  · decide
  · exact hdigit c hc
  · decide

/-- What holds of the characters that placeholders are written in holds of every character of a placeholder. -/
theorem forall_mem_placeholder {p : Char → Prop} [DecidablePred p] (h : placeholderAlphabet.all (p ·) = true)
    {negated : Bool} {n : Nat} : ∀ c ∈ placeholder (tagOf negated) n, p c := fun c hc =>
  List.all_iff_forall_prop.mp h c (mem_placeholderAlphabet c hc)

theorem reference?_eq (tag : Text) (n : Nat) (s : Text) :
    reference? tag (':' :: Numeral.ofNat n ++ closeMark :: s) = some ((tag, Numeral.ofNat n), s) := by
  have hmark : isDecimal closeMark = false := by decide
  rw [List.cons_append, reference?,
    Text.upTo?_append (fun c hc => Numeral.isDecimal_of_mem hc) hmark s]
  simp [Numeral.isEmpty_ofNat]

theorem read_placeholder (negated : Bool) (n : Nat) (s : Text) :
    placeholderPattern.read (placeholder (tagOf negated) n ++ s) = some ((tagOf negated, Numeral.ofNat n), s) := by
  have h := reference?_eq (tagOf negated) n s
  cases negated <;> simpa [placeholder, tagOf, negativeTag, positiveTag, openMark, placeholderPattern] using h

theorem read_of_ne_openMark {c : Char} (hc : c ≠ openMark) (s : Text) : placeholderPattern.read (c :: s) = none := by
  simp only [placeholderPattern]
  split
  · next heq => exact absurd (List.cons.inj heq).1 hc
  · next heq => exact absurd (List.cons.inj heq).1 hc
  · rfl

theorem ne_openMark {c : Char} (hc : isMark c = false) : c ≠ openMark := by
  rintro rfl
  cases hc

theorem find_of_getElem? {tables : Tables} {negated : Bool} {n : Nat} {words : Text}
    (h : (tables.entries (tagOf negated))[n]? = some words) :
    tables.find (tagOf negated) (Numeral.ofNat (n + 1)) = .ok words := by
  have hn := (List.getElem?_eq_some_iff.mp h).1
  have hlimit := Numeral.length_ofNat_le_lengthLimit (Nat.succ_le_of_lt hn)
  rw [Tables.find, if_neg (Nat.not_lt.mpr hlimit), Numeral.value_ofNat]
  simp only [Tables.lookup, h]

/-! ### Texts with placeholders -/

/-- The text reads as the atoms: its placeholders stand for the phrases. -/
inductive Reads (tables : Tables) : Text → List Atom → Prop where
  | nil : Reads tables [] []
  | char {c : Char} {s : Text} {as : List Atom} (hc : isMark c = false) (h : Reads tables s as) :
      Reads tables (c :: s) (.char c :: as)
  | phrase {negated : Bool} {n : Nat} {words s : Text} {as : List Atom}
      (hw : tables.find (tagOf negated) (Numeral.ofNat n) = .ok words) (h : Reads tables s as) :
      Reads tables (placeholder (tagOf negated) n ++ s) (.phrase negated words :: as)

namespace Reads

variable {tables : Tables} {s t : Text} {as bs : List Atom}

theorem append (hs : Reads tables s as) (ht : Reads tables t bs) : Reads tables (s ++ t) (as ++ bs) := by
  induction hs with
  | nil => exact ht
  | char hc _ ih => exact .char hc ih
  | phrase hw _ ih =>
    rw [List.append_assoc]
    exact .phrase hw ih

theorem unmarked (h : Reads tables s as) : ∀ a ∈ as, a.Unmarked := by
  induction h with
  | nil => simp
  | char hc _ ih => exact List.forall_mem_cons.mpr ⟨hc, ih⟩
  | phrase _ _ ih => exact List.forall_mem_cons.mpr ⟨trivial, ih⟩

/-- A text that reads as two sequences has a part for each. -/
theorem of_append (h : Reads tables s (as ++ bs)) : ∃ x y, s = x ++ y ∧ Reads tables x as ∧ Reads tables y bs := by
  induction as generalizing s with
  | nil => exact ⟨[], s, rfl, .nil, h⟩
  | cons a as ih =>
    cases h with
    | char hc h =>
      obtain ⟨x, y, rfl, hx, hy⟩ := ih h
      exact ⟨_ :: x, y, rfl, .char hc hx, hy⟩
    | phrase hw h =>
      obtain ⟨x, y, rfl, hx, hy⟩ := ih h
      exact ⟨_, y, (List.append_assoc _ x y).symm, .phrase hw hx, hy⟩

theorem normalizeSymbols (h : Reads tables s as) : Reads tables s.normalizeSymbols (as.map Atom.normalize) := by
  have hmark : ∀ c, isMark c = false → isMark (Text.normalizeSymbol c) = false := by
    intro c hc
    exact Text.normalizeSymbol_induction (p := fun c => isMark c = false) rfl rfl rfl hc
  induction h with
  | nil => exact .nil
  | char hc _ ih => exact .char (hmark _ hc) ih
  | @phrase negated n words s as hw _ ih =>
    have hsame : (placeholder (tagOf negated) n).map Text.normalizeSymbol = placeholder (tagOf negated) n :=
      (List.map_congr_left (forall_mem_placeholder (by decide))).trans (List.map_id _)
    rw [Text.normalizeSymbols, List.map_append, hsame]
    exact .phrase hw ih

/-! ### Phrases put back -/

theorem inQuery_eq (negated : Bool) (words : Text) :
    inQuery (tagOf negated) words = Atom.text (Atom.phrase negated words).spaced := by
  cases negated <;> simp [inQuery, tagOf, negativeTag, positiveTag, Atom.spaced, Atom.typed]

theorem restorePieces_eq (h : Reads tables s as) :
    restorePieces tables (placeholderPattern.pieces s) = .ok (Atom.text (Atom.pad as)) := by
  induction h with
  | nil =>
    rw [Pattern.pieces_nil]
    rfl
  | char hc _ ih =>
    rw [Pattern.pieces_of_none (read_of_ne_openMark (ne_openMark hc) _), restorePieces, ih]
    rfl
  | @phrase negated n words s as hw _ ih =>
    rw [Pattern.pieces_of_some (read_placeholder negated n s), restorePieces, hw, ih, Atom.pad_cons,
      Atom.text_append, ← inQuery_eq]
    rfl

/-- A text that reads as atoms is restored to what was typed, with a space on either side of every phrase. -/
theorem restore_eq (h : Reads tables s as) : restore tables s = .ok (Atom.text (Atom.pad as)) :=
  h.restorePieces_eq

end Reads
end Phrase
end SearchQuery
