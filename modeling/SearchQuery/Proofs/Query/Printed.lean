import SearchQuery.Proofs.Layer.Filling
import SearchQuery.Proofs.Query.RoundTrip

/-! The atoms that canonical query text is typed from. Characters stand for terms, connectives, brackets and dashes, and
    a phrase with its dash is one atom, so other words in the phrases of a condition are other words in the same atoms
    (`typed_mapLeaves`). -/

namespace SearchQuery

open Condition (Every)

namespace Atom

/-- The atoms after a dash, which a lone phrase takes for its own. -/
def negate : List Atom → List Atom
  | [.phrase false words] => [.phrase true words]
  | as => .char '-' :: as

/-- The atoms in brackets, if they need them. -/
def bracketIf (needed : Bool) (as : List Atom) : List Atom :=
  if needed then .char '(' :: (as ++ [.char ')']) else as

end Atom

namespace Condition

mutual

/-- The atoms that the canonical query text of a condition is typed from. -/
def typed : ClosedCondition → List Atom
  | .blank => []
  | .keyword t => t.map .char
  | .phrase w => [.phrase false w]
  | .negation c => Atom.negate (Atom.bracketIf c.isCompound (typed c))
  | .compound op parts => typedParts op parts
  | .foreign value => value.elim

/-- The atoms of the parts of a compound joined by `op`, with the connective in words between two of them. -/
def typedParts (op : Connective) : List ClosedCondition → List Atom
  | [] => []
  | [c] => Atom.bracketIf (c.isOtherCompound op) (typed c)
  | c :: d :: cs =>
    Atom.bracketIf (c.isOtherCompound op) (typed c) ++ ((separator op).map .char ++ typedParts op (d :: cs))

end

end Condition

/-! ### The text of the atoms -/

namespace Atom

theorem text_negate (as : List Atom) : text (negate as) = '-' :: text as := by
  unfold negate
  split
  · rfl
  · rfl

theorem text_bracketIf (needed : Bool) (as : List Atom) :
    text (bracketIf needed as) = Condition.bracketIf needed (text as) := by
  cases needed with
  | false => rfl
  | true =>
    show text (.char '(' :: (as ++ [.char ')'])) = _
    rw [text_cons, text_append]
    rfl

end Atom

namespace Condition

theorem text_typedParts {op : Connective} {parts : List ClosedCondition}
    (h : ∀ c ∈ parts, Atom.text c.typed = c.queryText) :
    Atom.text (typedParts op parts) =
      Text.joinWith (separator op) (parts.map fun c => bracketIf (c.isOtherCompound op) c.queryText) := by
  induction parts with
  | nil => rw [typedParts]; rfl
  | cons c cs ih =>
    have hc := h c List.mem_cons_self
    have ih := ih fun d hd => h d (List.mem_cons_of_mem c hd)
    cases cs with
    | nil =>
      rw [typedParts, Atom.text_bracketIf, hc]
      simp [Text.joinWith]
    | cons d cs =>
      rw [typedParts, Atom.text_append, Atom.text_append, Atom.text_map_char, Atom.text_bracketIf, hc, ih,
        List.map_cons (a := c), Text.joinWith_cons (List.map_eq_nil_iff.not.mpr (List.cons_ne_nil d cs))]

/-- The atoms are typed as the canonical query text. -/
theorem text_typed (c : ClosedCondition) : Atom.text c.typed = c.queryText := by
  induction c using byParts with
  | blank => rw [typed, queryText_blank]; rfl
  | keyword t => rw [typed, queryText_keyword, Atom.text_map_char]
  | phrase w =>
    rw [typed, queryText_phrase]
    exact List.append_nil _
  | negation c ih => rw [typed, Atom.text_negate, Atom.text_bracketIf, ih, queryText_negation]
  | compound op parts ih => rw [typed, text_typedParts ih, queryText_compound]

/-! ### The atoms one by one -/

/-- The characters that are typed beside terms and phrases. -/
def typingAlphabet : Text := ['-', '(', ')', ' ', 'A', 'N', 'D', 'O', 'R']

end Condition

namespace Atom

variable {p : Atom → Prop} {as : List Atom}

theorem forall_mem_negate (hdash : p (.char '-')) (hnegated : ∀ w, p (.phrase false w) → p (.phrase true w))
    (h : ∀ a ∈ as, p a) : ∀ a ∈ negate as, p a := by
  unfold negate
  split
  · next words => simpa using hnegated words (h _ List.mem_cons_self)
  · exact List.forall_mem_cons.mpr ⟨hdash, h⟩

theorem forall_mem_bracketIf (hchar : ∀ c ∈ Condition.typingAlphabet, p (.char c)) (needed : Bool) (h : ∀ a ∈ as, p a) :
    ∀ a ∈ bracketIf needed as, p a := by
  cases needed with
  | false => exact h
  | true =>
    intro a ha
    rcases List.mem_cons.mp ha with rfl | ha
    · exact hchar _ (by decide)
    · rcases List.mem_append.mp ha with ha | ha
      · exact h a ha
      · exact List.mem_singleton.mp ha ▸ hchar _ (by decide)

end Atom

namespace Condition

variable {p : Atom → Prop} {term phrase : Text → Prop}

theorem forall_mem_typedParts (hchar : ∀ c ∈ typingAlphabet, p (.char c)) {op : Connective}
    {parts : List ClosedCondition} (h : ∀ c ∈ parts, ∀ a ∈ c.typed, p a) : ∀ a ∈ typedParts op parts, p a := by
  have hsep : ∀ a ∈ (separator op).map Atom.char, p a := fun a ha => by
    obtain ⟨c, hc, rfl⟩ := List.mem_map.mp ha
    refine hchar c ?_
    revert c
    cases op <;> simp [separator, Connective.word, typingAlphabet]
  induction parts with
  | nil => rw [typedParts]; simp
  | cons c cs ih =>
    have hc := Atom.forall_mem_bracketIf hchar (c.isOtherCompound op) (h c List.mem_cons_self)
    have ih := ih fun d hd => h d (List.mem_cons_of_mem c hd)
    cases cs with
    | nil =>
      rw [typedParts]
      exact hc
    | cons d cs =>
      rw [typedParts]
      exact List.forall_mem_append.mpr ⟨hc, List.forall_mem_append.mpr ⟨hsep, ih⟩⟩

theorem forall_mem_typed (hchar : ∀ c ∈ typingAlphabet, p (.char c))
    (hnegated : ∀ w, p (.phrase false w) → p (.phrase true w)) {c : ClosedCondition}
    (h : c.Every (fun t => ∀ d ∈ t, p (.char d)) fun w => p (.phrase false w)) : ∀ a ∈ c.typed, p a := by
  induction h with
  | blank => rw [typed]; simp
  | keyword h =>
    rw [typed]
    simpa using h
  | phrase h =>
    rw [typed]
    simpa using h
  | @negation c h ih =>
    rw [typed]
    exact Atom.forall_mem_negate (hchar _ (by decide)) hnegated (Atom.forall_mem_bracketIf hchar _ ih)
  | compound h ih =>
    rw [typed]
    exact forall_mem_typedParts hchar ih

end Condition

/-! ### Other words in the phrases -/

namespace Atom

variable (f : Text → Text)

theorem negate_map_mapWords (as : List Atom) : negate (as.map (mapWords f)) = (negate as).map (mapWords f) := by
  match as with
  | [] => rfl
  | [.char _] => rfl
  | [.phrase true _] => rfl
  | [.phrase false _] => rfl
  | .char _ :: _ :: _ => rfl
  | .phrase true _ :: _ :: _ => rfl
  | .phrase false _ :: _ :: _ => rfl

theorem bracketIf_map_mapWords (needed : Bool) (as : List Atom) :
    bracketIf needed (as.map (mapWords f)) = (bracketIf needed as).map (mapWords f) := by
  cases needed with
  | false => rfl
  | true =>
    show .char '(' :: (as.map (mapWords f) ++ [.char ')']) = (.char '(' :: (as ++ [.char ')'])).map (mapWords f)
    rw [List.map_cons, List.map_append]
    rfl

end Atom

namespace Condition

variable (f : Text → Text)

theorem isCompound_mapLeaves (c : ClosedCondition) : (c.mapLeaves id f).isCompound = c.isCompound := by
  cases c with
  | foreign value => exact value.elim
  | _ => rfl

theorem isOtherCompound_mapLeaves (op : Connective) (c : ClosedCondition) :
    (c.mapLeaves id f).isOtherCompound op = c.isOtherCompound op := by
  cases c with
  | foreign value => exact value.elim
  | _ => rfl

theorem typedParts_mapLeaves {op : Connective} {parts : List ClosedCondition}
    (h : ∀ c ∈ parts, (c.mapLeaves id f).typed = c.typed.map (Atom.mapWords f)) :
    typedParts op (parts.map (mapLeaves id f)) = (typedParts op parts).map (Atom.mapWords f) := by
  have hsep : ((separator op).map Atom.char).map (Atom.mapWords f) = (separator op).map Atom.char :=
    List.map_map.trans rfl
  induction parts with
  | nil => rw [List.map_nil, typedParts]; rfl
  | cons c cs ih =>
    have hc := h c List.mem_cons_self
    have ih := ih fun d hd => h d (List.mem_cons_of_mem c hd)
    cases cs with
    | nil =>
      rw [List.map_singleton, typedParts, typedParts, isOtherCompound_mapLeaves, hc, Atom.bracketIf_map_mapWords]
    | cons d cs =>
      rw [List.map_cons] at ih
      rw [List.map_cons, List.map_cons, typedParts, typedParts, ih, isOtherCompound_mapLeaves, hc,
        Atom.bracketIf_map_mapWords, List.map_append, List.map_append, hsep]

/-- Other words in the phrases of a condition are other words in the phrases that its text is typed from. -/
theorem typed_mapLeaves (c : ClosedCondition) : (c.mapLeaves id f).typed = c.typed.map (Atom.mapWords f) := by
  induction c using byParts with
  | blank => rw [mapLeaves_blank, typed]; rfl
  | keyword t =>
    rw [mapLeaves_keyword, typed, typed, List.map_map]
    rfl
  | phrase w => rw [mapLeaves_phrase, typed, typed]; rfl
  | negation c ih =>
    rw [mapLeaves_negation, typed, typed, isCompound_mapLeaves, ih, Atom.bracketIf_map_mapWords,
      Atom.negate_map_mapWords]
  | compound op parts ih => rw [mapLeaves_compound, typed, typed, typedParts_mapLeaves f ih]

end Condition

/-! ### Dashes -/

namespace Atom

variable {as : List Atom}

open Phrase (Undashed)

theorem undashed_bracketIf (needed : Bool) (h : Undashed as) : Undashed (bracketIf needed as) := by
  cases needed with
  | false => exact h
  | true =>
    refine List.isChain_cons.mpr ⟨fun b _ hdash => absurd hdash (by decide), ?_⟩
    refine List.isChain_append.mpr ⟨h, List.isChain_singleton _, fun a _ b hb _ words hphrase => ?_⟩
    subst hphrase
    cases hb

theorem undashed_negate (h : Undashed as) (hhead : ∀ words, as.head? = some (.phrase false words) → as.length = 1) :
    Undashed (negate as) := by
  unfold negate
  split
  · exact List.isChain_singleton _
  · next hne =>
    refine List.isChain_cons.mpr ⟨fun b hb _ words hphrase => ?_, h⟩
    subst hphrase
    obtain ⟨bs, rfl⟩ := List.head?_eq_some_iff.mp hb
    obtain rfl : bs = [] := by simpa using hhead words hb
    exact hne words rfl

end Atom

namespace Condition

open Phrase (Undashed)

theorem undashed_typedParts {op : Connective} {parts : List ClosedCondition} (h : ∀ c ∈ parts, Undashed c.typed) :
    Undashed (typedParts op parts) := by
  induction parts with
  | nil => rw [typedParts]; exact .nil
  | cons c cs ih =>
    have hc := Atom.undashed_bracketIf (c.isOtherCompound op) (h c List.mem_cons_self)
    have ih := ih fun d hd => h d (List.mem_cons_of_mem c hd)
    cases cs with
    | nil =>
      rw [typedParts]
      exact hc
    | cons d cs =>
      rw [typedParts]
      refine List.isChain_append.mpr ⟨hc, List.isChain_append.mpr ⟨Phrase.undashed_map_char _, ih, ?_⟩, ?_⟩
      · intro a ha b _ hdash
        rw [separator, List.map_append, List.map_singleton, List.getLast?_concat] at ha
        cases ha
        exact absurd hdash (by decide)
      · intro a _ b hb _ words hphrase
        rw [separator] at hb
        cases hb
        cases hphrase

theorem length_of_head?_typed {c : ClosedCondition} {words : Text}
    (h : (Atom.bracketIf c.isCompound c.typed).head? = some (.phrase false words)) :
    (Atom.bracketIf c.isCompound c.typed).length = 1 := by
  cases c with
  | foreign value => exact value.elim
  | blank => rw [typed] at h; cases h
  | keyword t =>
    rw [typed] at h
    cases t <;> cases h
  | phrase w => rw [typed]; rfl
  | compound op parts => cases h
  | negation c =>
    rw [typed] at h
    change (Atom.negate _).head? = _ at h
    unfold Atom.negate at h
    split at h <;> cases h

/-- No dash of the text stands before a phrase that it does not belong to. -/
theorem undashed_typed (c : ClosedCondition) : Undashed c.typed := by
  induction c using byParts with
  | blank => rw [typed]; exact .nil
  | keyword t => rw [typed]; exact Phrase.undashed_map_char t
  | phrase w => rw [typed]; exact List.isChain_singleton _
  | negation c ih =>
    rw [typed]
    exact Atom.undashed_negate (Atom.undashed_bracketIf _ ih) fun words => length_of_head?_typed
  | compound op parts ih =>
    rw [typed]
    exact undashed_typedParts ih

end Condition
end SearchQuery
