import SearchQuery.Proofs.Bracket.Nest
import Mathlib.Logic.Relation

/-! Texts with matched brackets, in either width. Such a text adds one nest to whatever level it is read on
    (`Matched.closes`). Deleting a pair around blanks leaves that nest as it is, so a text asks for something
    exactly when something is left of it after all such pairs have been deleted (`isBlank_of_deletes`). -/

namespace SearchQuery

namespace Bracket

/-! ### Matched brackets -/

/-- The character opens a bracket, of either width. -/
def IsOpen (c : Char) : Prop := c = '(' ∨ c = '（'

/-- The character closes a bracket, of either width. -/
def IsClose (c : Char) : Prop := c = ')' ∨ c = '）'

instance : DecidablePred IsOpen := fun c => inferInstanceAs (Decidable (c = '(' ∨ c = '（'))

instance : DecidablePred IsClose := fun c => inferInstanceAs (Decidable (c = ')' ∨ c = '）'))

/-- Every bracket of the text has a partner. -/
inductive Matched : Text → Prop where
  | nil : Matched []
  | char {c : Char} {s : Text} (hopen : ¬IsOpen c) (hclose : ¬IsClose c) (h : Matched s) : Matched (c :: s)
  | pair {o c : Char} {s t : Text} (ho : IsOpen o) (hc : IsClose c) (hs : Matched s) (ht : Matched t) :
      Matched (o :: s ++ c :: t)

/-- The second text is left of the first when a pair of brackets around blanks is deleted. -/
def DeletesBlankPair (s t : Text) : Prop :=
  ∃ x o blanks c y, IsOpen o ∧ IsClose c ∧ Text.notBlank blanks = false ∧ s = x ++ o :: (blanks ++ c :: y) ∧ t = x ++ y

/-- The characters of a text as atoms, with the symbols in ASCII. -/
def atomsOf (s : Text) : List Atom := s.map fun c => .char (Text.normalizeSymbol c)

theorem atomsOf_eq (s : Text) : atomsOf s = s.normalizeSymbols.map .char := List.map_map.symm

theorem atomsOf_append (s t : Text) : atomsOf (s ++ t) = atomsOf s ++ atomsOf t := List.map_append

theorem atomsOf_open {o : Char} (ho : IsOpen o) (s : Text) : atomsOf (o :: s) = .char '(' :: atomsOf s := by
  rcases ho with rfl | rfl <;> rfl

theorem atomsOf_close {c : Char} (hc : IsClose c) (s : Text) : atomsOf (c :: s) = .char ')' :: atomsOf s := by
  rcases hc with rfl | rfl <;> rfl

theorem isBracket_normalizeSymbol {c : Char} (hopen : ¬IsOpen c) (hclose : ¬IsClose c) :
    Nest.isBracket (.char (Text.normalizeSymbol c)) = false := by
  rw [IsOpen, not_or] at hopen
  rw [IsClose, not_or] at hclose
  rw [Text.normalizeSymbol, if_neg hopen.2, if_neg hclose.2]
  split
  · rfl
  · simp [Nest.isBracket, hopen.1, hclose.1]

/-- The nest that a text is read as. -/
def nestOf (s : Text) : Nest := Nest.resume [] .nil (.ofAtoms (atomsOf s))

/-- The atom is no bracket. -/
def Unbracketed (a : Atom) : Prop := Nest.isBracket a = false

variable {s t : Text}

/-! ### Reading matched brackets -/

namespace Matched

theorem append (hs : Matched s) (ht : Matched t) : Matched (s ++ t) := by
  induction hs with
  | nil => exact ht
  | char hopen hclose _ ih => exact .char hopen hclose ih
  | pair ho hc hs _ _ ih =>
    rw [List.append_assoc]
    exact .pair ho hc hs ih

theorem of_plain (h : ∀ c ∈ s, ¬IsOpen c ∧ ¬IsClose c) : Matched s := by
  induction s with
  | nil => exact .nil
  | cons c s ih =>
    exact .char (h c List.mem_cons_self).1 (h c List.mem_cons_self).2 (ih fun d hd => h d (List.mem_cons_of_mem c hd))

theorem exists_closes (h : Matched s) : ∃ ns, Nest.Closes (atomsOf s) ns ∧ ns.Each Unbracketed := by
  induction h with
  | nil => exact ⟨.nil, .nil, trivial⟩
  | @char c s hopen hclose h ih =>
    obtain ⟨ns, hns, heach⟩ := ih
    have hc := isBracket_normalizeSymbol hopen hclose
    exact ⟨_, (Nest.Closes.atom hc).append hns, hc, heach⟩
  | @pair o c s t ho hc hs ht ihs iht =>
    obtain ⟨inside, hinside, heachInside⟩ := ihs
    obtain ⟨later, hlater, heachLater⟩ := iht
    refine ⟨Nest.closed inside ++ later, ?_, heachInside.closed.append heachLater⟩
    have hclosed := hinside.pair.append hlater
    rw [atomsOf_append, atomsOf_open ho, atomsOf_close hc]
    simpa using hclosed

/-- A text with matched brackets adds its nest to any level it is read on. -/
theorem closes (h : Matched s) : Nest.Closes (atomsOf s) (nestOf s) := by
  obtain ⟨ns, hns, -⟩ := h.exists_closes
  rwa [nestOf, hns.resume_eq]

theorem each_nestOf (h : Matched s) : (nestOf s).Each Unbracketed := by
  obtain ⟨ns, hns, heach⟩ := h.exists_closes
  rwa [nestOf, hns.resume_eq]

end Matched

theorem nestOf_append (hs : Matched s) (ht : Matched t) : nestOf (s ++ t) = nestOf s ++ nestOf t := by
  have h := hs.closes.append ht.closes
  rw [← atomsOf_append] at h
  exact h.resume_eq

theorem nestOf_bracketed {o c : Char} (ho : IsOpen o) (hc : IsClose c) (hs : Matched s) :
    nestOf (o :: s ++ [c]) = Nest.closed (nestOf s) := by
  have h := hs.closes.pair
  rw [nestOf, atomsOf_append, atomsOf_open ho, atomsOf_close hc]
  exact h.resume_eq

theorem nestOf_char {c : Char} (hopen : ¬IsOpen c) (hclose : ¬IsClose c) :
    nestOf [c] = .atom (.char (Text.normalizeSymbol c)) .nil :=
  (Nest.Closes.atom (isBracket_normalizeSymbol hopen hclose)).resume_eq

/-! ### No bracket without a partner -/

/-- After the text, `n` brackets that stand open before it are closed. -/
def ClosesOpen : Nat → Text → Prop
  | 0, s => Matched s
  | n + 1, s => ∃ t c u, s = t ++ c :: u ∧ Matched t ∧ IsClose c ∧ ClosesOpen n u

theorem ClosesOpen.append {n : Nat} (hs : Matched s) (ht : ClosesOpen n t) : ClosesOpen n (s ++ t) := by
  cases n with
  | zero => exact hs.append ht
  | succ n =>
    obtain ⟨x, c, y, rfl, hx, hc, hy⟩ := ht
    exact ⟨s ++ x, c, y, (List.append_assoc s x _).symm, hs.append hx, hc, hy⟩

/-- Nothing is dropped where every bracket has a partner. -/
theorem dropBrackets_eq_self {ns : Nest} (h : ns.Each Unbracketed) : ns.dropBrackets = ns := by
  induction ns with
  | nil => rfl
  | pair inside later _ ih => rw [Nest.dropBrackets, ih h.2]
  | atom a later ih => rw [Nest.dropBrackets, if_neg (Bool.eq_false_iff.mp h.1), ih h.2]

theorem unbracketed_of_isBlank {ns : Nest} (h : ns.isBlank = true) : ns.Each Unbracketed := by
  induction ns with
  | nil => trivial
  | pair inside later _ _ => cases h
  | atom a later ih =>
    cases a with
    | phrase => cases h
    | char c =>
      rw [Nest.isBlank, Bool.and_eq_true] at h
      refine ⟨?_, ih h.2⟩
      rw [Unbracketed, Bool.eq_false_iff]
      intro hc
      rcases Nest.eq_of_isBracket hc with rfl | rfl <;> exact absurd h.1 (by decide)

theorem unbracketed_of_closed {ns : Nest} (h : (Nest.closed ns).Each Unbracketed) : ns.Each Unbracketed := by
  cases hblank : ns.isBlank with
  | true => exact unbracketed_of_isBlank hblank
  | false =>
    rw [Nest.closed_of_not_isBlank hblank] at h
    exact h.1

theorem not_unbracketed_spliced (outer current : Nest) (opens : List Nest) :
    ¬(Nest.spliced opens (outer ++ .atom (.char '(') current)).Each Unbracketed := by
  induction opens generalizing outer current with
  | nil =>
    intro h
    cases Nest.Each.of_append h |>.2.1
  | cons o opens ih => exact ih o _

theorem unbracketed_of_spliced {opens : List Nest} {current : Nest}
    (h : (Nest.spliced opens current).Each Unbracketed) :
    opens = [] ∧ current.Each Unbracketed := by
  cases opens with
  | nil => exact ⟨rfl, h⟩
  | cons outer opens => exact absurd h (not_unbracketed_spliced outer current opens)

/-- What is unbracketed in the end was so all along. -/
theorem unbracketed_of_resume {ns : Nest} {opens : List Nest} {current : Nest}
    (h : (Nest.resume opens current ns).Each Unbracketed) :
    current.Each Unbracketed ∧ ∀ outer ∈ opens, outer.Each Unbracketed := by
  induction ns generalizing opens current with
  | nil =>
    obtain ⟨rfl, hcurrent⟩ := unbracketed_of_spliced h
    exact ⟨hcurrent, by simp⟩
  | pair inside later _ ih =>
    obtain ⟨hcurrent, hopens⟩ := ih h
    exact ⟨hcurrent.of_append.1, hopens⟩
  | atom a later ih =>
    by_cases ha : Nest.isBracket a = true
    · cases a with
      | phrase => cases ha
      | char c =>
        rcases Nest.eq_of_isBracket ha with rfl | rfl
        · obtain ⟨-, hopens⟩ := ih h
          exact ⟨hopens current List.mem_cons_self, fun o ho => hopens o (List.mem_cons_of_mem current ho)⟩
        · cases opens with
          | nil =>
            obtain ⟨hcurrent, -⟩ := ih h
            exact ⟨hcurrent.of_append.1, by simp⟩
          | cons outer opens =>
            obtain ⟨hcurrent, hopens⟩ := ih h
            refine ⟨unbracketed_of_closed hcurrent.of_append.2, fun o ho => ?_⟩
            rcases List.mem_cons.mp ho with rfl | ho
            · exact hcurrent.of_append.1
            · exact hopens o ho
    · rw [Nest.resume_atom (by simpa using ha)] at h
      obtain ⟨hcurrent, hopens⟩ := ih h
      exact ⟨hcurrent.of_append.1, hopens⟩

theorem closesOpen_of_resume {opens : List Nest} {current : Nest}
    (h : (Nest.resume opens current (.ofAtoms (atomsOf s))).Each Unbracketed) : ClosesOpen opens.length s := by
  induction s generalizing opens current with
  | nil =>
    obtain ⟨rfl, -⟩ := unbracketed_of_spliced h
    exact .nil
  | cons c s ih =>
    by_cases hopen : IsOpen c
    · rw [atomsOf_open hopen] at h
      obtain ⟨t, d, u, rfl, ht, hd, hu⟩ : ClosesOpen (opens.length + 1) s := ih h
      have happend := ClosesOpen.append (.pair hopen hd ht .nil) hu
      rwa [List.append_assoc] at happend
    · by_cases hclose : IsClose c
      · rw [atomsOf_close hclose] at h
        cases opens with
        -- Without an open bracket it would stay behind as an atom.
        | nil =>
          have hstray : (Nest.resume [] (current ++ .atom (.char ')') .nil) (.ofAtoms (atomsOf s))).Each Unbracketed :=
            h
          cases (unbracketed_of_resume hstray).1.of_append.2.1
        | cons outer opens => exact ⟨[], c, s, rfl, .nil, hclose, ih h⟩
      · rw [atomsOf, List.map_cons, Nest.ofAtoms_cons, Nest.resume_atom (isBracket_normalizeSymbol hopen hclose)] at h
        exact ClosesOpen.append (.char hopen hclose .nil) (ih h)

/-- The brackets of a text match exactly when none of them is left without a partner in its nest. -/
theorem matched_iff : Matched s ↔ (nestOf s).Each Unbracketed :=
  ⟨Matched.each_nestOf, fun h => closesOpen_of_resume h⟩

/-! ### Deleting pairs around blanks -/

theorem unbracketed_atomsOf (h : Text.notBlank s = false) : ∀ a ∈ atomsOf s, Unbracketed a := by
  intro a ha
  obtain ⟨c, hc, rfl⟩ := List.mem_map.mp ha
  have hblank := Text.notBlank_eq_false_iff.mp h c hc
  refine isBracket_normalizeSymbol (fun hopen => ?_) fun hclose => ?_
  · rcases hopen with rfl | rfl <;> exact absurd hblank (by decide)
  · rcases hclose with rfl | rfl <;> exact absurd hblank (by decide)

theorem nestOf_of_deletes (h : DeletesBlankPair s t) : nestOf s = nestOf t := by
  obtain ⟨x, o, blanks, c, y, ho, hc, hblank, rfl, rfl⟩ := h
  have hclosed : Nest.closed (.ofAtoms (atomsOf blanks)) = .nil := Nest.closed_of_isBlank <| by
    rw [atomsOf_eq, Nest.isBlank_ofAtoms_char, Text.notBlank_normalizeSymbols, hblank]
    rfl
  have hpair := (Nest.Closes.ofAtoms (unbracketed_atomsOf hblank)).pair
  rw [hclosed] at hpair
  have hatoms : atomsOf (o :: (blanks ++ c :: y)) =
      (.char '(' :: (atomsOf blanks ++ [.char ')'])) ++ atomsOf y := by
    rw [atomsOf_open ho, atomsOf_append, atomsOf_close hc]
    simp
  rw [nestOf, nestOf, atomsOf_append, atomsOf_append, Nest.ofAtoms_append, Nest.ofAtoms_append]
  refine Nest.resume_ofAtoms_congr (fun opens current => ?_) (atomsOf x) [] .nil
  rw [hatoms, Nest.ofAtoms_append, hpair, Nest.append_nil]

theorem matched_of_deletes (h : DeletesBlankPair s t) (hs : Matched s) : Matched t := by
  rw [matched_iff, ← nestOf_of_deletes h]
  exact hs.each_nestOf

theorem DeletesBlankPair.append_left (h : DeletesBlankPair s t) (u : Text) : DeletesBlankPair (u ++ s) (u ++ t) := by
  obtain ⟨x, o, blanks, c, y, ho, hc, hblank, rfl, rfl⟩ := h
  exact ⟨u ++ x, o, blanks, c, y, ho, hc, hblank, (List.append_assoc u x _).symm, (List.append_assoc u x y).symm⟩

theorem DeletesBlankPair.append_right (h : DeletesBlankPair s t) (u : Text) : DeletesBlankPair (s ++ u) (t ++ u) := by
  obtain ⟨x, o, blanks, c, y, ho, hc, hblank, rfl, rfl⟩ := h
  exact ⟨x, o, blanks, c, y ++ u, ho, hc, hblank, by simp, List.append_assoc x y u⟩

/-- A text that comes to nothing is blank, or a pair around blanks can be deleted from it. -/
theorem exists_deletes (h : Matched s) (hblank : (nestOf s).isBlank = true) :
    Text.notBlank s = false ∨ ∃ t, DeletesBlankPair s t := by
  induction h with
  | nil => exact Or.inl rfl
  | @char c s hopen hclose h ih =>
    have hnest := nestOf_append (.char hopen hclose .nil) h
    rw [nestOf_char hopen hclose] at hnest
    rw [List.singleton_append] at hnest
    rw [hnest, Nest.atom_append, Nest.nil_append, Nest.isBlank, Bool.and_eq_true,
      Text.isBlank_normalizeSymbol] at hblank
    rcases ih hblank.2 with hs | ⟨t, ht⟩
    · rw [← List.singleton_append, Text.notBlank_append, hs, Bool.or_false]
      simp [Text.notBlank, hblank.1]
    · exact Or.inr ⟨c :: t, ht.append_left [c]⟩
  | @pair o c s t ho hc hs ht ihs iht =>
    have hnest := nestOf_append (.pair ho hc hs .nil) ht
    rw [nestOf_bracketed ho hc hs, List.append_assoc, List.singleton_append] at hnest
    rw [hnest, Nest.isBlank_append, Nest.isBlank_closed, Bool.and_eq_true] at hblank
    refine Or.inr ?_
    rcases ihs hblank.1 with hs | ⟨u, hu⟩
    · exact ⟨t, [], o, s, c, t, ho, hc, hs, rfl, rfl⟩
    · exact ⟨_, (hu.append_right (c :: t)).append_left [o]⟩

theorem matched_of_reflTransGen (hs : Matched s) (h : Relation.ReflTransGen DeletesBlankPair s t) :
    Matched t ∧ nestOf t = nestOf s := by
  induction h with
  | refl => exact ⟨hs, rfl⟩
  | tail _ hstep ih => exact ⟨matched_of_deletes hstep ih.1, (nestOf_of_deletes hstep).symm.trans ih.2⟩

/-- Something is left of the text when pairs around blanks have been deleted from it until there are none. -/
def LeavesSomething (s : Text) : Prop :=
  ∃ t, Relation.ReflTransGen DeletesBlankPair s t ∧ (∀ u, ¬DeletesBlankPair t u) ∧ Text.notBlank t = true

theorem isBlank_nestOf (hs : Matched s) (h : LeavesSomething s) : (nestOf s).isBlank = false := by
  obtain ⟨t, hdeletes, hdone, ht⟩ := h
  obtain ⟨hmatched, hnest⟩ := matched_of_reflTransGen hs hdeletes
  rw [← hnest, Bool.eq_false_iff]
  intro hblank
  rcases exists_deletes hmatched hblank with hblank | ⟨u, hu⟩
  · rw [ht] at hblank
    cases hblank
  · exact hdone u hu

end Bracket
end SearchQuery
