import SearchQuery.Skeleton.Substitute
import SearchQuery.Proofs.Condition.Places
import SearchQuery.Proofs.Text.Numeral
import Mathlib.Data.List.TakeWhile

/-! Conditions in place of the terms of a skeleton. Substituting looks at every compound of the skeleton once, when its
    parts have been put in place, and joins it at its top alone; conditions that are canonical already need no more than
    that (`substitute_eq`). The numerals of a skeleton may have leading zeros, and one of more digits than are read is
    refused, the first of them from the left. -/

namespace SearchQuery

/-- What stands right below the top of a condition. -/
def Condition.children : ClosedCondition → List ClosedCondition
  | .negation c => [c]
  | .compound _ parts => parts
  | _ => []

namespace Skeleton

open Condition (Reduced simplify)

/-! ### Skeletons -/

/-- A text is a numeral in ASCII digits, of an index into `size` entries. -/
structure IsIndex (size : Nat) (key : Text) : Prop where
  ne_nil : key ≠ []
  digits : ∀ c ∈ key, c.isDigit = true
  value_lt : Numeral.value key < size

/-- A condition is made of nothing but indexes into `size` entries, blank conditions and compounds. -/
inductive IsSkeleton (size : Nat) : ClosedCondition → Prop where
  | blank : IsSkeleton size .blank
  | index {key : Text} (h : IsIndex size key) : IsSkeleton size (.keyword key)
  | compound {op : Connective} {parts : List ClosedCondition} (h : ∀ c ∈ parts, IsSkeleton size c) :
      IsSkeleton size (.compound op parts)

mutual

/-- The skeleton with every index replaced by the condition behind it. -/
def filled (conditions : List ClosedCondition) : ClosedCondition → ClosedCondition
  | .blank => .blank
  | .keyword key => conditions[Numeral.value key]?.getD .blank
  | .phrase words => .phrase words
  | .negation c => .negation (filled conditions c)
  | .compound op parts => .compound op (filledAll conditions parts)

/-- Several skeletons with every index replaced. -/
def filledAll (conditions : List ClosedCondition) : List ClosedCondition → List ClosedCondition
  | [] => []
  | c :: cs => filled conditions c :: filledAll conditions cs

end

mutual

/-- The indexes of a skeleton from left to right. -/
def indexes : ClosedCondition → List Text
  | .blank => []
  | .keyword key => [key]
  | .phrase _ => []
  | .negation c => indexes c
  | .compound _ parts => indexesAll parts

/-- The indexes of several skeletons, one skeleton after another. -/
def indexesAll : List ClosedCondition → List Text
  | [] => []
  | c :: cs => indexes c ++ indexesAll cs

end

/-- The value, unless one of the keys has more digits than are read: then the first of them is refused. -/
def checked {β : Type} (size : Nat) (keys : List Text) (value : β) : Except (SlotFault Empty) β :=
  match keys.find? fun key => Numeral.lengthLimit size < key.length with
  | some key => .error (.overlong key.length)
  | none => .ok value

variable {conditions : List ClosedCondition} {key : Text} {skeleton : ClosedCondition} {parts : List ClosedCondition}

theorem filledAll_eq (cs : List ClosedCondition) : filledAll conditions cs = cs.map (filled conditions) := by
  induction cs with
  | nil => rw [filledAll]; rfl
  | cons c cs ih => rw [filledAll, ih]; rfl

theorem indexesAll_eq (cs : List ClosedCondition) : indexesAll cs = cs.flatMap indexes := by
  induction cs with
  | nil => rw [indexesAll]; rfl
  | cons c cs ih => rw [indexesAll, ih]; rfl

theorem isIndex_ofNat {n size : Nat} (h : n < size) : IsIndex size (Numeral.ofNat n) where
  ne_nil := Numeral.ofNat_ne_nil n
  digits := Numeral.forall_mem_ofNat (by decide)
  value_lt := by rwa [Numeral.value_ofNat]

/-! ### Indexes resolved -/

/-- A term of decimal digits is read, unless there are more of them than are read. -/
theorem resolve_of_decimal {α : Type} {conditions : List (Condition α)} (hne : key ≠ [])
    (hdecimal : ∀ c ∈ key, isDecimal c = true) :
    resolve conditions key =
      if Numeral.lengthLimit conditions.length < key.length then .error (.overlong key.length)
      else conditions[Numeral.value key]?.elim (.error (.unresolved key conditions.length)) .ok := by
  have hdigits : key.all isDigitLike = true :=
    List.all_eq_true.mpr fun c hc => Numeral.isDigitLike_of_isDecimal (hdecimal c hc)
  have htake : key.takeWhile isDecimal = key := List.takeWhile_eq_self_iff.mpr hdecimal
  have hempty : key.isEmpty = false := List.isEmpty_eq_false_iff.mpr hne
  have hread : Numeral.read? key = some (Numeral.value key) := by
    rw [Numeral.read?, hempty, List.all_eq_true.mpr hdecimal]
    rfl
  rw [resolve, htake, hempty, hdigits, hread]
  simp only [Bool.not_true, Bool.or_self, Bool.false_eq_true, ite_false]
  cases conditions[Numeral.value key]? <;> rfl

/-- An index leads to its condition, unless it has more digits than are read. -/
theorem resolve_eq (h : IsIndex conditions.length key) :
    resolve conditions key =
      if Numeral.lengthLimit conditions.length < key.length then .error (.overlong key.length)
      else .ok (conditions[Numeral.value key]?.getD .blank) := by
  rw [resolve_of_decimal h.ne_nil fun c hc => Numeral.isDecimal_of_isDigit (h.digits c hc),
    List.getElem?_eq_getElem h.value_lt]
  rfl

/-! ### Skeletons filled -/

theorem checked_singleton {β : Type} (size : Nat) (key : Text) (value : β) :
    checked size [key] value =
      if Numeral.lengthLimit size < key.length then .error (.overlong key.length) else .ok value := by
  rw [checked, List.find?_singleton]
  by_cases h : Numeral.lengthLimit size < key.length
  · rw [if_pos h, if_pos (decide_eq_true h)]
  · rw [if_neg h, if_neg (by simpa using h)]

theorem checked_map {β γ : Type} (size : Nat) (keys : List Text) (x : β) (f : β → γ) :
    checked size keys (f x) = (do
      let x ← checked size keys x
      return f x) := by
  unfold checked
  split <;> rfl

/-- No index of the common length is refused. -/
theorem checked_of_short {β : Type} {size : Nat} {keys : List Text} {value : β}
    (h : ∀ key ∈ keys, key.length ≤ Numeral.commonLength) : checked size keys value = .ok value := by
  have hnone : (keys.find? fun key => decide (Numeral.lengthLimit size < key.length)) = none := by
    rw [List.find?_eq_none]
    intro key hkey
    have hlimit : Numeral.commonLength ≤ Numeral.lengthLimit size := Nat.le_max_left _ _
    have hlength := h key hkey
    simp only [decide_eq_true_eq]
    omega
  rw [checked, hnone]

/-- Of two values with keys of their own, the keys of the first are looked at first. -/
theorem checked_append {β γ δ : Type} (size : Nat) (keys keys' : List Text) (x : β) (y : γ) (f : β → γ → δ) :
    checked size (keys ++ keys') (f x y) = (do
      let x ← checked size keys x
      let y ← checked size keys' y
      return f x y) := by
  simp only [checked, List.find?_append]
  cases keys.find? fun key => decide (Numeral.lengthLimit size < key.length) with
  | some key => rfl
  | none =>
    rw [Option.none_or]
    cases keys'.find? fun key => decide (Numeral.lengthLimit size < key.length) <;> rfl

theorem substituteAll_eq
    (h : ∀ c ∈ parts, substitute conditions c =
      checked conditions.length (indexes c) (simplify (filled conditions c))) :
    substituteAll conditions parts =
      checked conditions.length (parts.flatMap indexes) ((parts.map (filled conditions)).map simplify) := by
  induction parts with
  | nil => rw [substituteAll]; rfl
  | cons c cs ih =>
    rw [substituteAll, h c List.mem_cons_self, ih fun d hd => h d (List.mem_cons_of_mem c hd), List.flatMap_cons,
      List.map_cons, List.map_cons, checked_append]

/-- Substituting canonical conditions gives the canonical form of the skeleton that they are put in. -/
theorem substitute_eq (hconditions : ∀ c ∈ conditions, c.Reduced) (h : IsSkeleton conditions.length skeleton) :
    substitute conditions skeleton =
      checked conditions.length (indexes skeleton) (simplify (filled conditions skeleton)) := by
  induction h with
  | blank => rw [substitute, filled, Condition.simplify_blank]; rfl
  | @index key h =>
    have hreduced : (conditions[Numeral.value key]?.getD .blank).Reduced := by
      rw [List.getElem?_eq_getElem h.value_lt]
      exact hconditions _ (List.getElem_mem h.value_lt)
    rw [substitute, resolve_eq h, filled, hreduced.simplify, indexes, checked_singleton]
  | @compound op parts h ih =>
    rw [substitute, substituteAll_eq ih, filled, filledAll_eq, Condition.simplify_compound, indexes, indexesAll_eq,
      checked_map _ _ _ (Condition.join op)]

/-- Canonical form at the top is canonical form throughout where the rest is canonical already. -/
theorem simplifyTop_eq {c : ClosedCondition} (h : ∀ child ∈ c.children, child.Reduced) :
    c.simplifyTop = c.simplify := by
  cases c with
  | blank => rw [Condition.simplify_blank]; rfl
  | keyword term => rw [Condition.simplify_keyword]; rfl
  | phrase words => rw [Condition.simplify_phrase]; rfl
  | negation c =>
    have hc : c.Reduced := h c List.mem_cons_self
    rw [Condition.simplify_negation, hc.simplify]
    rfl
  | compound op parts =>
    have hparts : ∀ c ∈ parts, c.Reduced := h
    rw [Condition.simplify_compound, Condition.map_simplify hparts]
    rfl
  | foreign value => exact value.elim

/-- Substituting canonical conditions gives the canonical form of the skeleton that they are put in, unless an index of
    it has more digits than are read; and canonical form at the top of a condition is its canonical form whenever all
    that stands right below is canonical. -/
theorem substitute_eq_simplify (conditions : List ClosedCondition) (hconditions : ∀ c ∈ conditions, c.Reduced) :
    (∀ skeleton, IsSkeleton conditions.length skeleton →
      substitute conditions skeleton =
        checked conditions.length (indexes skeleton) (simplify (filled conditions skeleton))) ∧
      ∀ c : ClosedCondition, (∀ child ∈ c.children, child.Reduced) → c.simplifyTop = c.simplify :=
  ⟨fun _ h => substitute_eq hconditions h, fun _ h => simplifyTop_eq h⟩

/-- Compounds of one kind meet on several levels of the skeleton, beside a blank condition and a part on its own; one
    index has a leading zero. -/
theorem substitute_eq_simplify_nested :
    substitute [.keyword ['a'], .compound .or [.keyword ['b'], .phrase ['c']], .blank,
        (.compound .and [.keyword ['d'], .keyword ['e']] : ClosedCondition)]
        (.compound .and [.keyword ['0'], .compound .or [.keyword ['0', '1'], .compound .or [.keyword ['2']]],
          .compound .and [.keyword ['2'], .keyword ['3']]]) =
      .ok (.compound .and [.keyword ['a'], .compound .or [.keyword ['b'], .phrase ['c']], .keyword ['d'],
        .keyword ['e']]) := by
  have hindex : ∀ key ∈ [['0'], ['0', '1'], ['2'], ['3']], IsSkeleton 4 (.keyword key) := by
    simp only [List.forall_mem_cons]
    have hdigits : ∀ key : Text, key.all Char.isDigit = true → ∀ c ∈ key, c.isDigit = true := fun _ => List.all_eq_true.mp
    exact ⟨.index ⟨by decide, hdigits _ rfl, by decide⟩, .index ⟨by decide, hdigits _ rfl, by decide⟩,
      .index ⟨by decide, hdigits _ rfl, by decide⟩, .index ⟨by decide, hdigits _ rfl, by decide⟩, by simp⟩
  have hskeleton : IsSkeleton 4 (.compound .and [.keyword ['0'], .compound .or [.keyword ['0', '1'],
      .compound .or [.keyword ['2']]], .compound .and [.keyword ['2'], .keyword ['3']]]) := by
    refine .compound (List.forall_mem_cons.mpr ⟨hindex _ (by simp), List.forall_mem_cons.mpr ⟨.compound ?_, ?_⟩⟩)
    · refine List.forall_mem_cons.mpr ⟨hindex _ (by simp), List.forall_mem_singleton.mpr (.compound ?_)⟩
      exact List.forall_mem_singleton.mpr (hindex _ (by simp))
    · refine List.forall_mem_singleton.mpr (.compound (List.forall_mem_cons.mpr ⟨hindex _ (by simp), ?_⟩))
      exact List.forall_mem_singleton.mpr (hindex _ (by simp))
  have hconditions : ∀ c ∈ [.keyword ['a'], .compound .or [.keyword ['b'], .phrase ['c']], .blank,
      .compound .and [.keyword ['d'], .keyword ['e']]], (c : ClosedCondition).Reduced := by
    simp only [List.forall_mem_cons, ← Condition.simplify_eq_self_iff]
    exact ⟨rfl, rfl, rfl, rfl, by simp⟩
  exact ((substitute_eq_simplify _ hconditions).1 _ hskeleton).trans (checked_of_short (by decide))

theorem value_replicate_zero (n : Nat) : Numeral.value (List.replicate n '0') = 0 := by
  induction n with
  | zero => rfl
  | succ n ih =>
    have hzero : Numeral.value ('0' :: List.replicate n '0') = Numeral.value (List.replicate n '0') := rfl
    rw [List.replicate_succ, hzero, ih]

/-- An index in so many digits that they are not read is refused, although it is zero. -/
theorem not_substitute_eq_simplify :
    ¬ ∀ conditions : List ClosedCondition, (∀ c ∈ conditions, c.Reduced) →
      ∀ skeleton, IsSkeleton conditions.length skeleton →
        substitute conditions skeleton = .ok (simplify (filled conditions skeleton)) := by
  intro h
  have hindex : IsIndex ([.blank] : List ClosedCondition).length (List.replicate (Numeral.commonLength + 1) '0') := by
    refine ⟨List.cons_ne_nil _ _, fun c hc => ?_, ?_⟩
    · rw [List.eq_of_mem_replicate hc]
      rfl
    · rw [value_replicate_zero]
      exact Nat.one_pos
  have hlong : Numeral.lengthLimit 1 < (List.replicate (Numeral.commonLength + 1) '0').length := by
    rw [List.length_replicate, Numeral.lengthLimit, Numeral.ofNat]
    decide
  have hblank : ∀ c ∈ [Condition.blank], (c : ClosedCondition).Reduced :=
    List.forall_mem_singleton.mpr Condition.reduced_blank
  have hsubstitute := h [.blank] hblank _ (.index hindex)
  rw [substitute, resolve_eq hindex, List.length_singleton, if_pos hlong] at hsubstitute
  cases hsubstitute

end Skeleton
end SearchQuery
