import SearchQuery.Proofs.Condition.Canonical
import SearchQuery.Proofs.Skeleton.Substitution

/-! How substituting fails. A skeleton is looked through leaf by leaf, from the left, however its compounds are nested
    (`substitute_eq_mapM`), so the first leaf that leads to no condition decides (`substitute_outcome`). It is refused
    as a fault of the skeleton, unless it is a term of digits that cannot be read: a term is asked whether it consists
    of digits before it is read, but not every digit has a place value, and only so many of them are read. -/

namespace SearchQuery.Skeleton

open Condition (byNodes join)

variable {α : Type} {conditions : List (Condition α)} {key : Text}

/-! ### Leaves -/

mutual

/-- The nodes of a skeleton that should be indexes, from left to right: all but blank conditions and compounds. What
    stands below a negation is not looked at. -/
def leaves : Condition α → List (Condition α)
  | .blank => []
  | .keyword key => [.keyword key]
  | .phrase words => [.phrase words]
  | .negation c => [.negation c]
  | .compound _ parts => leavesAll parts
  | .foreign value => [.foreign value]

/-- The leaves of several skeletons, one skeleton after another. -/
def leavesAll : List (Condition α) → List (Condition α)
  | [] => []
  | c :: cs => leaves c ++ leavesAll cs

end

mutual

/-- The skeleton with the conditions in place of its indexes and with its compounds joined. -/
def placed (conditions : List (Condition α)) : Condition α → Condition α
  | .blank => .blank
  | .keyword key => conditions[Numeral.value key]?.getD .blank
  | .phrase words => .phrase words
  | .negation c => .negation c
  | .compound op parts => join op (placedAll conditions parts)
  | .foreign value => .foreign value

/-- Several skeletons with the conditions in place of their indexes. -/
def placedAll (conditions : List (Condition α)) : List (Condition α) → List (Condition α)
  | [] => []
  | c :: cs => placed conditions c :: placedAll conditions cs

end

theorem leavesAll_eq (cs : List (Condition α)) : leavesAll cs = cs.flatMap leaves := by
  induction cs with
  | nil => rw [leavesAll]; rfl
  | cons c cs ih => rw [leavesAll, ih, List.flatMap_cons]

theorem placedAll_eq (cs : List (Condition α)) : placedAll conditions cs = cs.map (placed conditions) := by
  induction cs with
  | nil => rw [placedAll]; rfl
  | cons c cs ih => rw [placedAll, ih, List.map_cons]

theorem forall_mem_leaves {p : Condition α → Prop} (keyword : ∀ key, p (.keyword key))
    (phrase : ∀ words, p (.phrase words)) (negation : ∀ c, p (.negation c)) (foreign : ∀ value, p (.foreign value))
    (skeleton : Condition α) : ∀ leaf ∈ leaves skeleton, p leaf := by
  induction skeleton using byNodes with
  | blank => simp only [leaves, List.not_mem_nil, false_implies, implies_true]
  | keyword key => simpa only [leaves, List.forall_mem_singleton] using keyword key
  | phrase words => simpa only [leaves, List.forall_mem_singleton] using phrase words
  | negation c ih => simpa only [leaves, List.forall_mem_singleton] using negation c
  | compound op parts ih =>
    rw [leaves, leavesAll_eq]
    intro leaf hleaf
    obtain ⟨c, hc, hleaf⟩ := List.mem_flatMap.mp hleaf
    exact ih c hc leaf hleaf
  | foreign value => simpa only [leaves, List.forall_mem_singleton] using foreign value

/-! ### Terms -/

/-- A text is a numeral, in the decimal digits of any scripts, of an index into `size` entries. -/
structure IsNumeral (size : Nat) (key : Text) : Prop where
  ne_nil : key ≠ []
  decimal : ∀ c ∈ key, isDecimal c = true
  value_lt : Numeral.value key < size

/-- A text consists of digits, but one of them has no place value or there are more of them than are read. -/
structure IsUnreadable (size : Nat) (key : Text) : Prop where
  ne_nil : key ≠ []
  digits : ∀ c ∈ key, isDigitLike c = true
  cause : (∃ c ∈ key, isDecimal c = false) ∨ Numeral.lengthLimit size < key.length

theorem not_overlong {size : Nat} (hne : key ≠ []) (hdecimal : ∀ c ∈ key, isDecimal c = true)
    (hread : ¬ IsUnreadable size key) : ¬ Numeral.lengthLimit size < key.length := by
  intro hlong
  exact hread ⟨hne, fun c hc => Numeral.isDigitLike_of_isDecimal (hdecimal c hc), Or.inr hlong⟩

theorem resolve_of_isNumeral (h : IsNumeral conditions.length key) (hread : ¬ IsUnreadable conditions.length key) :
    resolve conditions key = .ok (conditions[Numeral.value key]?.getD .blank) := by
  rw [resolve_of_decimal h.ne_nil h.decimal, if_neg (not_overlong h.ne_nil h.decimal hread),
    List.getElem?_eq_getElem h.value_lt]
  rfl

/-- A term that consists of digits but cannot be read is not refused as a fault of the skeleton. -/
theorem resolve_of_isUnreadable (h : IsUnreadable conditions.length key) :
    ∃ fault, resolve conditions key = .error fault ∧ fault.isInternal = false := by
  by_cases hdecimal : ∀ c ∈ key, isDecimal c = true
  · have hlong : Numeral.lengthLimit conditions.length < key.length := by
      rcases h.cause with ⟨c, hc, hplaceless⟩ | hlong
      · rw [hdecimal c hc] at hplaceless
        cases hplaceless
      · exact hlong
    exact ⟨.overlong key.length, by rw [resolve_of_decimal h.ne_nil hdecimal, if_pos hlong], rfl⟩
  · have hempty : key.isEmpty = false := List.isEmpty_eq_false_iff.mpr h.ne_nil
    have hread : Numeral.read? key = none := by
      rw [Numeral.read?, if_neg]
      intro hall
      rw [Bool.and_eq_true, List.all_eq_true] at hall
      exact hdecimal hall.2
    rw [resolve, hempty, List.all_eq_true.mpr h.digits, hread, if_neg (by decide)]
    -- The decimal digits before the one without a place value may be too many by themselves.
    split
    · exact ⟨_, rfl, rfl⟩
    · exact ⟨_, rfl, rfl⟩

/-- A term that is neither of the two is refused as a fault of the skeleton. -/
theorem resolve_of_not_isNumeral (h : ¬ IsNumeral conditions.length key)
    (hread : ¬ IsUnreadable conditions.length key) :
    resolve conditions key = .error (.unresolved key conditions.length) := by
  by_cases hdigits : key ≠ [] ∧ ∀ c ∈ key, isDigitLike c = true
  · obtain ⟨hne, hdigits⟩ := hdigits
    have hdecimal : ∀ c ∈ key, isDecimal c = true := by
      intro c hc
      by_contra hplaceless
      exact hread ⟨hne, hdigits, Or.inl ⟨c, hc, Bool.eq_false_iff.mpr hplaceless⟩⟩
    have hvalue : conditions.length ≤ Numeral.value key := Nat.le_of_not_lt fun hlt => h ⟨hne, hdecimal, hlt⟩
    rw [resolve_of_decimal hne hdecimal, if_neg (not_overlong hne hdecimal hread), List.getElem?_eq_none hvalue]
    rfl
  · rw [resolve, if_pos]
    by_contra hguard
    simp only [Bool.or_eq_true, not_or, List.isEmpty_iff, Bool.not_eq_true', Bool.not_eq_false,
      List.all_eq_true] at hguard
    exact hdigits hguard

/-! ### One leaf -/

/-- The leaf is a term that is a numeral of an index into `size` entries, and can be read. -/
def Leads (size : Nat) : Condition α → Prop
  | .keyword key => IsNumeral size key ∧ ¬ IsUnreadable size key
  | _ => False

/-- The leaf is a term that consists of digits, but cannot be read. -/
def Misleads (size : Nat) : Condition α → Prop
  | .keyword key => IsUnreadable size key
  | _ => False

/-- What comes of a leaf: its condition if it leads to one, and else a fault, which is one of the skeleton unless the
    leaf consists of digits that cannot be read. -/
def Answered (conditions : List (Condition α)) (leaf : Condition α) : Prop :=
  Leads conditions.length leaf ∧ substitute conditions leaf = .ok (placed conditions leaf) ∨
    ¬ Leads conditions.length leaf ∧ ∃ fault, substitute conditions leaf = .error fault ∧
      (fault.isInternal = true ↔ ¬ Misleads conditions.length leaf)

theorem answered_keyword (key : Text) : Answered conditions (.keyword key) := by
  rw [Answered, substitute, placed]
  by_cases hread : IsUnreadable conditions.length key
  · obtain ⟨fault, hfault, hinternal⟩ := resolve_of_isUnreadable hread
    exact Or.inr ⟨fun h => h.2 hread, fault, hfault, iff_of_false (Bool.eq_false_iff.mp hinternal) fun h => h hread⟩
  · by_cases hnumeral : IsNumeral conditions.length key
    · exact Or.inl ⟨⟨hnumeral, hread⟩, resolve_of_isNumeral hnumeral hread⟩
    · have hrefused := resolve_of_not_isNumeral hnumeral hread
      exact Or.inr ⟨fun h => hnumeral h.1, _, hrefused, iff_of_true rfl hread⟩

theorem answered_of_unexpected {leaf : Condition α} (hleads : ¬ Leads conditions.length leaf)
    (hmisleads : ¬ Misleads conditions.length leaf) (h : substitute conditions leaf = .error (.unexpected leaf)) :
    Answered conditions leaf :=
  Or.inr ⟨hleads, _, h, iff_of_true rfl hmisleads⟩

theorem answered_of_mem_leaves (conditions : List (Condition α)) (skeleton : Condition α) :
    ∀ leaf ∈ leaves skeleton, Answered conditions leaf := by
  refine forall_mem_leaves answered_keyword (fun words => ?_) (fun c => ?_) (fun value => ?_) skeleton
  · exact answered_of_unexpected id id (by rw [substitute])
  · exact answered_of_unexpected id id (by rw [substitute])
  · exact answered_of_unexpected id id (by rw [substitute])

theorem Answered.leads {leaf c : Condition α} (h : Answered conditions leaf)
    (hok : substitute conditions leaf = .ok c) : Leads conditions.length leaf := by
  rcases h with ⟨hleads, _⟩ | ⟨_, fault, herror, _⟩
  · exact hleads
  · rw [herror] at hok
    cases hok

theorem Answered.refused {leaf : Condition α} {fault : SlotFault α} (h : Answered conditions leaf)
    (herror : substitute conditions leaf = .error fault) :
    ¬ Leads conditions.length leaf ∧ (fault.isInternal = true ↔ ¬ Misleads conditions.length leaf) := by
  rcases h with ⟨_, hok⟩ | ⟨hleads, fault', herror', hinternal⟩
  · rw [hok] at herror
    cases herror
  · rw [herror'] at herror
    cases herror
    exact ⟨hleads, hinternal⟩

/-! ### Leaf by leaf -/

theorem substituteAll_eq_mapM (cs : List (Condition α)) :
    substituteAll conditions cs = cs.mapM (substitute conditions) := by
  induction cs with
  | nil => rw [substituteAll]; rfl
  | cons c cs ih => rw [substituteAll, List.mapM_cons, ih]

theorem substitute_eq_of_leaf {leaf : Condition α} (hleaf : leaves leaf = [leaf]) :
    substitute conditions leaf = do
      let _ ← (leaves leaf).mapM (substitute conditions)
      return placed conditions leaf := by
  have hanswered := answered_of_mem_leaves conditions leaf leaf (hleaf ▸ List.mem_singleton_self leaf)
  rw [hleaf, List.mapM_cons, List.mapM_nil]
  rcases hanswered with ⟨_, hok⟩ | ⟨_, fault, herror, _⟩
  · rw [hok]; rfl
  · rw [herror]; rfl

/-- Parts that are each looked through leaf by leaf are so together, from the left. -/
theorem mapM_substitute_eq {parts : List (Condition α)}
    (h : ∀ c ∈ parts, substitute conditions c = do
      let _ ← (leaves c).mapM (substitute conditions)
      return placed conditions c) :
    parts.mapM (substitute conditions) = do
      let _ ← (parts.flatMap leaves).mapM (substitute conditions)
      return parts.map (placed conditions) := by
  induction parts with
  | nil => rfl
  | cons c cs ih =>
    obtain ⟨hc, hcs⟩ := List.forall_mem_cons.mp h
    -- The leaves of the first part come before those of the others: the walk over all of them can be cut there.
    rw [List.mapM_cons, hc, ih hcs, List.flatMap_cons, List.mapM_append, List.map_cons]
    simp only [bind_assoc, pure_bind]

/-- Substituting looks through the leaves of a skeleton from the left, and joins what it was made of when they have all
    led to conditions. -/
theorem substitute_eq_mapM (conditions : List (Condition α)) (skeleton : Condition α) :
    substitute conditions skeleton = do
      let _ ← (leaves skeleton).mapM (substitute conditions)
      return placed conditions skeleton := by
  induction skeleton using byNodes with
  | blank => rw [substitute, leaves, placed]; rfl
  | keyword key => exact substitute_eq_of_leaf (by rw [leaves])
  | phrase words => exact substitute_eq_of_leaf (by rw [leaves])
  | negation c _ => exact substitute_eq_of_leaf (by rw [leaves])
  | compound op parts ih =>
    rw [substitute, substituteAll_eq_mapM, mapM_substitute_eq ih, leaves, leavesAll_eq, placed, placedAll_eq]
    simp only [bind_assoc, pure_bind]
  | foreign value => exact substitute_eq_of_leaf (by rw [leaves])

/-- A walk over a list has come through all of it, or has stopped at the first item that fails. -/
theorem mapM_outcome {ι β ε : Type} (f : ι → Except ε β) (items : List ι) :
    (∃ bs, items.mapM f = .ok bs ∧ ∀ item ∈ items, ∃ b, f item = .ok b) ∨
      ∃ before item after fault, items = before ++ item :: after ∧ (∀ earlier ∈ before, ∃ b, f earlier = .ok b) ∧
        f item = .error fault ∧ items.mapM f = .error fault := by
  induction items with
  | nil => exact Or.inl ⟨[], rfl, List.forall_mem_nil _⟩
  | cons item items ih =>
    rw [List.mapM_cons]
    cases hitem : f item with
    | error fault => exact Or.inr ⟨[], item, items, fault, rfl, List.forall_mem_nil _, hitem, rfl⟩
    | ok b =>
      rcases ih with ⟨bs, hbs, hall⟩ | ⟨before, bad, after, fault, rfl, hbefore, hbad, hstop⟩
      · rw [hbs]
        exact Or.inl ⟨b :: bs, rfl, List.forall_mem_cons.mpr ⟨⟨b, hitem⟩, hall⟩⟩
      · rw [hstop]
        exact Or.inr ⟨item :: before, bad, after, fault, rfl, List.forall_mem_cons.mpr ⟨⟨b, hitem⟩, hbefore⟩, hbad, rfl⟩

/-- Substituting has a condition when every leaf of the skeleton is a numeral of an index, and can be read. Else it
    fails at the first leaf that is none, with a fault of the skeleton unless this leaf consists of digits that cannot
    be read. -/
theorem substitute_outcome (conditions : List (Condition α)) (skeleton : Condition α) :
    (∀ leaf ∈ leaves skeleton, Leads conditions.length leaf) ∧
        substitute conditions skeleton = .ok (placed conditions skeleton) ∨
      ∃ before leaf after fault, leaves skeleton = before ++ leaf :: after ∧
        (∀ earlier ∈ before, Leads conditions.length earlier) ∧ ¬ Leads conditions.length leaf ∧
        substitute conditions skeleton = .error fault ∧
        (fault.isInternal = true ↔ ¬ Misleads conditions.length leaf) := by
  have hanswered := answered_of_mem_leaves conditions skeleton
  rw [substitute_eq_mapM]
  rcases mapM_outcome (substitute conditions) (leaves skeleton) with
    ⟨bs, hwalk, hall⟩ | ⟨before, leaf, after, fault, hleaves, hbefore, hleaf, hwalk⟩
  · refine Or.inl ⟨fun leaf hmem => ?_, by rw [hwalk]; rfl⟩
    obtain ⟨c, hc⟩ := hall leaf hmem
    exact (hanswered leaf hmem).leads hc
  · rw [hleaves, List.forall_mem_append, List.forall_mem_cons] at hanswered
    obtain ⟨hearlier, hhere, _⟩ := hanswered
    obtain ⟨hleads, hinternal⟩ := hhere.refused hleaf
    refine Or.inr ⟨before, leaf, after, fault, hleaves, fun earlier hmem => ?_, hleads, by rw [hwalk]; rfl, hinternal⟩
    obtain ⟨c, hc⟩ := hbefore earlier hmem
    exact (hearlier earlier hmem).leads hc

/-- The first leaf that leads nowhere decides, not the superscript after it. -/
example : substitute [(.keyword ['a'] : ClosedCondition)]
    (.compound .and [.compound .or [.blank, .phrase ['0']], .keyword ['²']]) =
      .error (.unexpected (.phrase ['0'])) := rfl

/-- A superscript counts as a digit but has no place value, and is not refused as a fault of the skeleton. -/
theorem not_substitute_internal :
    ¬ ∀ (conditions : List ClosedCondition) (skeleton : ClosedCondition),
      ((∃ c, substitute conditions skeleton = .ok c) ∨
          ∃ fault, substitute conditions skeleton = .error fault ∧ fault.isInternal = true) ∧
        ((∃ leaf ∈ leaves skeleton, ∀ key, leaf = .keyword key → ¬ IsNumeral conditions.length key) →
          ∃ fault, substitute conditions skeleton = .error fault ∧ fault.isInternal = true) := by
  intro h
  have hunreadable : IsUnreadable ([.keyword ['a']] : List ClosedCondition).length ['²'] :=
    { ne_nil := List.cons_ne_nil _ _
      digits := List.forall_mem_singleton.mpr rfl
      cause := Or.inl ⟨'²', List.mem_singleton_self _, rfl⟩ }
  obtain ⟨fault, hfault, hinternal⟩ := resolve_of_isUnreadable hunreadable
  rcases (h [.keyword ['a']] (.keyword ['²'])).1 with ⟨c, hok⟩ | ⟨fault', herror, hinternal'⟩
  · rw [substitute, hfault] at hok
    cases hok
  · rw [substitute, hfault] at herror
    cases herror
    rw [hinternal] at hinternal'
    cases hinternal'

end SearchQuery.Skeleton
