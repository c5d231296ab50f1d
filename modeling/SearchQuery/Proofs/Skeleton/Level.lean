import SearchQuery.Skeleton.Combine
import SearchQuery.Proofs.Segment.Grammar
import SearchQuery.Proofs.Skeleton.Cut
import SearchQuery.Proofs.Skeleton.Substitution

/-! The condition of a level without its skeleton text. The items of a level are cut into runs wherever an OR
    stands between two neighbours, and the level asks for one of its runs. The skeleton text says the same: its
    words are the indexes of the items with the connectives at their ends, each index is read as a term, and
    putting the conditions in place of the terms brings the joins with them (`combine_eq`). -/

namespace SearchQuery.Skeleton

open Condition (Reduced)

/-! ### The items of a level -/

/-- No OR stands between two neighbours on a level. -/
def adjoins (left right : Segment) : Bool := !(left.endsWithOr || right.startsWithOr)

/-- The condition of a level: one of its runs, and all items of that run. -/
def level (items : List Segment) : ClosedCondition :=
  Condition.simplify (.compound .or ((items.splitBy adjoins).map fun run => .compound .and (run.map Segment.condition)))

/-- A part of a level as an item: no connective stands at the ends of a group. -/
def Part.item : Part Empty → Segment
  | .text s => Segment.read s
  | .condition c => ⟨false, c, false⟩

theorem level_eq (items : List Segment) :
    level items = Segment.alternate ((items.splitBy adjoins).map (List.map Segment.condition)) := by
  rw [level, Segment.alternate, List.map_map]
  rfl

theorem reduced_level (items : List Segment) : (level items).Reduced := Condition.reduced_simplify _

theorem every_level {term phrase : Text → Prop} {items : List Segment}
    (h : ∀ x ∈ items, x.condition.Every term phrase) : (level items).Every term phrase := by
  refine Condition.Every.simplify (.compound fun c hc => ?_)
  obtain ⟨run, hrun, rfl⟩ := List.mem_map.mp hc
  refine .compound fun c hc => ?_
  obtain ⟨x, hx, rfl⟩ := List.mem_map.mp hc
  exact h x (mem_of_mem_splitBy hrun hx)

theorem level_eq_join_runs {items : List Segment} (h : ∀ x ∈ items, x.condition.Reduced) :
    level items = .join .or ((items.splitBy adjoins).map fun run => .join .and (run.map Segment.condition)) := by
  rw [level_eq, Segment.alternate_eq, List.map_map]
  refine congrArg (Condition.join .or) (List.map_congr_left fun run hrun => congrArg (Condition.join .and) ?_)
  refine Condition.map_simplify fun c hc => ?_
  obtain ⟨x, hx, rfl⟩ := List.mem_map.mp hc
  exact h x (mem_of_mem_splitBy hrun hx)

/-- A level without an OR at the ends of its items asks for all of them. -/
theorem level_of_adjoins {items : List Segment} (hitems : items.IsChain fun x y => adjoins x y = true)
    (h : ∀ x ∈ items, x.condition.Reduced) : level items = .join .and (items.map Segment.condition) := by
  rw [level_eq_join_runs h]
  cases items with
  | nil => rfl
  | cons x items =>
    rw [List.splitBy_of_isChain (List.cons_ne_nil x items) hitems, List.map_singleton, Condition.join_singleton]

/-- A level with an OR between any two neighbours asks for one of its items. -/
theorem level_of_not_adjoins {items : List Segment} (hitems : items.IsChain fun x y => adjoins x y = false)
    (h : ∀ x ∈ items, x.condition.Reduced) : level items = .join .or (items.map Segment.condition) := by
  rw [level_eq_join_runs h, splitBy_eq_map_singleton hitems, List.map_map]
  exact congrArg (Condition.join .or) (List.map_congr_left fun x _ => Condition.join_singleton)

/-! ### Skeleton text -/

/-- The term that stands for an item in a skeleton. -/
def key (x : Segment × Nat) : ClosedCondition := .keyword (Numeral.ofNat x.2)

/-- The items of parts with their indexes, on from `size`. -/
def indexed (size : Nat) (parts : List (Part Empty)) : List (Segment × Nat) := (parts.map Part.item).zipIdx size

theorem head_mem_of_spells {op : Connective} {c : Char} {t : Text} (h : op.spells (c :: t) = true) :
    c ∈ op.letters.headD [] := by
  obtain ⟨forms, ls, hls⟩ := List.exists_cons_of_ne_nil (Connective.letters_ne_nil op)
  rw [Connective.spells, hls, Connective.afterLetters?] at h
  split at h
  · next hc =>
    rw [hls]
    simpa using hc
  · cases h

theorem condition?_ofNat (n : Nat) : (Word.term (Numeral.ofNat n)).condition? = some (.keyword (Numeral.ofNat n)) := by
  have hletter : ∀ op : Connective, ∀ c ∈ Numeral.ofNat n, c ∉ op.letters.headD [] := fun op => by
    refine Numeral.forall_mem_ofNat (p := fun c => c ∉ op.letters.headD []) ?_
    cases op <;> decide
  have hdash : ∀ c ∈ Numeral.ofNat n, c ≠ '-' := Numeral.forall_mem_ofNat (by decide)
  obtain ⟨c, t, hn⟩ := List.exists_cons_of_ne_nil (Numeral.ofNat_ne_nil n)
  rw [hn] at hletter hdash ⊢
  refine Word.condition?_of_plain (fun op => ?_) fun h => ?_
  · rw [Bool.eq_false_iff]
    exact fun h => hletter op c List.mem_cons_self (head_mem_of_spells h)
  · cases h
    exact hdash '-' List.mem_cons_self rfl

theorem spells_connective (isOr : Bool) : (Word.term (connective isOr)).spells .or = isOr := by
  cases isOr <;> decide

theorem condition?_connective (isOr : Bool) : (Word.term (connective isOr)).condition? = none := by
  cases isOr <;> decide

theorem runs_connective (isOr : Bool) (ws : List Word) :
    Word.runs (.term (connective isOr) :: ws) = if isOr then [] :: Word.runs ws else Word.runs ws := by
  rw [Word.runs_cons, spells_connective, condition?_connective]
  split
  · rfl
  · cases Word.runs ws <;> rfl

theorem runs_ofNat (n : Nat) (ws : List Word) :
    Word.runs (.term (Numeral.ofNat n) :: ws) = (Word.runs ws).modifyHead (.keyword (Numeral.ofNat n) :: ·) :=
  Word.runs_cons_of_condition? (condition?_ofNat n) ws

/-- A character that stands in skeleton text. -/
def Plain (c : Char) : Prop := c ≠ '"' ∧ Phrase.isMark c = false

instance : DecidablePred Plain := fun c => inferInstanceAs (Decidable (c ≠ '"' ∧ Phrase.isMark c = false))

theorem plain_connective (isOr : Bool) : ∀ c ∈ ' ' :: connective isOr, Plain c :=
  List.all_iff_forall_prop.mp (by cases isOr <;> decide)

theorem plain_ofNat (n : Nat) : ∀ c ∈ ' ' :: Numeral.ofNat n, Plain c := by
  have hdigit : ∀ c ∈ Numeral.ofNat n, Plain c := Numeral.forall_mem_ofNat (by decide)
  intro c hc
  rcases List.mem_cons.mp hc with rfl | hc
  · decide
  · exact hdigit c hc

theorem words_connective (isOr : Bool) : Text.words (' ' :: connective isOr) = [connective isOr] := by
  cases isOr <;> decide

theorem words_ofNat (n : Nat) : Text.words (' ' :: Numeral.ofNat n) = [Numeral.ofNat n] := by
  have hdigit : ∀ c ∈ Numeral.ofNat n, isBlank c = false := Numeral.forall_mem_ofNat (by decide)
  rw [Text.words_cons_space, Text.words_word (Numeral.ofNat_ne_nil n) hdigit]

/-- The runs of terms that stand for the items, cut where the items have an OR at their ends. -/
def keys (size : Nat) (parts : List (Part Empty)) : List (List ClosedCondition) :=
  (cut (fun x : Segment × Nat => x.1.startsWithOr) (fun x => x.1.endsWithOr) (indexed size parts)).map (List.map key)

theorem keys_cons (size : Nat) (part : Part Empty) (parts : List (Part Empty)) :
    keys size (part :: parts) =
      let ended := if part.item.endsWithOr then [] :: keys (size + 1) parts else keys (size + 1) parts
      let later := ended.modifyHead (.keyword (Numeral.ofNat size) :: ·)
      if part.item.startsWithOr then [] :: later else later := by
  have hindexed : indexed size (part :: parts) = (part.item, size) :: indexed (size + 1) parts := rfl
  rw [keys, keys, hindexed, cut]
  obtain ⟨run, runs, h⟩ := List.exists_cons_of_ne_nil (cut_ne_nil (fun x : Segment × Nat => x.1.startsWithOr)
    (fun x => x.1.endsWithOr) (indexed (size + 1) parts))
  rw [h]
  cases part.item.startsWithOr <;> cases part.item.endsWithOr <;> rfl

/-- The words of skeleton text are the terms for the items, with the connectives at their ends between them. -/
theorem ofParts_eq (size : Nat) (parts : List (Part Empty)) :
    ∃ text, ofParts size parts = .ok (text, parts.map fun part => part.item.condition) ∧ (∀ c ∈ text, Plain c) ∧
      Word.runs ((Text.words text).map .term) = keys size parts := by
  induction parts generalizing size with
  | nil => exact ⟨[], rfl, by simp, rfl⟩
  | cons part parts ih =>
    obtain ⟨later, hlater, hplain, hruns⟩ := ih (size + 1)
    have hspace : ∀ c ∈ ' ' :: later, Plain c := fun c hc => by
      rcases List.mem_cons.mp hc with rfl | hc
      · decide
      · exact hplain c hc
    rw [keys_cons, ← hruns]
    cases part with
    | foreign value => exact value.elim
    | condition c =>
      refine ⟨' ' :: Numeral.ofNat size ++ ' ' :: later, by rw [ofParts, hlater]; rfl, fun c hc => ?_, ?_⟩
      · rcases List.mem_append.mp hc with hc | hc
        · exact plain_ofNat size c hc
        · exact hspace c hc
      · rw [Text.words_append (Text.atBlank_space later), words_ofNat, Text.words_cons_space,
          List.singleton_append, List.map_cons, runs_ofNat]
        rfl
    | text s =>
      refine ⟨' ' :: connective (Segment.read s).startsWithOr ++ ' ' :: Numeral.ofNat size ++
        ' ' :: connective (Segment.read s).endsWithOr ++ ' ' :: later,
        by rw [ofParts, Segment.ofText_eq_read, hlater]; rfl, fun c hc => ?_, ?_⟩
      · rcases List.mem_append.mp hc with hc | hc
        · rcases List.mem_append.mp hc with hc | hc
          · rcases List.mem_append.mp hc with hc | hc
            · exact plain_connective _ c hc
            · exact plain_ofNat size c hc
          · exact plain_connective _ c hc
        · exact hspace c hc
      · rw [Text.words_append (Text.atBlank_space later), Text.words_append (Text.atBlank_space _),
          Text.words_append (Text.atBlank_space _), words_ofNat, words_connective, words_connective,
          Text.words_cons_space]
        simp only [List.cons_append, List.nil_append, List.map_cons, runs_connective, runs_ofNat]
        rfl

/-! ### Conditions in place of terms -/

theorem substituteAll_map {α : Type} {conditions : List ClosedCondition} {f g : α → ClosedCondition} {xs : List α}
    (h : ∀ x ∈ xs, substitute conditions (f x) = .ok (g x)) :
    substituteAll conditions (xs.map f) = .ok (xs.map g) := by
  induction xs with
  | nil =>
    rw [List.map_nil, substituteAll]
    rfl
  | cons x xs ih =>
    rw [List.map_cons, substituteAll, h x List.mem_cons_self, ih fun y hy => h y (List.mem_cons_of_mem x hy)]
    rfl

/-- Conditions put in place of the parts of a condition are joined the way the parts were. -/
theorem substitute_ofParts {α : Type} {conditions : List ClosedCondition} {f g : α → ClosedCondition} {xs : List α}
    (op : Connective) (h : ∀ x ∈ xs, substitute conditions (f x) = .ok (g x)) :
    substitute conditions (Condition.ofParts op (xs.map f)) = .ok (Condition.join op (xs.map g)) := by
  match xs with
  | [] =>
    rw [List.map_nil, Condition.ofParts, substitute]
    rfl
  | [x] =>
    rw [List.map_singleton, List.map_singleton, Condition.join_singleton]
    exact h x List.mem_cons_self
  | x :: y :: xs =>
    have hall := substituteAll_map h
    rw [List.map_cons, List.map_cons] at hall ⊢
    rw [Condition.ofParts, substitute, hall]
    rfl

theorem substitute_key {conditions : List ClosedCondition} {c : ClosedCondition} {n : Nat}
    (h : conditions[n]? = some c) : substitute conditions (.keyword (Numeral.ofNat n)) = .ok c := by
  have hn := (List.getElem?_eq_some_iff.mp h).1
  have hlimit := Numeral.length_ofNat_le_lengthLimit (Nat.le_of_lt hn)
  rw [substitute, resolve_eq (isIndex_ofNat hn), if_neg (Nat.not_lt.mpr hlimit), Numeral.value_ofNat, h]
  rfl

/-! ### The condition of a level -/

theorem isPart_key (op : Connective) (x : Segment × Nat) : Condition.IsPart op (key x) := by
  refine ⟨.keyword ?_, rfl⟩
  obtain ⟨c, hc⟩ := List.exists_mem_of_ne_nil _ (Numeral.ofNat_ne_nil x.2)
  have hdigit : ∀ c ∈ Numeral.ofNat x.2, isBlank c = false := Numeral.forall_mem_ofNat (by decide)
  exact Text.notBlank_of_mem hc (hdigit c hc)

theorem isPart_mem_map_key (op : Connective) (run : List (Segment × Nat)) :
    ∀ p ∈ run.map key, Condition.IsPart op p := by
  intro p hp
  obtain ⟨x, -, rfl⟩ := List.mem_map.mp hp
  exact isPart_key op x

theorem isPart_run {run : List (Segment × Nat)} (hne : run ≠ []) :
    Condition.IsPart .or (Condition.ofParts .and (run.map key)) := by
  have hreduced := Condition.reduced_ofParts (isPart_mem_map_key .and run)
  match run, hne with
  | [x], _ => exact isPart_key .or x
  | x :: y :: run, _ => exact ⟨hreduced.canonical rfl, rfl⟩

theorem join_run (run : List (Segment × Nat)) :
    Condition.join .and ((run.map key).map Condition.simplify) = Condition.ofParts .and (run.map key) := by
  have hpart := isPart_mem_map_key .and run
  have hreduced : ∀ p ∈ run.map key, Reduced p := fun p hp => (hpart p hp).1.reduced
  rw [Condition.map_simplify hreduced, Condition.join_eq hreduced, Condition.flatMap_partsOf hpart]

/-- The neighbours between which skeleton text has no OR. -/
def adjoinsIndexed (x y : Segment × Nat) : Bool := adjoins x.1 y.1

/-- The condition of skeleton text is canonical already, so it is put together from its terms. -/
theorem alternate_keys (size : Nat) (parts : List (Part Empty)) :
    Segment.alternate (keys size parts) =
      .ofParts .or (((indexed size parts).splitBy adjoinsIndexed).map fun run => .ofParts .and (run.map key)) := by
  -- Runs without a key come from an OR at an end that has no neighbour; they ask for nothing.
  have hfilter := filter_cut (fun x : Segment × Nat => x.1.startsWithOr) (fun x => x.1.endsWithOr) (indexed size parts)
  have hne : ∀ run ∈ (indexed size parts).splitBy adjoinsIndexed, run ≠ [] := fun run => List.ne_nil_of_mem_splitBy
  have hpart : ∀ p ∈ ((indexed size parts).splitBy adjoinsIndexed).map
      (fun run => Condition.ofParts .and (run.map key)), Condition.IsPart .or p := fun p hp => by
    obtain ⟨run, hrun, rfl⟩ := List.mem_map.mp hp
    exact isPart_run (hne run hrun)
  rw [keys, ← Segment.alternate_map_filter (p := fun run => !run.isEmpty), hfilter, Segment.alternate_eq, List.map_map]
  · rw [← Condition.flatMap_partsOf hpart, ← Condition.join_eq fun p hp => (hpart p hp).1.reduced]
    exact congrArg (Condition.join .or) (List.map_congr_left fun run _ => join_run run)
  · intro run _ hrun
    cases run with
    | nil => rfl
    | cons x run => cases hrun

theorem level_eq_join {parts : List (Part Empty)} (h : ∀ part ∈ parts, part.item.condition.Reduced) (size : Nat) :
    level (parts.map Part.item) =
      .join .or (((indexed size parts).splitBy adjoinsIndexed).map fun run =>
        .join .and (run.map fun x => x.1.condition)) := by
  have hitems : parts.map Part.item = (indexed size parts).map Prod.fst := (List.zipIdx_map_fst _ _).symm
  rw [level_eq_join_runs, hitems, splitBy_map, List.map_map]
  · exact congrArg (Condition.join .or) (List.map_congr_left fun run _ => congrArg (Condition.join .and) List.map_map)
  · intro x hx
    obtain ⟨part, hpart, rfl⟩ := List.mem_map.mp hx
    exact h part hpart

/-- The condition of a level is that of its items, with no skeleton text. -/
theorem combine_eq {parts : List (Part Empty)} (h : ∀ part ∈ parts, part.item.condition.Reduced) :
    combine parts = .ok (level (parts.map Part.item)) := by
  obtain ⟨text, htext, hplain, hruns⟩ := ofParts_eq 0 parts
  have hread : (Segment.read text).condition = Segment.alternate (keys 0 parts) := by
    rw [Segment.read_eq, Phrase.scan_of_plain hplain, ← hruns, ← Atom.words_map_char]
    rfl
  have hkey : ∀ x ∈ indexed 0 parts,
      substitute (parts.map fun part => part.item.condition) (key x) = .ok x.1.condition := by
    intro x hx
    refine substitute_key ?_
    have hitem := List.mem_zipIdx_iff_getElem?.mp hx
    rw [List.getElem?_map] at hitem ⊢
    obtain ⟨part, hpart, hx⟩ := Option.map_eq_some_iff.mp hitem
    rw [hpart, ← hx]
    rfl
  -- The skeleton is joined at its top alone when conditions stand in it, run by run and then all runs.
  have hrun : ∀ run ∈ (indexed 0 parts).splitBy adjoinsIndexed,
      substitute (parts.map fun part => part.item.condition) (.ofParts .and (run.map key)) =
        .ok (.join .and (run.map fun x => x.1.condition)) := fun run hrun =>
    substitute_ofParts .and fun x hx => hkey x (mem_of_mem_splitBy hrun hx)
  rw [combine, htext, level_eq_join h 0]
  show (do
    let skeleton ← (Segment.ofText text).mapError _
    (substitute _ skeleton.condition).mapError _) = _
  rw [Segment.ofText_eq_read]
  show (substitute _ (Segment.read text).condition).mapError _ = _
  rw [hread, alternate_keys, substitute_ofParts .or hrun]
  rfl

end SearchQuery.Skeleton
