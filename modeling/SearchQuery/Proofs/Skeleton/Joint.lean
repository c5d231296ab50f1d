import SearchQuery.Proofs.Condition.Alternatives
import SearchQuery.Proofs.Skeleton.Level

/-! Two levels that meet in one item. The item draws the run of items before it into its AND, and the run after it,
    unless an OR at its end cuts it off. What the level asks for is the sum of what is cut off and of what the item asks for
    with all it draws (`partsOf_level_joint`). -/

namespace SearchQuery.Skeleton

open Condition (Reduced partsOf)

/-- What the items of a run ask for together. -/
def together (run : List Segment) : ClosedCondition := .join .and (run.map Segment.condition)

/-- The items that an item draws from the run beside it, by whether an OR cuts it off. -/
def drawn (isCut : Bool) (run : List Segment) : List Segment := if isCut then [] else run

/-- The items of the run beside an item that bring alternatives of their own. -/
def spared (isCut : Bool) (run : List Segment) : List Segment := if isCut then run else []

/-- The conditions of the items are in canonical form. -/
def AllReduced (xs : List Segment) : Prop := ∀ x ∈ xs, x.condition.Reduced

variable {xs ys run : List Segment}

theorem allReduced_append : AllReduced (xs ++ ys) ↔ AllReduced xs ∧ AllReduced ys := List.forall_mem_append

theorem AllReduced.map (h : AllReduced xs) : ∀ c ∈ xs.map Segment.condition, c.Reduced := by
  intro c hc
  obtain ⟨x, hx, rfl⟩ := List.mem_map.mp hc
  exact h x hx

theorem AllReduced.drawn (h : AllReduced run) (isCut : Bool) : AllReduced (drawn isCut run) := by
  cases isCut
  · exact h
  · exact fun x hx => by cases hx

theorem reduced_together (h : AllReduced run) : (together run).Reduced := Condition.reduced_join h.map

theorem together_append (hx : AllReduced xs) (hy : AllReduced ys) :
    together (xs ++ ys) = .join .and [together xs, together ys] := by
  rw [together, List.map_append, Condition.join_append hx.map hy.map]
  rfl

theorem together_joint {x : Segment} (hxs : AllReduced xs) (hx : x.condition.Reduced) (hys : AllReduced ys) :
    together (xs ++ [x] ++ ys) = .join .and [together xs, x.condition, together ys] := by
  have hsingle : together [x] = x.condition := Condition.join_singleton
  have hpair : ∀ c ∈ [together xs, x.condition], Reduced c := by simpa using ⟨reduced_together hxs, hx⟩
  have hlast : ∀ c ∈ [together ys], Reduced c := by simpa using reduced_together hys
  have hassoc : Condition.join .and ([together xs, x.condition] ++ [together ys]) = _ := Condition.join_append hpair hlast
  rw [Condition.join_singleton] at hassoc
  rw [together_append (allReduced_append.mpr ⟨hxs, by simpa [AllReduced] using hx⟩) hys,
    together_append hxs (by simpa [AllReduced] using hx), hsingle, ← hassoc]
  rfl

/-! ### The alternatives of a level -/

theorem partsOf_level (h : AllReduced xs) :
    partsOf .or (level xs) = (xs.splitBy adjoins).flatMap fun run => partsOf .or (together run) := by
  rw [level_eq_join_runs h, Condition.partsOf_join, List.flatMap_map]
  · rfl
  · intro c hc
    obtain ⟨run, hrun, rfl⟩ := List.mem_map.mp hc
    exact reduced_together fun x hx => h x (mem_of_mem_splitBy hrun hx)

theorem partsOf_level_append (h : AllReduced (xs ++ ys))
    (hcut : (xs ++ ys).splitBy adjoins = xs.splitBy adjoins ++ ys.splitBy adjoins) :
    partsOf .or (level (xs ++ ys)) = partsOf .or (level xs) ++ partsOf .or (level ys) := by
  obtain ⟨hx, hy⟩ := allReduced_append.mp h
  rw [partsOf_level h, partsOf_level hx, partsOf_level hy, hcut, List.flatMap_append]

theorem partsOf_level_of_adjoins (hrun : run.IsChain fun x y => adjoins x y = true) (h : AllReduced run) :
    partsOf .or (level run) = partsOf .or (together run) := by
  rw [level_of_adjoins hrun h]
  rfl

/-! ### An item between two runs -/

variable {x : Segment} {before after : List Segment}

/-- An OR at the start of the item cuts off the run before it. -/
theorem partsOf_level_before (hbefore : before.IsChain fun x y => adjoins x y = true)
    (h : AllReduced (before ++ [x] ++ ys)) :
    partsOf .or (level (before ++ [x] ++ ys)) =
      partsOf .or (together (spared x.startsWithOr before)) ++
        partsOf .or (level (drawn x.startsWithOr before ++ [x] ++ ys)) := by
  cases hs : x.startsWithOr with
  | false => rfl
  | true =>
    have hcut : ∀ y ∈ before.getLast?, adjoins y x = false := fun y _ => by rw [adjoins, hs, Bool.or_true, Bool.not_true]
    rw [List.append_assoc] at h
    rw [List.append_assoc, partsOf_level_append h (List.splitBy_append_cons ys hcut),
      partsOf_level_of_adjoins hbefore (allReduced_append.mp h).1]
    rfl

/-- An OR at the end of the item cuts off the run after it. -/
theorem partsOf_level_after (hafter : after.IsChain fun x y => adjoins x y = true)
    (h : AllReduced (xs ++ [x] ++ after)) :
    partsOf .or (level (xs ++ [x] ++ after)) =
      partsOf .or (level (xs ++ [x] ++ drawn x.endsWithOr after)) ++
        partsOf .or (together (spared x.endsWithOr after)) := by
  cases he : x.endsWithOr with
  | false => exact (List.append_nil _).symm
  | true =>
    have hcut : ∀ z ∈ (xs ++ [x]).getLast?, ∀ y ∈ after.head?, adjoins z y = false := fun z hz y _ => by
      rw [List.getLast?_concat] at hz
      cases hz
      rw [adjoins, he, Bool.true_or, Bool.not_true]
    rw [partsOf_level_append h (List.splitBy_append hcut), partsOf_level_of_adjoins hafter (allReduced_append.mp h).2]
    rw [drawn, if_pos rfl, List.append_nil]
    rfl

theorem isChain_drawn (hbefore : before.IsChain fun x y => adjoins x y = true)
    (hafter : after.IsChain fun x y => adjoins x y = true) (hend : ∀ y ∈ before.getLast?, y.endsWithOr = false)
    (hstart : ∀ y ∈ after.head?, y.startsWithOr = false) :
    (drawn x.startsWithOr before ++ [x] ++ drawn x.endsWithOr after).IsChain fun x y => adjoins x y = true := by
  have hleft : (drawn x.startsWithOr before ++ [x]).IsChain fun x y => adjoins x y = true := by
    cases hs : x.startsWithOr with
    | true => exact .singleton x
    | false =>
      refine List.isChain_append.mpr ⟨hbefore, .singleton x, fun y hy z hz => ?_⟩
      cases hz
      rw [adjoins, hend y hy, hs]
      rfl
  cases he : x.endsWithOr with
  | true => exact (List.append_nil _).symm ▸ hleft
  | false =>
    refine List.isChain_append.mpr ⟨hleft, hafter, fun y hy z hz => ?_⟩
    rw [List.getLast?_concat] at hy
    cases hy
    rw [adjoins, he, hstart z hz]
    rfl

/-- An item between two runs that have no OR at their inner ends asks for itself together with what it draws from
    them; what it does not draw is apart from it. -/
theorem partsOf_level_joint (hbefore : before.IsChain fun x y => adjoins x y = true)
    (hafter : after.IsChain fun x y => adjoins x y = true) (hend : ∀ y ∈ before.getLast?, y.endsWithOr = false)
    (hstart : ∀ y ∈ after.head?, y.startsWithOr = false) (h : AllReduced (before ++ [x] ++ after)) :
    partsOf .or (level (before ++ [x] ++ after)) =
      partsOf .or (together (spared x.startsWithOr before)) ++
        (partsOf .or (.join .and
            [together (drawn x.startsWithOr before), x.condition, together (drawn x.endsWithOr after)]) ++
          partsOf .or (together (spared x.endsWithOr after))) := by
  obtain ⟨hleft, ha⟩ := allReduced_append.mp h
  obtain ⟨hb, hx⟩ := allReduced_append.mp hleft
  have hdrawn := allReduced_append.mpr ⟨allReduced_append.mpr ⟨hb.drawn x.startsWithOr, hx⟩, ha⟩
  have hmiddle := allReduced_append.mpr ⟨allReduced_append.mpr ⟨hb.drawn x.startsWithOr, hx⟩, ha.drawn x.endsWithOr⟩
  rw [partsOf_level_before hbefore h, partsOf_level_after hafter hdrawn,
    partsOf_level_of_adjoins (isChain_drawn hbefore hafter hend hstart) hmiddle,
    together_joint (hb.drawn _) (hx x List.mem_cons_self) (ha.drawn _)]

theorem drawn_nil (isCut : Bool) : drawn isCut [] = [] := by cases isCut <;> rfl

theorem spared_nil (isCut : Bool) : spared isCut [] = [] := by cases isCut <;> rfl

theorem partsOf_level_last (hrun : run.IsChain fun x y => adjoins x y = true)
    (hend : ∀ y ∈ run.getLast?, y.endsWithOr = false) (h : AllReduced (run ++ [x])) :
    partsOf .or (level (run ++ [x])) =
      partsOf .or (together (spared x.startsWithOr run)) ++
        partsOf .or (.join .and [together (drawn x.startsWithOr run), x.condition]) := by
  have hall : AllReduced (run ++ [x] ++ []) := by rwa [List.append_nil]
  have hjoint := partsOf_level_joint hrun .nil hend (fun y hy => by cases hy) hall
  rw [List.append_nil, drawn_nil, spared_nil] at hjoint
  rw [hjoint]
  refine congrArg (_ ++ ·) ((List.append_nil _).trans (congrArg (partsOf .or) ?_))
  exact Condition.join_append_blank .and [_, _]

theorem partsOf_level_first (hrun : run.IsChain fun x y => adjoins x y = true)
    (hstart : ∀ y ∈ run.head?, y.startsWithOr = false) (h : AllReduced ([x] ++ run)) :
    partsOf .or (level ([x] ++ run)) =
      partsOf .or (.join .and [x.condition, together (drawn x.endsWithOr run)]) ++
        partsOf .or (together (spared x.endsWithOr run)) := by
  have hall : AllReduced ([] ++ [x] ++ run) := h
  have hjoint := partsOf_level_joint .nil hrun (fun y hy => by cases hy) hstart hall
  rw [drawn_nil, spared_nil] at hjoint
  exact hjoint

/-- An item that asks for nothing leaves the run beside it as it is. -/
theorem spared_append_drawn (isCut : Bool) (run : List Segment) :
    partsOf .or (together (spared isCut run)) ++ partsOf .or (.join .and [together (drawn isCut run), .blank]) =
      partsOf .or (together run) := by
  have hblank := Condition.join_append_blank .and [together (drawn isCut run)]
  rw [Condition.join_singleton] at hblank
  rw [show [together (drawn isCut run), .blank] = [together (drawn isCut run)] ++ [.blank] from rfl, hblank]
  cases isCut with
  | false => rfl
  | true => exact List.append_nil _

theorem drawn_append_spared (isCut : Bool) (run : List Segment) :
    partsOf .or (.join .and [.blank, together (drawn isCut run)]) ++ partsOf .or (together (spared isCut run)) =
      partsOf .or (together run) := by
  rw [Condition.join_blank_cons, Condition.join_singleton]
  cases isCut with
  | false => exact List.append_nil _
  | true => rfl

/-! ### Levels that are read on -/

/-- What follows a level meets its last run only. -/
theorem exists_partsOf_level_lastRun (h : AllReduced xs) :
    ∃ ps, ∀ zs, AllReduced zs →
      partsOf .or (level (xs ++ zs)) = ps ++ partsOf .or (level (lastRun adjoins xs ++ zs)) := by
  obtain ⟨earlier, hxs, -, hcut⟩ := exists_eq_append_lastRun adjoins xs
  refine ⟨partsOf .or (level earlier), fun zs hzs => ?_⟩
  have hall : AllReduced (earlier ++ (lastRun adjoins xs ++ zs)) := by
    rw [← List.append_assoc, ← hxs]
    exact allReduced_append.mpr ⟨h, hzs⟩
  rw [← partsOf_level_append hall (hcut zs), ← List.append_assoc, ← hxs]

/-- What a level follows meets its first run only. -/
theorem exists_partsOf_level_firstRun (h : AllReduced ys) :
    ∃ qs, ∀ zs, AllReduced zs →
      partsOf .or (level (zs ++ ys)) = partsOf .or (level (zs ++ firstRun adjoins ys)) ++ qs := by
  obtain ⟨later, hys, -, hcut⟩ := exists_eq_firstRun_append adjoins ys
  refine ⟨partsOf .or (level later), fun zs hzs => ?_⟩
  have hall : AllReduced (zs ++ firstRun adjoins ys ++ later) := by
    rw [List.append_assoc, ← hys]
    exact allReduced_append.mpr ⟨hzs, h⟩
  rw [← partsOf_level_append hall (hcut zs), List.append_assoc, ← hys]

theorem lastRun_spec (h : AllReduced xs) (hend : ∀ x ∈ xs.getLast?, x.endsWithOr = false) :
    (lastRun adjoins xs).IsChain (fun x y => adjoins x y = true) ∧ AllReduced (lastRun adjoins xs) ∧
      ∀ x ∈ (lastRun adjoins xs).getLast?, x.endsWithOr = false := by
  obtain ⟨earlier, hxs, hchain, -⟩ := exists_eq_append_lastRun adjoins xs
  rw [hxs] at h hend
  refine ⟨hchain, (allReduced_append.mp h).2, fun x hx => hend x ?_⟩
  rw [List.getLast?_append, Option.mem_def.mp hx]
  rfl

theorem firstRun_spec (h : AllReduced ys) (hstart : ∀ y ∈ ys.head?, y.startsWithOr = false) :
    (firstRun adjoins ys).IsChain (fun x y => adjoins x y = true) ∧ AllReduced (firstRun adjoins ys) ∧
      ∀ y ∈ (firstRun adjoins ys).head?, y.startsWithOr = false := by
  obtain ⟨later, hys, hchain, -⟩ := exists_eq_firstRun_append adjoins ys
  rw [hys] at h hstart
  refine ⟨hchain, (allReduced_append.mp h).1, fun y hy => hstart y ?_⟩
  rw [List.head?_append, Option.mem_def.mp hy]
  rfl

end SearchQuery.Skeleton
