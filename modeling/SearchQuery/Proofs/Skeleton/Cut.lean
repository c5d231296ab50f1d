import Mathlib.Data.List.SplitBy

/-! Cutting a list between neighbours. A cut that is asked for at the end of one element or at the start of the
    next, or at both, falls between the two; the runs that are left are the longest ones without a cut. -/

namespace SearchQuery

variable {α β : Type}

/-! ### Longest runs -/

theorem mem_of_mem_splitBy {r : α → α → Bool} {xs run : List α} (hrun : run ∈ xs.splitBy r) {x : α} (hx : x ∈ run) :
    x ∈ xs := by
  rw [← List.flatten_splitBy r xs]
  exact List.mem_flatten_of_mem hrun hx

theorem splitBy_cons_of_false {r : α → α → Bool} {x y : α} (h : r x y = false) (ys : List α) :
    (x :: y :: ys).splitBy r = [x] :: (y :: ys).splitBy r := by
  refine List.splitBy_append_cons (l := [x]) ys fun z hz => ?_
  cases hz
  exact h

theorem splitBy_cons_of_true {r : α → α → Bool} {x y : α} (h : r x y = true) (ys : List α) :
    (x :: y :: ys).splitBy r = ((y :: ys).splitBy r).modifyHead (x :: ·) := by
  obtain ⟨g, gs, hgs⟩ := List.exists_cons_of_ne_nil ((List.splitBy_ne_nil (r := r)).mpr (List.cons_ne_nil y ys))
  obtain ⟨hflatten, hnil, hchain, hcut⟩ := List.splitBy_eq_iff.mp hgs
  cases g with
  | nil => exact absurd List.mem_cons_self hnil
  | cons z g =>
    obtain ⟨rfl, hys⟩ := List.cons.inj hflatten
    rw [hgs, List.modifyHead_cons]
    refine List.splitBy_eq_iff.mpr ⟨by rw [hys]; rfl, ?_, fun m hm => ?_, ?_⟩
    · rw [List.mem_cons, not_or] at hnil ⊢
      exact ⟨(List.cons_ne_nil _ _).symm, hnil.2⟩
    · rcases List.mem_cons.mp hm with rfl | hm
      · exact List.isChain_cons_cons.mpr ⟨h, hchain _ List.mem_cons_self⟩
      · exact hchain m (List.mem_cons_of_mem _ hm)
    · cases gs with
      | nil => exact List.isChain_singleton _
      | cons g' gs =>
        obtain ⟨⟨ha, hb, hr⟩, hcut⟩ := List.isChain_cons_cons.mp hcut
        exact List.isChain_cons_cons.mpr ⟨⟨List.cons_ne_nil _ _, hb, hr⟩, hcut⟩

theorem splitBy_map (f : α → β) (r : β → β → Bool) (xs : List α) :
    (xs.map f).splitBy r = (xs.splitBy fun x y => r (f x) (f y)).map (List.map f) := by
  induction xs with
  | nil => rfl
  | cons x xs ih =>
    cases xs with
    | nil => rfl
    | cons y ys =>
      rw [List.map_cons] at ih
      rw [List.map_cons, List.map_cons]
      by_cases h : r (f x) (f y) = true
      · rw [splitBy_cons_of_true h, splitBy_cons_of_true (r := fun x y => r (f x) (f y)) h, ih]
        cases (y :: ys).splitBy fun x y => r (f x) (f y) <;> rfl
      · have h : r (f x) (f y) = false := by simpa using h
        rw [splitBy_cons_of_false h, splitBy_cons_of_false (r := fun x y => r (f x) (f y)) h, ih]
        rfl

/-- If every two neighbours are cut apart, each element is a run of its own. -/
theorem splitBy_eq_map_singleton {r : α → α → Bool} {xs : List α} (h : xs.IsChain fun x y => r x y = false) :
    xs.splitBy r = xs.map ([·]) := by
  induction xs with
  | nil => rfl
  | cons x xs ih =>
    cases xs with
    | nil => rfl
    | cons y ys =>
      obtain ⟨hxy, h⟩ := List.isChain_cons_cons.mp h
      rw [splitBy_cons_of_false hxy, ih h]
      rfl

/-! ### The first and the last run -/

/-- The first of the longest runs in which neighbours are related. -/
def firstRun (r : α → α → Bool) (xs : List α) : List α := (xs.splitBy r).head?.getD []

/-- The last of the longest runs in which neighbours are related. -/
def lastRun (r : α → α → Bool) (xs : List α) : List α := (xs.splitBy r).getLast?.getD []

/-- What stands after the first run is cut off from it, whatever stands before the run. -/
theorem exists_eq_firstRun_append (r : α → α → Bool) (xs : List α) :
    ∃ later, xs = firstRun r xs ++ later ∧ (firstRun r xs).IsChain (fun x y => r x y = true) ∧
      ∀ ys, (ys ++ firstRun r xs ++ later).splitBy r = (ys ++ firstRun r xs).splitBy r ++ later.splitBy r := by
  cases hruns : xs.splitBy r with
  | nil =>
    have hxs := List.flatten_splitBy r xs
    rw [hruns] at hxs
    subst hxs
    exact ⟨[], rfl, .nil, fun ys => by simp [firstRun]⟩
  | cons run runs =>
    have hfirst : firstRun r xs = run := by rw [firstRun, hruns]; rfl
    obtain ⟨hxs, hnil, hchain, hcut⟩ := List.splitBy_eq_iff.mp hruns
    refine ⟨runs.flatten, by rw [hfirst, hxs, List.flatten_cons], hfirst ▸ hchain run List.mem_cons_self, fun ys => ?_⟩
    refine List.splitBy_append fun x hx y hy => ?_
    rw [hfirst] at hx
    cases runs with
    | nil => cases hy
    | cons run' runs =>
      obtain ⟨⟨hrun, hrun', hr⟩, -⟩ := List.isChain_cons_cons.mp hcut
      rw [List.getLast?_append_of_ne_nil _ hrun, List.getLast?_eq_some_getLast hrun] at hx
      rw [List.flatten_cons, List.head?_append_of_ne_nil _ hrun', List.head?_eq_some_head hrun'] at hy
      cases hx
      cases hy
      exact hr

/-- What stands before the last run is cut off from it, whatever stands after the run. -/
theorem exists_eq_append_lastRun (r : α → α → Bool) (xs : List α) :
    ∃ earlier, xs = earlier ++ lastRun r xs ∧ (lastRun r xs).IsChain (fun x y => r x y = true) ∧
      ∀ ys, (earlier ++ (lastRun r xs ++ ys)).splitBy r = earlier.splitBy r ++ (lastRun r xs ++ ys).splitBy r := by
  rcases List.eq_nil_or_concat (xs.splitBy r) with hruns | ⟨runs, run, hruns⟩
  · have hxs := List.flatten_splitBy r xs
    rw [hruns] at hxs
    subst hxs
    exact ⟨[], rfl, .nil, fun ys => rfl⟩
  · rw [List.concat_eq_append] at hruns
    have hlast : lastRun r xs = run := by rw [lastRun, hruns, List.getLast?_concat]; rfl
    obtain ⟨hxs, hnil, hchain, hcut⟩ := List.splitBy_eq_iff.mp hruns
    have hmem : run ∈ runs ++ [run] := List.mem_append_right runs List.mem_cons_self
    have hrun : run ≠ [] := fun h => hnil (h ▸ hmem)
    refine ⟨runs.flatten, by rw [hlast, hxs]; simp, hlast ▸ hchain run hmem, fun ys => ?_⟩
    refine List.splitBy_append fun x hx y hy => ?_
    rw [hlast, List.head?_append_of_ne_nil _ hrun, List.head?_eq_some_head hrun] at hy
    rcases List.eq_nil_or_concat runs with rfl | ⟨runs, run', rfl⟩
    · cases hx
    · rw [List.concat_eq_append, List.append_assoc, List.singleton_append] at hcut
      obtain ⟨⟨hrun', _, hr⟩, -⟩ := List.isChain_cons_cons.mp (List.isChain_append.mp hcut).2.1
      rw [List.concat_eq_append, List.flatten_append, List.flatten_singleton,
        List.getLast?_append_of_ne_nil _ hrun', List.getLast?_eq_some_getLast hrun'] at hx
      cases hx
      cases hy
      exact hr

/-! ### Cuts at the ends of elements -/

/-- The list cut before each element that satisfies `starts` and after each that satisfies `ends`. -/
def cut (starts ends : α → Bool) : List α → List (List α)
  | [] => [[]]
  | x :: xs =>
    let later := (if ends x then [] :: cut starts ends xs else cut starts ends xs).modifyHead (x :: ·)
    if starts x then [] :: later else later

theorem cut_ne_nil (starts ends : α → Bool) (xs : List α) : cut starts ends xs ≠ [] := by
  induction xs with
  | nil => exact List.cons_ne_nil _ _
  | cons x xs ih =>
    obtain ⟨run, runs, h⟩ := List.exists_cons_of_ne_nil ih
    rw [cut, h]
    cases starts x <;> cases ends x <;> exact List.cons_ne_nil _ _

theorem cut_eq_cons (starts ends : α → Bool) (xs : List α) :
    ∃ first later, cut starts ends xs = first :: later ∧ first.isEmpty = xs.head?.all starts := by
  cases xs with
  | nil => exact ⟨[], [], rfl, rfl⟩
  | cons x xs =>
    obtain ⟨run, runs, h⟩ := List.exists_cons_of_ne_nil (cut_ne_nil starts ends xs)
    rw [cut, h, List.head?_cons, Option.all_some]
    cases starts x <;> cases ends x <;> exact ⟨_, _, rfl, rfl⟩

/-- The runs between cuts that are not empty are the longest runs with no cut between neighbours. -/
theorem filter_cut (starts ends : α → Bool) (xs : List α) :
    ((cut starts ends xs).filter fun run => !run.isEmpty) = xs.splitBy fun x y => !(ends x || starts y) := by
  induction xs with
  | nil => rfl
  | cons x xs ih =>
    obtain ⟨first, later, hcut, hfirst⟩ := cut_eq_cons starts ends xs
    -- The first run of the rest is empty just if the next element is cut off, or there is none.
    have hrun : (cut starts ends (x :: xs)).filter (fun run => !run.isEmpty) =
        if ends x then [x] :: xs.splitBy (fun x y => !(ends x || starts y))
        else (x :: first) :: later.filter fun run => !run.isEmpty := by
      rw [cut, hcut, ← ih, hcut]
      cases starts x <;> cases ends x <;> rfl
    rw [hrun]
    rw [hcut] at ih
    cases xs with
    | nil =>
      cases hcut
      cases ends x <;> rfl
    | cons y ys =>
      cases hends : ends x with
      | true => rw [splitBy_cons_of_false (by rw [hends]; rfl), if_pos rfl]
      | false =>
        have hstarts : first.isEmpty = starts y := hfirst
        rw [if_neg (by simp)]
        cases hy : starts y with
        | true =>
          rw [splitBy_cons_of_false (by rw [hends, hy]; rfl), ← ih]
          rw [hy, List.isEmpty_iff] at hstarts
          rw [hstarts]
          rfl
        | false =>
          rw [splitBy_cons_of_true (by rw [hends, hy]; rfl), ← ih, List.filter_cons_of_pos (by rw [hstarts, hy]; rfl)]
          rfl

end SearchQuery
