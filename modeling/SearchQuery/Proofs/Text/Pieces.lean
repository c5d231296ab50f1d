import SearchQuery.Text.Pattern

/-! How a text falls into pieces. A pattern that finds nothing at the characters of a prefix leaves the prefix
    plain, and what is made of the pieces afterwards passes over plain text. -/

namespace SearchQuery

namespace Text

/-- A text is cut at a character that does not stand in its first part. -/
theorem exists_of_append_eq {p u s t : Text} {c : Char} (hc : c ∉ p) (h : p ++ u = s ++ c :: t) :
    ∃ s', s = p ++ s' ∧ u = s' ++ c :: t := by
  rcases List.append_eq_append_iff.mp h with ⟨x, rfl, rfl⟩ | ⟨x, rfl, hx⟩
  · exact ⟨x, rfl, rfl⟩
  · cases x with
    | nil => exact ⟨[], by rw [List.append_nil, List.append_nil], hx.symm⟩
    | cons d x =>
      obtain ⟨rfl, -⟩ := List.cons.inj hx
      exact absurd (by simp) hc

theorem upTo?_append {inside : Char → Bool} {close : Char} {body : Text} (hbody : ∀ c ∈ body, inside c = true)
    (hclose : inside close = false) (rest : Text) :
    upTo? inside close (body ++ close :: rest) = some (body, rest) := by
  have hdrop : (body ++ close :: rest).dropWhile inside = close :: rest := by
    rw [List.dropWhile_append_of_pos hbody, List.dropWhile_cons_of_neg (by simp [hclose])]
  have htake : (body ++ close :: rest).takeWhile inside = body := by
    rw [List.takeWhile_append_of_pos hbody, List.takeWhile_cons_of_neg (by simp [hclose]), List.append_nil]
  simp only [upTo?, hdrop, htake, ite_true]

theorem inside_of_upTo? {inside : Char → Bool} {close : Char} {s body rest : Text}
    (h : s.upTo? inside close = some (body, rest)) : ∀ c ∈ body, inside c = true := by
  unfold upTo? at h
  split at h
  · cases h
  · split at h
    · simp only [Option.some.injEq, Prod.mk.injEq] at h
      rw [← h.1]
      exact fun c hc => List.all_eq_true.mp List.all_takeWhile c hc
    · cases h

/-- The run is closed as soon as its first character outside the class is the closing one. -/
theorem upTo?_cons {inside : Char → Bool} {close c : Char} (hc : inside c = true) (s : Text) :
    upTo? inside close (c :: s) = (upTo? inside close s).map fun (body, rest) => (c :: body, rest) := by
  simp only [upTo?, List.dropWhile_cons_of_pos hc, List.takeWhile_cons_of_pos hc]
  split
  · rfl
  · split <;> rfl

theorem upTo?_cons_of_not {inside : Char → Bool} {close c : Char} (hc : inside c = false) (s : Text) :
    upTo? inside close (c :: s) = if c = close then some ([], s) else none := by
  simp only [upTo?, List.dropWhile_cons_of_neg (show ¬inside c = true by simp [hc]),
    List.takeWhile_cons_of_neg (show ¬inside c = true by simp [hc])]

/-- A change of characters that keeps a class and its closing character keeps the run that a text starts with. -/
theorem upTo?_map {f : Char → Char} {inside : Char → Bool} {close : Char} (hinside : ∀ c, inside (f c) = inside c)
    (hclose : ∀ c, f c = close ↔ c = close) (s : Text) :
    upTo? inside close (s.map f) = (upTo? inside close s).map fun (body, rest) => (body.map f, rest.map f) := by
  induction s with
  | nil => rfl
  | cons c s ih =>
    rw [List.map_cons]
    cases hc : inside c with
    | true =>
      rw [upTo?_cons (by rw [hinside, hc]), upTo?_cons hc, ih, Option.map_map, Option.map_map]
      rfl
    | false =>
      rw [upTo?_cons_of_not (by rw [hinside, hc]), upTo?_cons_of_not hc]
      simp only [hclose]
      split <;> rfl

end Text

namespace Pattern

variable {β : Type} {p : Pattern β}

@[simp] theorem pieces_nil : p.pieces [] = [] := by
  rw [pieces]

theorem pieces_of_none {c : Char} {s : Text} (h : p.read (c :: s) = none) :
    p.pieces (c :: s) = .plain c :: p.pieces s := by
  rw [pieces]
  split
  · next hs =>
    rw [h] at hs
    cases hs
  · rfl

theorem pieces_of_some {s rest : Text} {value : β} (h : p.read s = some (value, rest)) :
    p.pieces s = .found value :: p.pieces rest := by
  cases s with
  | nil => exact absurd (p.shorter h) (Nat.not_lt_zero _)
  | cons c s =>
    rw [pieces]
    split
    · next hs =>
      rw [h] at hs
      cases hs
      rfl
    · next hs =>
      rw [h] at hs
      cases hs

theorem pieces_append {t : Text} (h : ∀ c ∈ t, ∀ rest, p.read (c :: rest) = none) (s : Text) :
    p.pieces (t ++ s) = t.map .plain ++ p.pieces s := by
  induction t with
  | nil => rfl
  | cons c t ih =>
    rw [List.cons_append, pieces_of_none (h c List.mem_cons_self _), ih fun d hd => h d (List.mem_cons_of_mem c hd)]
    rfl

end Pattern

namespace Piece

variable {mark : Nat → Text} {size : Nat} {ps : List (Piece Text)}

theorem number_map_plain_append (t : Text) :
    number mark size (t.map .plain ++ ps) = (t ++ (number mark size ps).1, (number mark size ps).2) := by
  induction t with
  | nil => rfl
  | cons c t ih => simp only [List.map_cons, List.cons_append, number, ih]

theorem runs_map_plain {β : Type} (t : Text) : runs (t.map .plain : List (Piece β)) = ([], t) := by
  induction t with
  | nil => rfl
  | cons c t ih => simp only [List.map_cons, runs, ih]

theorem runs_map_plain_append_found {β : Type} (t : Text) (value : β) (ps : List (Piece β)) :
    runs (t.map .plain ++ .found value :: ps) = ((t, value) :: (runs ps).1, (runs ps).2) := by
  induction t with
  | nil => rfl
  | cons c t ih => simp only [List.map_cons, List.cons_append, runs, ih]

end Piece
end SearchQuery
