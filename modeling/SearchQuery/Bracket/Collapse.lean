import SearchQuery.Text.Pattern
import SearchQuery.Text.Numeral

/-!
Innermost bracket pairs are collapsed into numbered placeholders, one depth per pass, until no pair is left.
What stood between the brackets is entered into a table; a pair around blanks is deleted. The placeholders
have full-width brackets, which the text to be collapsed has not. A pass that changes the text takes an
opening bracket from it, so the passes end.
-/

namespace SearchQuery.Bracket

/-- A pair of brackets with no bracket between them: what stands between them. -/
def innermost : Pattern Text where
  read
    | '(' :: s => Text.upTo? (fun c => c ≠ '(' && c ≠ ')') ')' s
    | _ => none
  shorter {s rest found} h := by
    split at h
    · have := Text.length_lt_of_upTo? h
      simp only [List.length_cons]
      omega
    · cases h

/-- The placeholder of an entry of the bracket table. -/
def placeholder (index : Nat) : Text :=
  '（' :: Numeral.ofNat index ++ ['）']

/-- Collapses the innermost pairs of a text once, with indexes on from `size`, and gives the new entries. -/
def pass (size : Nat) (s : Text) : Text × List Text :=
  Piece.number placeholder size (innermost.pieces s)

theorem count_placeholder (n : Nat) : (placeholder n).count '(' = 0 := by
  have hdigits : '(' ∉ Numeral.ofNat n := fun h => by
    obtain ⟨d, hd, he⟩ := Numeral.exists_digit_of_mem h
    revert he
    revert d
    decide
  simp only [placeholder, List.count_cons, List.count_append, List.count_eq_zero.mpr hdigits,
    List.count_nil, List.cons_append]
  decide

theorem count_eq_of_read {s body rest : Text} (h : innermost.read s = some (body, rest)) :
    s.count '(' = body.count '(' + 1 + rest.count '(' := by
  simp only [innermost] at h
  split at h
  · rw [Text.eq_append_of_upTo? h, List.count_cons_self, List.count_append,
      List.count_cons_of_ne (by decide)]
    omega
  · cases h

/-- A pass leaves the text as it is or takes an opening bracket from it. -/
theorem pass_eq_or_count_lt (s : Text) :
    ∀ n, (pass n s).1 = s ∨ (pass n s).1.count '(' < s.count '(' := by
  unfold pass
  fun_induction innermost.pieces s with
  | case1 => exact fun n => Or.inl rfl
  | case2 c s body rest h ih =>
    intro n
    have hcount := count_eq_of_read h
    refine Or.inr ?_
    simp only [Piece.number]
    split
    · have hmark := count_placeholder (n + 1)
      rcases ih (n + 1) with ih | ih <;> simp only [List.count_append, ih, hmark] <;> omega
    · rcases ih n with ih | ih
      · rw [ih]
        omega
      · omega
  | case3 c s h ih =>
    intro n
    simp only [Piece.number]
    rcases ih n with ih | ih
    · exact Or.inl (by rw [ih])
    · refine Or.inr ?_
      simp only [List.count_cons]
      omega

/-- Collapses every pair of brackets of a text. Gives the text with placeholders for the pairs, and the
    table with the new entries after the old ones. -/
def collapse (table : List Text) (s : Text) : Text × List Text :=
  let next := pass table.length s
  if next.1 = s then (s, table) else collapse (table ++ next.2) next.1
termination_by s.count '('
decreasing_by
  rcases pass_eq_or_count_lt s table.length with h | h
  · contradiction
  · exact h

/-- The text without its ASCII brackets. -/
def dropUnmatched (s : Text) : Text :=
  s.filter fun c => c ≠ '(' && c ≠ ')'

end SearchQuery.Bracket
