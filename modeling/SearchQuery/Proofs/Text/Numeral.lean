import SearchQuery.Text.Numeral

/-! Written numerals are read back: the digits of `Numeral.ofNat` are decimal digits with the value they were
    written for, so an index that a placeholder or a skeleton carries leads to the entry it was given for. -/

namespace SearchQuery

theorem digitValue?_digit : ∀ d < 10, digitValue? (Numeral.digit d) = some d := by decide

namespace Numeral

/-! ### Digits -/

/-- What holds of the ten ASCII digits holds of every character of a numeral. -/
theorem forall_mem_ofNat {p : Char → Prop} (h : ∀ d < 10, p (digit d)) {n : Nat} : ∀ c ∈ ofNat n, p c := by
  intro c hc
  obtain ⟨d, hd, rfl⟩ := exists_digit_of_mem hc
  exact h d hd

theorem isDecimal_digit (d : Nat) (hd : d < 10) : isDecimal (digit d) = true := by
  rw [isDecimal, digitValue?_digit d hd]
  rfl

theorem isDecimal_of_mem {c : Char} {n : Nat} (h : c ∈ ofNat n) : isDecimal c = true :=
  forall_mem_ofNat (p := fun c => isDecimal c = true) isDecimal_digit c h

theorem isDecimal_of_isDigit {c : Char} (h : c.isDigit = true) : isDecimal c = true := by
  simp only [Char.isDigit, Bool.and_eq_true, decide_eq_true_eq] at h
  have hlow : 48 ≤ c.toNat := h.1
  have hhigh : c.toNat ≤ 57 := h.2
  have hc : c = digit (c.toNat - 48) := by
    rw [digit, Nat.add_sub_cancel' hlow, Char.ofNat_toNat]
  rw [hc]
  exact isDecimal_digit _ (by omega)

theorem isDigitLike_of_isDecimal {c : Char} (h : isDecimal c = true) : isDigitLike c = true := by
  rw [isDigitLike, h, Bool.true_or]

theorem ofNat_ne_nil (n : Nat) : ofNat n ≠ [] := by
  rw [ofNat]
  split <;> simp

theorem isEmpty_ofNat (n : Nat) : (ofNat n).isEmpty = false := by
  rw [List.isEmpty_eq_false_iff]
  exact ofNat_ne_nil n

/-! ### Values -/

theorem value_append_digit (s : Text) {d : Nat} (hd : d < 10) : value (s ++ [digit d]) = 10 * value s + d := by
  simp only [value, List.foldl_append, List.foldl_cons, List.foldl_nil, digitValue?_digit d hd, Option.getD_some]

theorem value_ofNat (n : Nat) : value (ofNat n) = n := by
  fun_induction ofNat n with
  | case1 n hn => simpa [value] using value_append_digit [] hn
  | case2 n hn ih =>
    rw [value_append_digit _ (Nat.mod_lt n (by decide)), ih]
    omega

/-! ### Lengths -/

theorem length_ofNat_mono {m n : Nat} (h : m ≤ n) : (ofNat m).length ≤ (ofNat n).length := by
  induction n using Nat.strongRecOn generalizing m with
  | ind n ih =>
    rw [ofNat.eq_def m, ofNat.eq_def n]
    split
    · split <;> simp
    · next hm =>
      rw [if_neg (by omega)]
      have := ih (n / 10) (by omega) (Nat.div_le_div_right (c := 10) h)
      simpa using this

/-- An index into `size` entries is never written in more digits than are read. -/
theorem length_ofNat_le_lengthLimit {m size : Nat} (h : m ≤ size) : (ofNat m).length ≤ lengthLimit size :=
  Nat.le_trans (length_ofNat_mono h) (Nat.le_max_right _ _)

end Numeral
end SearchQuery
