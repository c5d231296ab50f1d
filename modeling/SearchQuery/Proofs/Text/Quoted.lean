import Mathlib.Algebra.Group.Nat.Defs
import SearchQuery.Text.Quoted

/-! Quoted text is read back character by character: a backslash starts an escape, whose next character tells how many
    digits follow, and any other character stands for itself. So texts that are quoted the same way are the same, and the
    quoted text has no line break. -/

namespace SearchQuery

/-! ### Hexadecimal digits -/

/-- The number that hexadecimal digits stand for. -/
def hexNumber (digits : Text) : Nat :=
  digits.foldl (fun n digit => 16 * n + (hexValue? digit).getD 0) 0

theorem hexValue?_hexDigit : ∀ n < 16, hexValue? (hexDigit n) = some n := by decide

theorem length_hexDigits (width n : Nat) : (hexDigits width n).length = width := by
  induction width generalizing n with
  | zero => rfl
  | succ width ih => rw [hexDigits, List.length_append, ih, List.length_singleton]

theorem hexNumber_hexDigits (width n : Nat) : hexNumber (hexDigits width n) = n % 16 ^ width := by
  induction width generalizing n with
  | zero => exact (Nat.mod_one n).symm
  | succ width ih =>
    have hdigit := hexValue?_hexDigit (n % 16) (Nat.mod_lt n (by decide))
    have hfront := ih (n / 16)
    rw [hexNumber] at hfront
    rw [hexDigits, hexNumber, List.foldl_append, hfront, List.foldl_cons, List.foldl_nil, hdigit, Option.getD_some,
      Nat.pow_succ', Nat.mod_mul, Nat.add_comm]

theorem newline_not_mem_hexDigits (width n : Nat) : '\n' ∉ hexDigits width n := by
  have hdigit : ∀ d < 16, hexDigit d ≠ '\n' := by decide
  induction width generalizing n with
  | zero => simp [hexDigits]
  | succ width ih =>
    rw [hexDigits, List.mem_append, List.mem_singleton]
    rintro (hmem | heq)
    · exact ih _ hmem
    · exact hdigit _ (Nat.mod_lt n (by decide)) heq.symm

namespace Text

/-! ### Characters -/

/-- The character at the front of the inside of quoted text, and what follows it. -/
def unquoteChar : Text → Option (Char × Text)
  | '\\' :: 'x' :: s => some (Char.ofNat (hexNumber (s.take 2)), s.drop 2)
  | '\\' :: 'u' :: s => some (Char.ofNat (hexNumber (s.take 4)), s.drop 4)
  | '\\' :: 'U' :: s => some (Char.ofNat (hexNumber (s.take 8)), s.drop 8)
  | '\\' :: 'n' :: s => some ('\n', s)
  | '\\' :: 'r' :: s => some ('\r', s)
  | '\\' :: 't' :: s => some ('\t', s)
  | '\\' :: c :: s => some (c, s)
  | c :: s => some (c, s)
  | [] => none

theorem ofNat_hexNumber (width : Nat) {c : Char} (hc : c.toNat < 16 ^ width) (s : Text) :
    Char.ofNat (hexNumber ((hexDigits width c.toNat ++ s).take width)) = c ∧
      (hexDigits width c.toNat ++ s).drop width = s := by
  have hlength := length_hexDigits width c.toNat
  rw [List.take_left' hlength, List.drop_left' hlength, hexNumber_hexDigits, Nat.mod_eq_of_lt hc, Char.ofNat_toNat]
  exact ⟨rfl, rfl⟩

theorem unquoteChar_quoteChar {quote : Char} (hquote : quote = '\'' ∨ quote = '"') (c : Char) (s : Text) :
    unquoteChar (quoteChar quote c ++ s) = some (c, s) := by
  fun_cases quoteChar quote c with
  | case1 h =>
    simp only [Bool.or_eq_true, decide_eq_true_eq] at h
    rcases h with rfl | rfl
    · rcases hquote with rfl | rfl <;> rfl
    · rfl
  | case2 _ h => rw [h]; rfl
  | case3 _ _ h => rw [h]; rfl
  | case4 _ _ _ h => rw [h]; rfl
  | case5 h =>
    simp only [Bool.or_eq_true, decide_eq_true_eq, not_or] at h
    rw [List.singleton_append]
    unfold unquoteChar
    split <;> simp_all
  | case6 _ _ _ _ _ hc =>
    obtain ⟨hchar, hrest⟩ := ofNat_hexNumber 2 hc s
    rw [List.cons_append, List.cons_append, unquoteChar, hchar, hrest]
  | case7 _ _ _ _ _ _ hc =>
    obtain ⟨hchar, hrest⟩ := ofNat_hexNumber 4 hc s
    rw [List.cons_append, List.cons_append, unquoteChar, hchar, hrest]
  | case8 =>
    have hc : c.toNat < 16 ^ 8 := c.val.toNat_lt
    obtain ⟨hchar, hrest⟩ := ofNat_hexNumber 8 hc s
    rw [List.cons_append, List.cons_append, unquoteChar, hchar, hrest]

theorem quoteChar_ne_nil (quote c : Char) : quoteChar quote c ≠ [] := by
  fun_cases quoteChar quote c with
  | _ => exact List.cons_ne_nil _ _

theorem newline_not_mem_quoteChar {quote : Char} (hquote : quote = '\'' ∨ quote = '"') (c : Char) :
    '\n' ∉ quoteChar quote c := by
  fun_cases quoteChar quote c with
  | case1 h =>
    simp only [Bool.or_eq_true, decide_eq_true_eq] at h
    rcases h with rfl | rfl
    · rcases hquote with rfl | rfl <;> decide
    · decide
  | case2 | case3 | case4 => decide
  | case5 _ h => simpa using Ne.symm h
  | case6 | case7 | case8 => simp [newline_not_mem_hexDigits]

/-! ### Texts -/

theorem quoteFor_cases (s : Text) : s.quoteFor = '\'' ∨ s.quoteFor = '"' := by
  rw [quoteFor]
  split
  · exact Or.inr rfl
  · exact Or.inl rfl

theorem flatMap_quoteChar_inj {quote : Char} (hquote : quote = '\'' ∨ quote = '"') {s t : Text}
    (h : s.flatMap (quoteChar quote) = t.flatMap (quoteChar quote)) : s = t := by
  induction s generalizing t with
  | nil =>
    cases t with
    | nil => rfl
    | cons d t => exact absurd (List.append_eq_nil_iff.mp h.symm).1 (quoteChar_ne_nil quote d)
  | cons c s ih =>
    cases t with
    | nil => exact absurd (List.append_eq_nil_iff.mp h).1 (quoteChar_ne_nil quote c)
    | cons d t =>
      have hread := congrArg unquoteChar h
      rw [List.flatMap_cons, List.flatMap_cons, unquoteChar_quoteChar hquote, unquoteChar_quoteChar hquote,
        Option.some.injEq, Prod.mk.injEq] at hread
      rw [hread.1, ih hread.2]

/-- Texts that are quoted the same way are the same. -/
theorem quoted_injective : Function.Injective quoted := by
  intro s t h
  rw [quoted, quoted, List.cons_append, List.cons_append] at h
  obtain ⟨hquote, hinside⟩ := List.cons.inj h
  rw [← hquote] at hinside
  exact flatMap_quoteChar_inj (quoteFor_cases s) (List.append_cancel_right hinside)

theorem newline_not_mem_quoted (s : Text) : '\n' ∉ s.quoted := by
  have hquote : '\n' ≠ s.quoteFor := by
    rcases quoteFor_cases s with h | h <;> rw [h] <;> decide
  simp [quoted, hquote, newline_not_mem_quoteChar (quoteFor_cases s)]

end Text
end SearchQuery
