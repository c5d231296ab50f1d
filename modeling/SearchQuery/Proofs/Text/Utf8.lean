import SearchQuery.Text.Utf8
import Mathlib.Data.List.Forall2
import Mathlib.Tactic.SplitIfs

/-! Text and its bytes. The bytes that start a character, with the ranges of those after it, are exactly the bytes of the
    characters, so bytes are decoded as the text that they encode. Where they are no text, what is decoded is the text of
    the bytes before the fault; and a fault that is not the end of the bytes stays when more bytes come. -/

namespace SearchQuery.Utf8

/-! ### The bytes of a character -/

/-- The range of the byte after the first byte of a character. -/
def second (b : UInt8) : UInt8 × UInt8 :=
  (if b = 0xE0 then 0xA0 else if b = 0xF0 then 0x90 else 0x80, if b = 0xED then 0x9F else if b = 0xF4 then 0x8F else 0xBF)

theorem followers?_ofNat : ∀ n < 256, followers? (UInt8.ofNat n) =
    if n < 0x80 then some []
    else if n < 0xC2 then none
    else if n < 0xE0 then some [second (UInt8.ofNat n)]
    else if n < 0xF0 then some [second (UInt8.ofNat n), (0x80, 0xBF)]
    else if n < 0xF5 then some [second (UInt8.ofNat n), (0x80, 0xBF), (0x80, 0xBF)]
    else none := by
  decide +kernel

theorem followers?_eq (b : UInt8) : followers? b =
    if b.toNat < 0x80 then some []
    else if b.toNat < 0xC2 then none
    else if b.toNat < 0xE0 then some [second b]
    else if b.toNat < 0xF0 then some [second b, (0x80, 0xBF)]
    else if b.toNat < 0xF5 then some [second b, (0x80, 0xBF), (0x80, 0xBF)]
    else none := by
  have h := followers?_ofNat b.toNat b.toNat_lt
  rwa [UInt8.ofNat_toNat] at h

/-- A byte that can only go on with a character. -/
def IsTail (b : UInt8) : Prop :=
  0x80 ≤ b.toNat ∧ b.toNat ≤ 0xBF

theorem isTail_iff {x : UInt8} : 0x80 ≤ x ∧ x ≤ 0xBF ↔ IsTail x := by
  rw [UInt8.le_iff_toNat_le, UInt8.le_iff_toNat_le]
  rfl

theorem second_iff {b x : UInt8} : (second b).1 ≤ x ∧ x ≤ (second b).2 ↔
    IsTail x ∧ (b.toNat = 0xE0 → 0xA0 ≤ x.toNat) ∧ (b.toNat = 0xF0 → 0x90 ≤ x.toNat) ∧
      (b.toNat = 0xED → x.toNat ≤ 0x9F) ∧ (b.toNat = 0xF4 → x.toNat ≤ 0x8F) := by
  have hE0 : b = 0xE0 ↔ b.toNat = 0xE0 := UInt8.toNat_inj.symm
  have hF0 : b = 0xF0 ↔ b.toNat = 0xF0 := UInt8.toNat_inj.symm
  have hED : b = 0xED ↔ b.toNat = 0xED := UInt8.toNat_inj.symm
  have hF4 : b = 0xF4 ↔ b.toNat = 0xF4 := UInt8.toNat_inj.symm
  simp only [second, IsTail, UInt8.le_iff_toNat_le, apply_ite UInt8.toNat, hE0, hF0, hED, hF4, UInt8.reduceToNat]
  split_ifs <;> omega

theorem toNat_ofNat {n : Nat} (h : n < 0xD800 ∨ 0xDFFF < n ∧ n < 0x110000) : (Char.ofNat n).toNat = n := by
  have hvalid : n.isValidChar := by
    unfold Nat.isValidChar
    omega
  rw [Char.ofNat, dif_pos hvalid]
  rfl

section Spelled
variable {a b c d : UInt8}

theorem encodeChar_one (ha : a.toNat < 0x80) : String.utf8EncodeChar (character a []) = [a] := by
  have hvalue : (character a []).val.toNat = a.toNat := toNat_ofNat (by simp; omega)
  unfold String.utf8EncodeChar
  simp only [hvalue]
  rw [if_pos (by omega), UInt8.ofNat_toNat]

theorem encodeChar_two (ha : 0xC2 ≤ a.toNat ∧ a.toNat ≤ 0xDF) (hb : IsTail b) :
    String.utf8EncodeChar (character a [b]) = [a, b] := by
  unfold IsTail at hb
  have hvalue : (character a [b]).val.toNat = 64 * (a.toNat % 32) + b.toNat % 64 := toNat_ofNat (by simp; omega)
  unfold String.utf8EncodeChar
  simp only [hvalue]
  rw [if_neg (by omega), if_pos (by omega)]
  simp only [List.cons.injEq, and_true, ← UInt8.toNat_inj, UInt8.toNat_ofNat']
  omega

theorem encodeChar_three (ha : 0xE0 ≤ a.toNat ∧ a.toNat ≤ 0xEF) (hb : IsTail b) (hc : IsTail c)
    (hlow : a.toNat = 0xE0 → 0xA0 ≤ b.toNat) (hhigh : a.toNat = 0xED → b.toNat ≤ 0x9F) :
    String.utf8EncodeChar (character a [b, c]) = [a, b, c] := by
  unfold IsTail at hb hc
  have hvalue : (character a [b, c]).val.toNat = 64 * (64 * (a.toNat % 16) + b.toNat % 64) + c.toNat % 64 :=
    toNat_ofNat (by simp; omega)
  unfold String.utf8EncodeChar
  simp only [hvalue]
  rw [if_neg (by omega), if_neg (by omega), if_pos (by omega)]
  simp only [List.cons.injEq, and_true, ← UInt8.toNat_inj, UInt8.toNat_ofNat']
  omega

theorem encodeChar_four (ha : 0xF0 ≤ a.toNat ∧ a.toNat ≤ 0xF4) (hb : IsTail b) (hc : IsTail c) (hd : IsTail d)
    (hlow : a.toNat = 0xF0 → 0x90 ≤ b.toNat) (hhigh : a.toNat = 0xF4 → b.toNat ≤ 0x8F) :
    String.utf8EncodeChar (character a [b, c, d]) = [a, b, c, d] := by
  unfold IsTail at hb hc hd
  have hvalue : (character a [b, c, d]).val.toNat =
      64 * (64 * (64 * (a.toNat % 8) + b.toNat % 64) + c.toNat % 64) + d.toNat % 64 :=
    toNat_ofNat (by simp; omega)
  unfold String.utf8EncodeChar
  simp only [hvalue]
  rw [if_neg (by omega), if_neg (by omega), if_neg (by omega)]
  simp only [List.cons.injEq, and_true, ← UInt8.toNat_inj, UInt8.toNat_ofNat']
  omega

end Spelled

/-- The bytes stand in the ranges, one for each. -/
abbrev Fits (ranges : List (UInt8 × UInt8)) (bytes : List UInt8) : Prop :=
  List.Forall₂ (fun range b => range.1 ≤ b ∧ b ≤ range.2) ranges bytes

/-- The byte starts a character that the others complete. -/
def Leads (b : UInt8) (tail : List UInt8) : Prop :=
  ∃ ranges, followers? b = some ranges ∧ Fits ranges tail

/-- The characters of one, two, three and four bytes. -/
theorem leads_iff {b : UInt8} {tail : List UInt8} : Leads b tail ↔
    (b.toNat < 0x80 ∧ tail = []) ∨
      (∃ x, (0xC2 ≤ b.toNat ∧ b.toNat ≤ 0xDF) ∧ IsTail x ∧ tail = [x]) ∨
      (∃ x y, (0xE0 ≤ b.toNat ∧ b.toNat ≤ 0xEF) ∧ IsTail x ∧ IsTail y ∧ (b.toNat = 0xE0 → 0xA0 ≤ x.toNat) ∧
        (b.toNat = 0xED → x.toNat ≤ 0x9F) ∧ tail = [x, y]) ∨
      ∃ x y z, (0xF0 ≤ b.toNat ∧ b.toNat ≤ 0xF4) ∧ IsTail x ∧ IsTail y ∧ IsTail z ∧ (b.toNat = 0xF0 → 0x90 ≤ x.toNat) ∧
        (b.toNat = 0xF4 → x.toNat ≤ 0x8F) ∧ tail = [x, y, z] := by
  constructor
  · rintro ⟨ranges, hb, htail⟩
    rw [followers?_eq] at hb
    split at hb
    · cases hb
      cases htail
      exact .inl ⟨‹_›, rfl⟩
    split at hb
    · cases hb
    split at hb
    · cases hb
      rcases htail with _ | ⟨hx, _ | _⟩
      exact .inr (.inl ⟨_, by omega, (second_iff.mp hx).1, rfl⟩)
    split at hb
    · cases hb
      rcases htail with _ | ⟨hx, _ | ⟨hy, _ | _⟩⟩
      obtain ⟨hx, hlow, -, hhigh, -⟩ := second_iff.mp hx
      exact .inr (.inr (.inl ⟨_, _, by omega, hx, isTail_iff.mp hy, hlow, hhigh, rfl⟩))
    split at hb
    · cases hb
      rcases htail with _ | ⟨hx, _ | ⟨hy, _ | ⟨hz, _ | _⟩⟩⟩
      obtain ⟨hx, -, hlow, -, hhigh⟩ := second_iff.mp hx
      exact .inr (.inr (.inr ⟨_, _, _, by omega, hx, isTail_iff.mp hy, isTail_iff.mp hz, hlow, hhigh, rfl⟩))
    · cases hb
  · rintro (⟨hb, rfl⟩ | ⟨x, hb, hx, rfl⟩ | ⟨x, y, hb, hx, hy, hlow, hhigh, rfl⟩ |
      ⟨x, y, z, hb, hx, hy, hz, hlow, hhigh, rfl⟩)
    · refine ⟨_, by rw [followers?_eq, if_pos hb], .nil⟩
    · refine ⟨[second b], ?_, .cons (second_iff.mpr ⟨hx, by omega⟩) .nil⟩
      rw [followers?_eq, if_neg (by omega), if_neg (by omega), if_pos (by omega)]
    · refine ⟨[second b, (0x80, 0xBF)], ?_,
        .cons (second_iff.mpr ⟨hx, hlow, by omega, hhigh, by omega⟩) (.cons (isTail_iff.mpr hy) .nil)⟩
      rw [followers?_eq, if_neg (by omega), if_neg (by omega), if_neg (by omega), if_pos (by omega)]
    · refine ⟨[second b, (0x80, 0xBF), (0x80, 0xBF)], ?_,
        .cons (second_iff.mpr ⟨hx, by omega, hlow, by omega, hhigh⟩)
          (.cons (isTail_iff.mpr hy) (.cons (isTail_iff.mpr hz) .nil))⟩
      rw [followers?_eq, if_neg (by omega), if_neg (by omega), if_neg (by omega), if_neg (by omega), if_pos (by omega)]

/-- The character that bytes spell has them for its bytes. -/
theorem Leads.encodeChar {b : UInt8} {tail : List UInt8} (h : Leads b tail) :
    String.utf8EncodeChar (character b tail) = b :: tail := by
  rcases leads_iff.mp h with ⟨hb, rfl⟩ | ⟨x, hb, hx, rfl⟩ | ⟨x, y, hb, hx, hy, hlow, hhigh, rfl⟩ |
    ⟨x, y, z, hb, hx, hy, hz, hlow, hhigh, rfl⟩
  · exact encodeChar_one hb
  · exact encodeChar_two hb hx
  · exact encodeChar_three hb hx hy hlow hhigh
  · exact encodeChar_four hb hx hy hz hlow hhigh

/-- The bytes of a character start it and complete it, and they spell that character. -/
theorem exists_leads (c : Char) :
    ∃ b tail, String.utf8EncodeChar c = b :: tail ∧ Leads b tail ∧ character b tail = c := by
  have hvalid : c.toNat < 0xD800 ∨ (0xDFFF < c.toNat ∧ c.toNat < 0x110000) := c.valid
  have hchar : ∀ n, n = c.toNat → Char.ofNat n = c := fun n h => by rw [h, Char.ofNat_toNat]
  unfold String.utf8EncodeChar
  simp only [show c.val.toNat = c.toNat from rfl]
  split
  · refine ⟨_, _, rfl, leads_iff.mpr (.inl ⟨?_, rfl⟩), hchar _ ?_⟩ <;> simp <;> omega
  split
  · refine ⟨_, _, rfl, leads_iff.mpr (.inr (.inl ⟨_, ?_, ?_, rfl⟩)), hchar _ ?_⟩ <;> simp [IsTail] <;> omega
  split
  · refine ⟨_, _, rfl, leads_iff.mpr (.inr (.inr (.inl ⟨_, _, ?_, ?_, ?_, ?_, ?_, rfl⟩))), hchar _ ?_⟩ <;>
      simp [IsTail] <;> omega
  · refine ⟨_, _, rfl, leads_iff.mpr (.inr (.inr (.inr ⟨_, _, _, ?_, ?_, ?_, ?_, ?_, ?_, rfl⟩))), hchar _ ?_⟩ <;>
      simp [IsTail] <;> omega

/-! ### Runs of bytes -/

theorem inRanges_nil (bytes : List UInt8) : inRanges [] bytes = [] := by
  rw [inRanges]
  simp

theorem inRanges_of_fits {ranges : List (UInt8 × UInt8)} {tail : List UInt8} (h : Fits ranges tail) (more : List UInt8) :
    inRanges ranges (tail ++ more) = tail := by
  induction h with
  | nil => exact inRanges_nil _
  | @cons range b ranges tail hb _ ih =>
    have hrange : (range.1 ≤ b && b ≤ range.2) = true := by simpa using hb
    rw [List.cons_append, inRanges, if_pos hrange, ih]

theorem fits_inRanges {ranges : List (UInt8 × UInt8)} {bytes : List UInt8}
    (h : (inRanges ranges bytes).length = ranges.length) : Fits ranges (inRanges ranges bytes) := by
  fun_induction inRanges ranges bytes with
  | case1 low high ranges b bytes hb ih => exact .cons (by simpa using hb) (ih (by simpa using h))
  | case2 => simp at h
  | case3 ranges bytes hne =>
    obtain rfl : ranges = [] := List.length_eq_zero_iff.mp h.symm
    exact .nil

theorem inRanges_append_drop (ranges : List (UInt8 × UInt8)) (bytes : List UInt8) :
    inRanges ranges bytes ++ bytes.drop (inRanges ranges bytes).length = bytes := by
  fun_induction inRanges ranges bytes with
  | case1 low high ranges b bytes hb ih => rw [List.length_cons, List.drop_succ_cons, List.cons_append, ih]
  | case2 => rfl
  | case3 => rfl

/-- A byte out of its range ends the run, whatever comes after it. -/
theorem inRanges_append {ranges : List (UInt8 × UInt8)} {bytes : List UInt8}
    (h : (inRanges ranges bytes).length < bytes.length) (more : List UInt8) :
    inRanges ranges (bytes ++ more) = inRanges ranges bytes := by
  fun_induction inRanges ranges bytes with
  | case1 low high ranges b bytes hb ih => rw [List.cons_append, inRanges, if_pos hb, ih (by simpa using h)]
  | case2 low high ranges b bytes hb => rw [List.cons_append, inRanges, if_neg hb]
  | case3 ranges bytes hne =>
    cases ranges with
    | nil => exact inRanges_nil _
    | cons range ranges =>
      cases bytes with
      | nil => cases h
      | cons b bytes => exact absurd rfl (hne _ _ _ _ _ rfl)

/-! ### Texts -/

/-- The bytes of a text. -/
def encode (s : Text) : List UInt8 :=
  s.flatMap String.utf8EncodeChar

/-- The bytes are those of a text. -/
def IsText (bytes : List UInt8) : Prop :=
  ∃ s : Text, bytes = encode s

theorem length_le_length_encode (s : Text) : s.length ≤ (encode s).length := by
  induction s with
  | nil => exact Nat.le_refl 0
  | cons c s ih =>
    have hc := c.utf8Size_pos
    rw [encode] at ih
    rw [encode, List.flatMap_cons, List.length_cons, List.length_append, String.length_utf8EncodeChar]
    omega

theorem decodeFrom_nil (position : Nat) : decodeFrom position [] = ([], none) := by
  rw [decodeFrom]

/-- A character at the front is decoded by itself. -/
theorem decodeFrom_leads {b : UInt8} {tail : List UInt8} (h : Leads b tail) (position : Nat) (rest : List UInt8) :
    decodeFrom position (b :: (tail ++ rest)) =
      (character b tail :: (decodeFrom (position + tail.length + 1) rest).1,
        (decodeFrom (position + tail.length + 1) rest).2) := by
  obtain ⟨ranges, hb, htail⟩ := h
  rw [decodeFrom, hb]
  simp only [inRanges_of_fits htail, if_pos htail.length_eq.symm, List.drop_left]

/-- So is a text. -/
theorem decodeFrom_encode_append (s : Text) (position : Nat) (rest : List UInt8) :
    decodeFrom position (encode s ++ rest) =
      (s ++ (decodeFrom (position + (encode s).length) rest).1,
        (decodeFrom (position + (encode s).length) rest).2) := by
  induction s generalizing position with
  | nil => rfl
  | cons c s ih =>
    obtain ⟨b, tail, hc, hleads, hchar⟩ := exists_leads c
    have hencode : encode (c :: s) = b :: (tail ++ encode s) := by
      rw [encode, List.flatMap_cons, hc]
      rfl
    rw [hencode, List.cons_append, List.append_assoc, decodeFrom_leads hleads, ih, hchar, List.length_cons,
      List.length_append, ← Nat.add_assoc position, ← Nat.add_assoc position, Nat.add_right_comm]
    rfl

theorem encode_of_decodeFrom {position : Nat} {bytes : List UInt8} (h : (decodeFrom position bytes).2 = none) :
    bytes = encode (decodeFrom position bytes).1 := by
  fun_induction decodeFrom position bytes with
  | case1 => rfl
  | case2 => cases h
  | case3 position b bytes ranges hb tail htail later fault hrest ih =>
    have hleads : Leads b tail := ⟨ranges, hb, fits_inRanges htail⟩
    have hlater := ih (by rw [hrest]; exact h)
    rw [hrest] at hlater
    rw [encode, List.flatMap_cons, hleads.encodeChar, ← encode, ← hlater, List.cons_append, inRanges_append_drop]
  | case4 => cases h

/-- What is decoded before a fault is the text of the bytes before its place, and none of it is needed to see the fault. -/
theorem exists_append_of_fault {position : Nat} {bytes : List UInt8} {fault : Fault}
    (h : (decodeFrom position bytes).2 = some fault) :
    ∃ rest, bytes = encode (decodeFrom position bytes).1 ++ rest ∧
      fault.position = position + (encode (decodeFrom position bytes).1).length ∧
        decodeFrom fault.position rest = ([], some fault) := by
  fun_induction decodeFrom position bytes with
  | case1 => cases h
  | case2 position b bytes hb =>
    cases h
    exact ⟨b :: bytes, rfl, rfl, by rw [decodeFrom, hb]⟩
  | case3 position b bytes ranges hb tail htail later fault hrest ih =>
    have hleads : Leads b tail := ⟨ranges, hb, fits_inRanges htail⟩
    obtain ⟨rest, hlater, hplace, hfault⟩ := ih (by rw [hrest]; exact h)
    simp only [hrest] at hlater hplace
    have hencode : encode (character b tail :: later) = b :: (tail ++ encode later) := by
      rw [encode, List.flatMap_cons, hleads.encodeChar]
      rfl
    refine ⟨rest, ?_, ?_, hfault⟩
    · rw [hencode, List.cons_append, List.append_assoc, ← hlater, inRanges_append_drop]
    · rw [hplace, hencode, List.length_cons, List.length_append]
      omega
  | case4 position b bytes ranges hb tail htail reason =>
    cases h
    refine ⟨b :: bytes, rfl, rfl, ?_⟩
    rw [decodeFrom, hb]
    exact if_neg htail

theorem isText_iff {bytes : List UInt8} (position : Nat) : IsText bytes ↔ (decodeFrom position bytes).2 = none := by
  constructor
  · rintro ⟨s, rfl⟩
    have h := decodeFrom_encode_append s position []
    rw [List.append_nil, decodeFrom_nil] at h
    rw [h]
  · exact fun h => ⟨_, encode_of_decodeFrom h⟩

/-- Whether bytes are a text does not depend on a text before them. -/
theorem isText_encode_append_iff (s : Text) (bytes : List UInt8) : IsText (encode s ++ bytes) ↔ IsText bytes := by
  rw [isText_iff 0, decodeFrom_encode_append, ← isText_iff]

/-- A fault that the end of the bytes has no part in stays, whatever comes after them. -/
theorem not_isText_append {position : Nat} {bytes : List UInt8} {fault : Fault}
    (h : (decodeFrom position bytes).2 = some fault) (hreason : fault.reason ≠ .ending) (more : List UInt8) :
    ¬IsText (bytes ++ more) := by
  obtain ⟨rest, hbytes, -, hfault⟩ := exists_append_of_fault h
  rw [hbytes, List.append_assoc, isText_encode_append_iff, isText_iff fault.position]
  cases rest with
  | nil =>
    rw [decodeFrom_nil] at hfault
    cases hfault
  | cons b rest =>
    rw [decodeFrom] at hfault
    rw [List.cons_append, decodeFrom]
    cases hb : followers? b with
    | none => exact fun hnone => by cases hnone
    | some ranges =>
      simp only [hb] at hfault
      split at hfault
      · cases hfault
      · next htail =>
        have hshort : (inRanges ranges rest).length < rest.length := by
          by_contra hlong
          rw [if_neg hlong] at hfault
          simp only [Prod.mk.injEq, Option.some.injEq, true_and] at hfault
          exact hreason (congrArg Fault.reason hfault).symm
        simp only [inRanges_append hshort, if_neg htail]
        exact fun hnone => by cases hnone

end SearchQuery.Utf8
