import SearchQuery.Condition.Json
import SearchQuery.Proofs.Condition.Canonical

/-! What a line of JSON tells of a condition. Every JSON value shows where it ends: a string at the first quote that is no
    part of an escape, an array or an object at its own bracket. So a line that starts with a value starts with no other
    one (`Json.write_cancel`), and two conditions with the same line are the same. Line breaks in a value are escaped. -/

namespace SearchQuery

/-! ### Strings -/

namespace Json

/-- The character at the front of the inside of a string, and what follows it. -/
def unescape : Text → Option (Char × Text)
  | '\\' :: 'u' :: a :: b :: c :: d :: s =>
    some (Char.ofNat ([a, b, c, d].foldl (fun n digit => 16 * n + (hexValue? digit).getD 0) 0), s)
  | '\\' :: 'n' :: s => some ('\n', s)
  | '\\' :: 'r' :: s => some ('\r', s)
  | '\\' :: 't' :: s => some ('\t', s)
  | '\\' :: 'f' :: s => some ('\x0c', s)
  | '\\' :: 'b' :: s => some ('\x08', s)
  | '\\' :: c :: s => some (c, s)
  | c :: s => some (c, s)
  | [] => none

theorem hexDigits_four (n : Nat) :
    hexDigits 4 n =
      [hexDigit (n / 16 / 16 / 16 % 16), hexDigit (n / 16 / 16 % 16), hexDigit (n / 16 % 16), hexDigit (n % 16)] :=
  rfl

theorem value_hexDigits_four :
    ∀ n < 0x20, (hexDigits 4 n).foldl (fun n digit => 16 * n + (hexValue? digit).getD 0) 0 = n := by
  decide

theorem unescape_escape (c : Char) (s : Text) : unescape (escape c ++ s) = some (c, s) := by
  fun_cases escape c with
  | case8 _ _ _ _ _ _ _ hcontrol =>
    have hvalue := value_hexDigits_four c.toNat hcontrol
    rw [hexDigits_four] at hvalue ⊢
    rw [List.cons_append, List.cons_append, List.cons_append, List.cons_append, List.cons_append, List.cons_append,
      List.nil_append, unescape, hvalue, Char.ofNat_toNat]
  | case9 =>
    rw [List.singleton_append]
    unfold unescape
    split <;> simp_all
  | _ => simp_all [unescape]

theorem escape_cancel {c d : Char} {s t : Text} (h : escape c ++ s = escape d ++ t) : c = d ∧ s = t := by
  have hread := congrArg unescape h
  rw [unescape_escape, unescape_escape] at hread
  simpa using hread

/-- No character inside a string looks like its end. -/
theorem exists_escape_eq_cons (c : Char) : ∃ d s, escape c = d :: s ∧ d ≠ '"' := by
  fun_cases escape c with
  | case9 hquote => exact ⟨c, [], rfl, hquote⟩
  | _ => exact ⟨'\\', _, rfl, by decide⟩

theorem escaped_cancel {s t r r' : Text} (h : s.flatMap escape ++ '"' :: r = t.flatMap escape ++ '"' :: r') :
    s = t ∧ r = r' := by
  have hends : ∀ (c : Char) (s u v : Text), '"' :: u ≠ (c :: s).flatMap escape ++ v := fun c s u v h => by
    obtain ⟨d, ds, hc, hd⟩ := exists_escape_eq_cons c
    rw [List.flatMap_cons, hc, List.cons_append, List.cons_append, List.cons.injEq] at h
    exact hd h.1.symm
  induction s generalizing t with
  | nil =>
    cases t with
    | nil => exact ⟨rfl, (List.cons.inj h).2⟩
    | cons c t => exact absurd h (hends c t r _)
  | cons c s ih =>
    cases t with
    | nil => exact absurd h.symm (hends c s r' _)
    | cons d t =>
      rw [List.flatMap_cons, List.flatMap_cons, List.append_assoc, List.append_assoc] at h
      obtain ⟨rfl, hrest⟩ := escape_cancel h
      obtain ⟨rfl, rfl⟩ := ih hrest
      exact ⟨rfl, rfl⟩

theorem writeString_cancel {s t r r' : Text} (h : writeString s ++ r = writeString t ++ r') : s = t ∧ r = r' := by
  rw [writeString, writeString, List.append_assoc, List.append_assoc] at h
  exact escaped_cancel (List.cons.inj h).2

/-! ### Values -/

/-- An item of an array that is not the first. -/
def laterItem (item : Json) : Text :=
  ',' :: ' ' :: write item

theorem writeItems_cons (item : Json) (items : List Json) :
    writeItems (item :: items) = write item ++ items.flatMap laterItem := by
  induction items generalizing item with
  | nil => rw [writeItems, List.flatMap_nil, List.append_nil]
  | cons next items ih =>
    rw [writeItems, ih, List.flatMap_cons]
    · rfl
    · exact List.cons_ne_nil next items

/-- No value looks like the end of an array. -/
theorem write_ne_bracket (j : Json) (r s : Text) : write j ++ r ≠ ']' :: s := by
  cases j <;> simp [write, writeString]

mutual

theorem write_cancel : ∀ (j j' : Json) (r r' : Text), write j ++ r = write j' ++ r' → j = j' ∧ r = r'
  | .string s, j', r, r', h => by
    cases j' with
    | string t =>
      obtain ⟨rfl, rfl⟩ := writeString_cancel h
      exact ⟨rfl, rfl⟩
    | _ => simp [write, writeString] at h
  | .array items, j', r, r', h => by
    cases j' with
    | array items' =>
      simp only [write, List.cons_append, List.append_assoc, List.cons.injEq, true_and, List.nil_append] at h
      obtain ⟨rfl, rfl⟩ := writeItems_cancel items items' r r' h
      exact ⟨rfl, rfl⟩
    | _ => simp [write, writeString] at h
  | .tagged tag content, j', r, r', h => by
    cases j' with
    | tagged tag' content' =>
      simp only [write, List.cons_append, List.append_assoc, List.cons.injEq, true_and, List.nil_append] at h
      obtain ⟨rfl, hcontent⟩ := writeString_cancel h
      simp only [List.cons.injEq, true_and] at hcontent
      obtain ⟨rfl, hrest⟩ := write_cancel content content' _ _ hcontent
      exact ⟨rfl, (List.cons.inj hrest).2⟩
    | _ => simp [write, writeString] at h

theorem writeItems_cancel : ∀ (items items' : List Json) (r r' : Text),
    writeItems items ++ ']' :: r = writeItems items' ++ ']' :: r' → items = items' ∧ r = r'
  | [], items', r, r', h => by
    cases items' with
    | nil => exact ⟨rfl, (List.cons.inj h).2⟩
    | cons item items' =>
      rw [writeItems_cons, List.append_assoc] at h
      exact absurd h.symm (write_ne_bracket item _ r)
  | item :: items, items', r, r', h => by
    cases items' with
    | nil =>
      rw [writeItems_cons, List.append_assoc] at h
      exact absurd h (write_ne_bracket item _ r')
    | cons item' items' =>
      rw [writeItems_cons, writeItems_cons, List.append_assoc, List.append_assoc] at h
      obtain ⟨rfl, hlater⟩ := write_cancel item item' _ _ h
      obtain ⟨rfl, rfl⟩ := laterItems_cancel items items' r r' hlater
      exact ⟨rfl, rfl⟩

theorem laterItems_cancel : ∀ (items items' : List Json) (r r' : Text),
    items.flatMap laterItem ++ ']' :: r = items'.flatMap laterItem ++ ']' :: r' → items = items' ∧ r = r'
  | [], items', r, r', h => by
    cases items' with
    | nil => exact ⟨rfl, (List.cons.inj h).2⟩
    | cons item items' => simp [laterItem] at h
  | item :: items, items', r, r', h => by
    cases items' with
    | nil => simp [laterItem] at h
    | cons item' items' =>
      simp only [List.flatMap_cons, laterItem, List.cons_append, List.append_assoc, List.cons.injEq, true_and] at h
      obtain ⟨rfl, hlater⟩ := write_cancel item item' _ _ h
      obtain ⟨rfl, rfl⟩ := laterItems_cancel items items' r r' hlater
      exact ⟨rfl, rfl⟩

end

/-! ### Line breaks -/

theorem newline_not_mem_escape (c : Char) : '\n' ∉ escape c := by
  have hdigit : ∀ n < 16, hexDigit n ≠ '\n' := by decide
  fun_cases escape c with
  | case8 =>
    have hrest : ∀ n : Nat, '\n' ≠ hexDigit (n % 16) := fun n h => hdigit _ (Nat.mod_lt n (by decide)) h.symm
    simp [hexDigits_four, hrest]
  | case9 => simp_all [eq_comm]
  | _ => decide

theorem newline_not_mem_writeString (s : Text) : '\n' ∉ writeString s := by
  simp [writeString, newline_not_mem_escape]

mutual

theorem newline_not_mem_write : ∀ j : Json, '\n' ∉ write j
  | .string s => newline_not_mem_writeString s
  | .array items => by simp [write, newline_not_mem_writeItems items]
  | .tagged tag content => by
    simp [write, newline_not_mem_writeString tag, newline_not_mem_write content]

theorem newline_not_mem_writeItems : ∀ items : List Json, '\n' ∉ writeItems items
  | [] => by simp [writeItems]
  | [item] => newline_not_mem_write item
  | item :: next :: items => by
    simp [writeItems, newline_not_mem_write item, newline_not_mem_writeItems (next :: items)]

end

end Json

/-! ### Conditions -/

theorem Connective.name_injective : Function.Injective Connective.name := by
  intro op op'
  cases op <;> cases op' <;> decide

namespace Condition

/-- A closed condition as a JSON value. -/
def json (c : ClosedCondition) : Json :=
  certain (json? c)

@[simp] theorem json_blank : json .blank = .string ['N', 'o', 'n', 'e'] := by
  rw [json, json?]
  rfl

@[simp] theorem json_keyword (term : Text) :
    json (.keyword term) = .tagged ['K', 'e', 'y', 'w', 'o', 'r', 'd'] (.string term) := by
  rw [json, json?]
  rfl

@[simp] theorem json_phrase (words : Text) :
    json (.phrase words) =
      .tagged ['P', 'h', 'r', 'a', 's', 'e', 'K', 'e', 'y', 'w', 'o', 'r', 'd'] (.string words) := by
  rw [json, json?]
  rfl

@[simp] theorem json_negation (c : ClosedCondition) : json (.negation c) = .tagged ['N', 'o', 't'] (json c) := by
  rw [json, json?, ok_certain (json? c)]
  rfl

theorem jsonAll?_eq (cs : List ClosedCondition) : jsonAll? cs = .ok (cs.map json) := by
  induction cs with
  | nil => rw [jsonAll?]; rfl
  | cons c cs ih =>
    rw [jsonAll?, ok_certain (json? c), ih]
    rfl

@[simp] theorem json_compound (op : Connective) (parts : List ClosedCondition) :
    json (.compound op parts) =
      .tagged ['O', 'p', 'e', 'r', 'a', 't', 'o', 'r'] (.array [.string op.name, .array (parts.map json)]) := by
  rw [json, json?, jsonAll?_eq]
  rfl

theorem eq_of_map_eq_map {α β : Type} {f : α → β} {xs ys : List α} (h : ∀ x ∈ xs, ∀ y, f x = f y → x = y)
    (hmap : xs.map f = ys.map f) : xs = ys := by
  induction xs generalizing ys with
  | nil => exact (List.map_eq_nil_iff.mp hmap.symm).symm
  | cons x xs ih =>
    obtain ⟨y, ys', rfl, hy, hys⟩ := List.map_eq_cons_iff.mp hmap.symm
    rw [h x List.mem_cons_self y hy.symm, ih (fun x' hx' => h x' (List.mem_cons_of_mem x hx')) hys.symm]

theorem json_injective (c : ClosedCondition) : ∀ d : ClosedCondition, json c = json d → c = d := by
  induction c using byParts with
  | blank =>
    intro d h
    cases d with
    | blank => rfl
    | foreign value => exact value.elim
    | _ => simp at h
  | keyword term =>
    intro d h
    cases d with
    | keyword term' => simpa using h
    | foreign value => exact value.elim
    | _ => simp at h
  | phrase words =>
    intro d h
    cases d with
    | phrase words' => simpa using h
    | foreign value => exact value.elim
    | _ => simp at h
  | negation c ih =>
    intro d h
    cases d with
    | negation d =>
      rw [json_negation, json_negation, Json.tagged.injEq] at h
      rw [ih d h.2]
    | foreign value => exact value.elim
    | _ => simp at h
  | compound op parts ih =>
    intro d h
    cases d with
    | compound op' parts' =>
      simp only [json_compound, Json.tagged.injEq, Json.array.injEq, List.cons.injEq, Json.string.injEq, true_and,
        and_true] at h
      obtain ⟨hop, hparts⟩ := h
      rw [Connective.name_injective hop, eq_of_map_eq_map ih hparts]
    | foreign value => exact value.elim
    | _ => simp at h

/-- Conditions with the same line of JSON are the same, and the line is one line. -/
theorem jsonLine_injective_and_unbroken :
    Function.Injective jsonLine ∧ ∀ c : ClosedCondition, '\n' ∉ jsonLine c := by
  refine ⟨fun c d h => ?_, fun c => Json.newline_not_mem_write (json c)⟩
  have hline : (json c).write ++ [] = (json d).write ++ [] := congrArg (· ++ []) h
  exact json_injective c d (Json.write_cancel _ _ [] [] hline).1

end Condition
end SearchQuery
