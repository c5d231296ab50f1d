import SearchQuery.Proofs.Phrase.Atom

/-! The legend of phrase tables: their placeholders, each with what it asks for. A placeholder that leads to the words of
    a phrase stands in it with that phrase (`lookup_legend`), and nothing that was typed stands in it. -/

namespace SearchQuery.Phrase

/-- What a phrase asks for. -/
def ask (negated : Bool) (words : Text) : ClosedCondition :=
  if negated then .negation (.phrase words) else .phrase words

/-- The placeholders of phrases in their order, numbered from one on, each with what it asks for. -/
def listed (negated : Bool) (entries : List Text) : List (Text × ClosedCondition) :=
  (entries.zipIdx 1).map fun entry => (placeholder (tagOf negated) entry.2, ask negated entry.1)

/-- The placeholders of the tables, each with what it asks for. -/
def Tables.legend (tables : Tables) : List (Text × ClosedCondition) :=
  listed true tables.negative ++ listed false tables.positive

/-! ### Placeholders are told apart -/

theorem tagOf_inj : ∀ {a b : Bool}, tagOf a = tagOf b → a = b := by decide

theorem placeholder_inj {a b : Bool} {m n : Nat} (h : placeholder (tagOf a) m = placeholder (tagOf b) n) :
    a = b ∧ m = n := by
  have hread := read_placeholder a m []
  rw [h, read_placeholder b n []] at hread
  simp only [Option.some.injEq, Prod.mk.injEq, and_true] at hread
  obtain ⟨htag, hdigits⟩ := hread
  refine ⟨tagOf_inj htag.symm, ?_⟩
  rw [← Numeral.value_ofNat m, ← hdigits, Numeral.value_ofNat]

/-! ### What the legend says -/

theorem lookup_zipIdx (negated : Bool) (entries : List Text) (n k : Nat) :
    ((entries.zipIdx n).map fun entry => (placeholder (tagOf negated) entry.2, ask negated entry.1)).lookup
      (placeholder (tagOf negated) (n + k)) = entries[k]?.map (ask negated) := by
  induction entries generalizing n k with
  | nil => rfl
  | cons words entries ih =>
    rw [List.zipIdx_cons, List.map_cons, List.lookup_cons]
    cases k with
    | zero => simp
    | succ k =>
      have hne : placeholder (tagOf negated) (n + (k + 1)) ≠ placeholder (tagOf negated) n := fun h => by
        have := (placeholder_inj h).2
        omega
      rw [beq_eq_false_iff_ne.mpr hne, show n + (k + 1) = n + 1 + k by omega, ih]
      rfl

theorem lookup_listed (negated : Bool) (entries : List Text) (k : Nat) :
    (listed negated entries).lookup (placeholder (tagOf negated) (k + 1)) = entries[k]?.map (ask negated) := by
  rw [Nat.add_comm]
  exact lookup_zipIdx negated entries 1 k

theorem lookup_listed_of_ne {negated : Bool} {t : Text} (ht : ∀ n, t ≠ placeholder (tagOf negated) n)
    (entries : List Text) : (listed negated entries).lookup t = none := by
  rw [List.lookup_eq_none_iff]
  intro line hline
  obtain ⟨entry, -, rfl⟩ := List.mem_map.mp hline
  exact bne_iff_ne.mpr (ht entry.2)

theorem getElem?_of_find {tables : Tables} {negated : Bool} {n : Nat} {words : Text}
    (h : tables.find (tagOf negated) (Numeral.ofNat n) = .ok words) :
    ∃ k, n = k + 1 ∧ (tables.entries (tagOf negated))[k]? = some words := by
  rw [Tables.find] at h
  split at h
  · cases h
  · rw [Numeral.value_ofNat] at h
    cases n with
    | zero => cases h
    | succ k =>
      refine ⟨k, rfl, ?_⟩
      simp only [Tables.lookup] at h
      split at h
      · next hk => rw [hk, Except.ok.inj h]
      · cases h

/-- The legend says of a placeholder what its phrase asks for. -/
theorem lookup_legend {tables : Tables} {negated : Bool} {n : Nat} {words : Text}
    (h : tables.find (tagOf negated) (Numeral.ofNat n) = .ok words) :
    tables.legend.lookup (placeholder (tagOf negated) n) = some (ask negated words) := by
  obtain ⟨k, rfl, hk⟩ := getElem?_of_find h
  rw [Tables.legend, List.lookup_append]
  cases negated with
  | true =>
    have hk : tables.negative[k]? = some words := hk
    rw [lookup_listed, hk]
    rfl
  | false =>
    have hk : tables.positive[k]? = some words := hk
    have hne : ∀ n, placeholder (tagOf false) (k + 1) ≠ placeholder (tagOf true) n := fun n h => by
      cases (placeholder_inj h).1
    rw [lookup_listed_of_ne hne, lookup_listed, hk]
    rfl

theorem lookup_legend_of_no_mark (tables : Tables) {t : Text} (ht : ∀ c ∈ t, isMark c = false) :
    tables.legend.lookup t = none := by
  have hne : ∀ (negated : Bool) n, t ≠ placeholder (tagOf negated) n := by
    rintro negated n rfl
    cases ht openMark (by simp [placeholder])
  rw [Tables.legend, List.lookup_append, lookup_listed_of_ne (hne true), lookup_listed_of_ne (hne false)]
  rfl

end SearchQuery.Phrase
