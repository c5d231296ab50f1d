import SearchQuery.Proofs.Layer.Nodes
import Mathlib.Data.List.Count

/-! The bracket table while brackets are collapsed. Every pass that changes the text takes an opening bracket from it, so
    the passes end (`exists_iterate_eq`), and all they do to the table is to add what stood inside pairs. In a text
    that starts without full-width brackets a pass moves placeholders but makes and loses none, except for one new
    placeholder for each new entry (`Marked.passed`). So at the end every new entry has one placeholder, in the text or in
    a later entry (`Marked.collapsed`). -/

namespace SearchQuery

namespace Piece

variable {β : Type}

theorem map_snd_runs_plain (c : Char) (ps : List (Piece β)) :
    (runs (.plain c :: ps)).1.map Prod.snd = (runs ps).1.map Prod.snd := by
  rw [runs]
  split
  · next heq => rw [heq]; rfl
  · next heq => rw [heq]

theorem map_snd_runs_found (value : β) (ps : List (Piece β)) :
    (runs (.found value :: ps)).1.map Prod.snd = value :: (runs ps).1.map Prod.snd := rfl

end Piece

namespace Bracket

open Shows (pass_append pass_of_none pass_of_some read_innermost_eq_some settled_of_pass_eq Settled)

variable {s t : Text} {table : List Text} {size : Nat}

/-! ### The passes -/

/-- A pass over a text, with the table that it adds to. -/
def step (state : Text × List Text) : Text × List Text :=
  ((pass state.2.length state.1).1, state.2 ++ (pass state.2.length state.1).2)

theorem count_pass_le (size : Nat) (s : Text) : (pass size s).1.count '(' ≤ s.count '(' := by
  rcases pass_eq_or_count_lt s size with h | h
  · exact Nat.le_of_eq (by rw [h])
  · exact Nat.le_of_lt h

/-- A pass that leaves the text as it is adds nothing to the table. -/
theorem snd_pass_of_eq (h : (pass size s).1 = s) : (pass size s).2 = [] := by
  fun_induction innermost.pieces s generalizing size with
  | case1 =>
    rw [pass, Pattern.pieces_nil]
    rfl
  | case2 c s body rest hread ih =>
    have hcount := count_eq_of_read hread
    have hmark := count_placeholder (size + 1)
    have hlater := count_pass_le (size + 1) rest
    have hblank := count_pass_le size rest
    have hsame := congrArg (List.count '(') h
    rw [pass_of_some hread] at hsame
    split at hsame
    · rw [List.count_append] at hsame
      omega
    · omega
  | case3 c s hread ih =>
    rw [pass_of_none hread] at h ⊢
    exact ih (List.cons.inj h).2

/-- The loop makes at most as many changing passes as the text has opening brackets, and the pass that it ends with
    changes nothing. -/
theorem exists_iterate_eq (table : List Text) (s : Text) :
    (∃ n ≤ s.count '(', collapse table s = step^[n] (s, table)) ∧ step (collapse table s) = collapse table s := by
  fun_induction collapse table s with
  | case1 table s next =>
    rename_i heq
    refine ⟨⟨0, Nat.zero_le _, rfl⟩, ?_⟩
    rw [step]
    exact Prod.ext heq (by rw [snd_pass_of_eq heq, List.append_nil])
  | case2 table s next hne ih =>
    obtain ⟨⟨n, hn, heq⟩, hlast⟩ := ih
    refine ⟨⟨n + 1, ?_, heq⟩, hlast⟩
    have hcount := (pass_eq_or_count_lt s table.length).resolve_left hne
    exact Nat.lt_of_le_of_lt hn hcount

/-- What a pass adds to the table are texts between brackets, none of them blank. -/
theorem forall_mem_pass : ∀ body ∈ (pass size s).2, body.notBlank = true ∧ '(' ∉ body ∧ ')' ∉ body := by
  fun_induction innermost.pieces s generalizing size with
  | case1 =>
    rw [pass, Pattern.pieces_nil]
    simp [Piece.number]
  | case2 c s body rest hread ih =>
    obtain ⟨-, -, hfree⟩ := read_innermost_eq_some hread
    rw [pass_of_some hread]
    split
    · next hbody =>
      refine List.forall_mem_cons.mpr ⟨⟨hbody, fun hmem => ?_, fun hmem => ?_⟩, ih⟩
      · exact absurd (hfree _ hmem) (by decide)
      · exact absurd (hfree _ hmem) (by decide)
    · exact ih
  | case3 c s hread ih =>
    rw [pass_of_none hread]
    exact ih

/-- The loop keeps the entries of the table and adds texts between brackets, none of them blank; it leaves no opening
    bracket before a closing one. -/
theorem exists_collapse_eq (table : List Text) (s : Text) :
    Settled (collapse table s).1 ∧
      ∃ new, (collapse table s).2 = table ++ new ∧
        ∀ body ∈ new, body.notBlank = true ∧ '(' ∉ body ∧ ')' ∉ body := by
  fun_induction collapse table s with
  | case1 table s next =>
    rename_i heq
    exact ⟨settled_of_pass_eq heq, [], (List.append_nil _).symm, by simp⟩
  | case2 table s next hne ih =>
    obtain ⟨hsettled, new, hnew, hentries⟩ := ih
    refine ⟨hsettled, next.2 ++ new, by rw [hnew, List.append_assoc], ?_⟩
    exact List.forall_mem_append.mpr ⟨forall_mem_pass, hentries⟩

/-! ### Placeholders -/

/-- The indexes of the placeholders in a text, from the left. -/
def references (s : Text) : List Nat :=
  ((Piece.runs (Layer.placeholderPattern.pieces s)).1.map Prod.snd).map Numeral.value

/-- Every full-width bracket of the text belongs to a placeholder. -/
inductive Marked : Text → Prop where
  | nil : Marked []
  | char {c : Char} {s : Text} (hw : Layer.isFullWidthBracket c = false) (h : Marked s) : Marked (c :: s)
  | mark {s : Text} (n : Nat) (h : Marked s) : Marked (placeholder n ++ s)

theorem references_nil : references [] = [] := by
  rw [references, Pattern.pieces_nil]
  rfl

theorem references_cons {c : Char} (hw : Layer.isFullWidthBracket c = false) (s : Text) :
    references (c :: s) = references s := by
  have hc : c ≠ '（' := by
    rintro rfl
    cases hw
  rw [references, Pattern.pieces_of_none (Layer.read_of_ne hc s), Piece.map_snd_runs_plain]
  rfl

theorem references_placeholder_append (n : Nat) (s : Text) : references (placeholder n ++ s) = n :: references s := by
  rw [references, Pattern.pieces_of_some (Layer.read_placeholder n s), Piece.map_snd_runs_found, List.map_cons,
    Numeral.value_ofNat]
  rfl

namespace Marked

theorem of_plain (h : ∀ c ∈ s, Layer.isFullWidthBracket c = false) : Marked s ∧ references s = [] := by
  induction s with
  | nil => exact ⟨.nil, references_nil⟩
  | cons c s ih =>
    obtain ⟨hc, hs⟩ := List.forall_mem_cons.mp h
    obtain ⟨hmarked, hnone⟩ := ih hs
    exact ⟨.char hc hmarked, (references_cons hc s).trans hnone⟩

theorem references_append (h : Marked s) (t : Text) : references (s ++ t) = references s ++ references t := by
  induction h with
  | nil => rw [references_nil]; rfl
  | char hw h ih => rw [List.cons_append, references_cons hw, references_cons hw, ih]
  | mark n h ih =>
    rw [List.append_assoc, references_placeholder_append, references_placeholder_append, ih]
    rfl

/-- A text is cut at a bracket that stands in no placeholder. -/
theorem of_append_cons {c : Char} (hc : c ∉ placeholderAlphabet) (h : Marked (s ++ c :: t)) : Marked s ∧ Marked t := by
  generalize hu : s ++ c :: t = u at h
  induction h generalizing s with
  | nil => simp at hu
  | @char d u hw h ih =>
    cases s with
    | nil =>
      cases hu
      exact ⟨.nil, h⟩
    | cons e s =>
      obtain ⟨rfl, hu'⟩ := List.cons.inj hu
      obtain ⟨hs, ht⟩ := ih hu'
      exact ⟨.char hw hs, ht⟩
  | @mark u n h ih =>
    obtain ⟨s, rfl, hu'⟩ := Text.exists_of_append_eq (fun hmem => hc (mem_placeholderAlphabet c hmem)) hu.symm
    obtain ⟨hs, ht⟩ := ih hu'.symm
    exact ⟨.mark n hs, ht⟩

end Marked

theorem references_of_blank (h : s.notBlank = false) : references s = [] := by
  refine (Marked.of_plain fun c hc => ?_).2
  have hblank := Text.notBlank_eq_false_iff.mp h c hc
  rw [Layer.isFullWidthBracket, Bool.or_eq_false_iff, decide_eq_false_iff_not, decide_eq_false_iff_not]
  constructor
  · rintro rfl
    exact absurd hblank (by decide)
  · rintro rfl
    exact absurd hblank (by decide)

/-! ### Placeholders in a pass -/

/-- What a pass makes of the placeholders of a text: they stand in the text that it leaves or in the new entries, among
    one for each new entry, and only old ones stand in an entry. -/
structure Passed (size : Nat) (s : Text) : Prop where
  marked : Marked (pass size s).1
  entries : ∀ body ∈ (pass size s).2, Marked body ∧ ∀ k ∈ references body, k ∈ references s
  perm : (references (pass size s).1 ++ (pass size s).2.flatMap references).Perm
    (references s ++ List.range' (size + 1) (pass size s).2.length)

namespace Passed

theorem nil : Passed size [] := by
  have hpass : pass size [] = ([], []) := by
    rw [pass, Pattern.pieces_nil]
    rfl
  refine ⟨?_, ?_, ?_⟩
  · rw [hpass]
    exact .nil
  · simp [hpass]
  · rw [hpass]
    simp

theorem char {c : Char} (hread : innermost.read (c :: s) = none) (hw : Layer.isFullWidthBracket c = false)
    (h : Passed size s) : Passed size (c :: s) := by
  refine ⟨?_, ?_, ?_⟩
  · rw [pass_of_none hread]
    exact .char hw h.marked
  · rw [pass_of_none hread, references_cons hw]
    exact h.entries
  · rw [pass_of_none hread, references_cons hw, references_cons hw]
    exact h.perm

theorem mark (n : Nat) (h : Passed size s) : Passed size (placeholder n ++ s) := by
  have hopen : '(' ∉ placeholder n := fun hmem => absurd (mem_placeholderAlphabet _ hmem) (by decide)
  refine ⟨?_, ?_, ?_⟩
  · rw [pass_append hopen]
    exact .mark n h.marked
  · rw [pass_append hopen, references_placeholder_append]
    exact fun body hbody => ⟨(h.entries body hbody).1, fun k hk => List.mem_cons_of_mem n ((h.entries body hbody).2 k hk)⟩
  · rw [pass_append hopen, references_placeholder_append, references_placeholder_append]
    exact h.perm.cons n

variable {body rest : Text}

/-- A pair around blanks has no placeholder in it. -/
theorem blank (hread : innermost.read s = some (body, rest)) (hbody : body.notBlank = false)
    (hrefs : references s = references body ++ references rest) (h : Passed size rest) : Passed size s := by
  rw [references_of_blank hbody, List.nil_append] at hrefs
  have hpass : pass size s = pass size rest := by rw [pass_of_some hread, if_neg (by simp [hbody])]
  refine ⟨?_, ?_, ?_⟩
  · rw [hpass]
    exact h.marked
  · rw [hpass, hrefs]
    exact h.entries
  · rw [hpass, hrefs]
    exact h.perm

/-- The placeholders inside any other pair go into its entry, and the pair becomes a new one. -/
theorem closed (hread : innermost.read s = some (body, rest)) (hbody : body.notBlank = true)
    (hrefs : references s = references body ++ references rest) (hmarked : Marked body) (h : Passed (size + 1) rest) :
    Passed size s := by
  have hpass : pass size s = (placeholder (size + 1) ++ (pass (size + 1) rest).1, body :: (pass (size + 1) rest).2) := by
    rw [pass_of_some hread, if_pos hbody]
  refine ⟨?_, ?_, ?_⟩
  · rw [hpass]
    exact .mark _ h.marked
  · rw [hpass, hrefs]
    refine List.forall_mem_cons.mpr ⟨⟨hmarked, fun k hk => List.mem_append_left _ hk⟩, fun b hb => ?_⟩
    exact ⟨(h.entries b hb).1, fun k hk => List.mem_append_right _ ((h.entries b hb).2 k hk)⟩
  · rw [hpass, hrefs, references_placeholder_append]
    refine List.perm_iff_count.mpr fun k => ?_
    have hcount := h.perm.count_eq k
    simp only [List.flatMap_cons, List.length_cons, List.range'_succ, List.count_append, List.count_cons] at hcount ⊢
    omega

end Passed

theorem Marked.passed (h : Marked s) (size : Nat) : Passed size s := by
  -- By length: an innermost pair is passed over as a whole, and the rest starts behind its closing bracket.
  induction hlen : s.length using Nat.strongRecOn generalizing s size with
  | ind len ih =>
    subst hlen
    cases h with
    | nil => exact .nil
    | mark n h => exact .mark n (ih _ (by simp [placeholder]; omega) h size rfl)
    | @char c s hw h =>
      rcases hread : innermost.read (c :: s) with _ | ⟨body, rest⟩
      · exact .char hread hw (ih s.length (by simp) h size rfl)
      · obtain ⟨rfl, rfl, -⟩ := read_innermost_eq_some hread
        obtain ⟨hbody, hrest⟩ := of_append_cons (by decide) h
        have hshorter : rest.length < ('(' :: (body ++ ')' :: rest)).length := innermost.shorter hread
        have hrefs : references ('(' :: (body ++ ')' :: rest)) = references body ++ references rest := by
          rw [references_cons (by decide), hbody.references_append, references_cons (by decide)]
        cases hblank : body.notBlank with
        | false => exact .blank hread hblank hrefs (ih _ hshorter hrest size rfl)
        | true => exact .closed hread hblank hrefs hbody (ih _ hshorter hrest (size + 1) rfl)

/-- Where all placeholders lead to entries of the table, the loop leaves each of them, and one for each new entry, in
    the text or in a new entry, which has none of its own or of a later one. -/
theorem Marked.collapsed (h : Marked s) (hrefs : ∀ k ∈ references s, k ≤ table.length) :
    ∃ new, (collapse table s).2 = table ++ new ∧ Marked (collapse table s).1 ∧
      (references (collapse table s).1 ++ new.flatMap references).Perm
        (references s ++ List.range' (table.length + 1) new.length) ∧
      ∀ i body, new[i]? = some body → Marked body ∧ ∀ k ∈ references body, k ≤ table.length + i := by
  fun_induction collapse table s with
  | case1 table s next =>
    exact ⟨[], (List.append_nil _).symm, h, by simp, by simp⟩
  | case2 table s next hne ih =>
    obtain ⟨hmarked, hentries, hperm⟩ := h.passed table.length
    rw [show pass table.length s = next from rfl] at hmarked hentries hperm
    have hlength : (table ++ next.2).length = table.length + next.2.length := List.length_append
    have hnext : ∀ k ∈ references next.1, k ≤ (table ++ next.2).length := fun k hk => by
      rw [hlength]
      rcases List.mem_append.mp (hperm.subset (List.mem_append_left _ hk)) with hk | hk
      · exact Nat.le_trans (hrefs k hk) (Nat.le_add_right _ _)
      · have hrange := List.mem_range'_1.mp hk
        omega
    obtain ⟨new, hnew, hmarked, hlater, hentries'⟩ := ih hmarked hnext
    refine ⟨next.2 ++ new, by rw [hnew, List.append_assoc], hmarked, ?_, fun i body hbody => ?_⟩
    · have hrange : List.range' (table.length + 1) (next.2 ++ new).length =
          List.range' (table.length + 1) next.2.length ++ List.range' ((table ++ next.2).length + 1) new.length := by
        rw [hlength, List.length_append, ← List.range'_append_1, Nat.add_right_comm]
      refine List.perm_iff_count.mpr fun k => ?_
      have hcount := hperm.count_eq k
      have hcount' := hlater.count_eq k
      simp only [hrange, List.flatMap_append, List.count_append] at hcount hcount' ⊢
      omega
    · rcases Nat.lt_or_ge i next.2.length with hi | hi
      · rw [List.getElem?_append_left hi] at hbody
        obtain ⟨hbodyMarked, hold⟩ := hentries body (List.mem_of_getElem? hbody)
        exact ⟨hbodyMarked, fun k hk => Nat.le_trans (hrefs k (hold k hk)) (Nat.le_add_right _ _)⟩
      · rw [List.getElem?_append_right hi] at hbody
        obtain ⟨hbodyMarked, hsmaller⟩ := hentries' _ body hbody
        refine ⟨hbodyMarked, fun k hk => ?_⟩
        have hk := hsmaller k hk
        omega

end Bracket
end SearchQuery
