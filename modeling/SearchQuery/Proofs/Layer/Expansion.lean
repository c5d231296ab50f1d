import SearchQuery.Proofs.Layer.Pairing

/-! Collapsed text expanded again. In place of every bracket placeholder stands its entry in brackets, expanded in
    the same way. The text that shows a nest expands to the nest typed out (`expand_eq`), and what collapsing
    shows is the text with its brackets paired and the pairs around blanks left out: nothing else of it is lost,
    whichever pass took a pair and wherever its number came to stand (`expand_collapse`). -/

namespace SearchQuery

/-! ### Nests typed out -/

namespace Nest

/-- The level with its brackets typed. -/
def text : Nest → Text
  | nil => []
  | atom a later => a.typed ++ text later
  | pair inside later => '(' :: text inside ++ ')' :: text later

theorem text_append (ms ns : Nest) : (ms ++ ns).text = ms.text ++ ns.text := by
  induction ms with
  | nil => rfl
  | atom a later ih => rw [atom_append, text, text, ih, List.append_assoc]
  | pair inside later _ ih => simp [text, ih]

theorem text_spliced_append (opens : List Nest) (current ns : Nest) :
    (spliced opens (current ++ ns)).text = (spliced opens current).text ++ ns.text := by
  rw [spliced_append, text_append]

theorem text_pairFrom (opens : List Nest) (current : Nest) (s : Text) :
    (pairFrom opens current s).text = (spliced opens current).text ++ s := by
  -- What has been read is typed as it would be if all the brackets that are open stayed so.
  induction s generalizing opens current with
  | nil => exact (List.append_nil _).symm
  | cons c s ih =>
    by_cases hopen : c = '('
    · have hspliced : spliced (current :: opens) nil = spliced opens (current ++ atom (.char '(') nil) := rfl
      rw [hopen, pairFrom_open, ih, hspliced, text_spliced_append]
      simp [text, Atom.typed]
    · by_cases hclose : c = ')'
      · rw [hclose]
        cases opens with
        | nil =>
          rw [pairFrom_stray, ih, text_spliced_append]
          simp [text, Atom.typed]
        | cons outer opens =>
          rw [pairFrom_close, ih, text_spliced_append, spliced, text_spliced_append]
          simp [text, Atom.typed]
      · rw [pairFrom_char hopen hclose, ih, text_spliced_append]
        simp [text, Atom.typed]

/-- Pairing brackets leaves the text as it is. -/
theorem text_paired (s : Text) : (paired s).text = s := text_pairFrom [] nil s

end Nest

namespace Layer

open SearchQuery.Bracket (Shows)

/-! ### Expanding placeholders -/

/-- The pieces of a text put together, with the entries behind its placeholders in brackets. -/
def expandPieces (brackets : List Text) (expandBody : Text → Except LookupFault Text) :
    List (Piece Text) → Except LookupFault Text
  | [] => .ok []
  | .plain c :: ps => do
    let later ← expandPieces brackets expandBody ps
    return c :: later
  | .found digits :: ps => do
    let body ← find brackets digits
    let inside ← expandBody body
    let later ← expandPieces brackets expandBody ps
    return '(' :: inside ++ ')' :: later

/-- The text with the entries behind its placeholders in brackets, and so for the entries, at most `depth` levels
    of them. -/
def expand (brackets : List Text) : (depth : Nat) → Text → Except LookupFault Text
  | 0, _ => .error .nesting
  | depth + 1, s => expandPieces brackets (expand brackets depth) (placeholderPattern.pieces s)

theorem shows_map_char {phrases : Phrase.Tables} {brackets : List Text} {k : Nat} {s : Text}
    (h : ∀ c ∈ s, isFullWidthBracket c = false) : Shows phrases brackets k s (.ofAtoms (s.map .char)) := by
  induction s with
  | nil => exact .nil
  | cons c s ih => exact .char (h c List.mem_cons_self) (ih fun d hd => h d (List.mem_cons_of_mem c hd))

/-- A text of characters that shows a nest expands to it. An entry shows its nest by the entries before it, so no
    more levels are needed than there are entries. -/
theorem expand_eq {phrases : Phrase.Tables} {brackets : List Text} {k : Nat} {s : Text} {ns : Nest}
    (h : Shows phrases brackets k s ns) (hchar : ns.Each (Nest.IsChar fun _ => True)) {depth : Nat} (hdepth : k ≤ depth) :
    expand brackets (depth + 1) s = .ok ns.text := by
  rw [expand]
  induction h generalizing depth with
  | nil =>
    rw [Pattern.pieces_nil]
    rfl
  | @char k c s ns hw h ih =>
    have hc : c ≠ '（' := by
      rintro rfl
      cases hw
    rw [Pattern.pieces_of_none (read_of_ne hc s), expandPieces, ih hchar.2 hdepth]
    rfl
  | phrase hw h ih =>
    obtain ⟨⟨c, hc, -⟩, -⟩ := hchar
    cases hc
  | @pair k n body s inside later hn hbody hinside h ihinside ih =>
    obtain ⟨d, rfl⟩ : ∃ d, depth = d + 1 := Nat.exists_eq_succ_of_ne_zero (by omega)
    have hentry : expand brackets (d + 1) body = .ok inside.text := ihinside hchar.1 (show n ≤ d by omega)
    rw [Pattern.pieces_of_some (read_placeholder (n + 1) s), expandPieces, find_of_getElem? hbody, ih hchar.2 hdepth]
    show (do let inside ← expand brackets (d + 1) body; _) = _
    rw [hentry]
    rfl

/-- Expanding what a text was collapsed to gives the text without the pairs around nothing but blanks, once such pairs
    inside them are left out. -/
theorem expand_collapse {s : Text} (h : ∀ c ∈ s, c ≠ '（' ∧ c ≠ '）') :
    (Nest.paired s).text = s ∧
      ∀ depth, (Bracket.collapse [] s).2.length ≤ depth →
        expand (Bracket.collapse [] s).2 (depth + 1) (Bracket.collapse [] s).1 = .ok (Nest.paired s).prune.text := by
  have hwidth : ∀ c ∈ s, isFullWidthBracket c = false := fun c hc => by simp [isFullWidthBracket, h c hc]
  have hplain : Shows {} [] 0 s (.ofAtoms (s.map .char)) := shows_map_char hwidth
  have hshows := hplain.collapse []
  have hchar : (Nest.paired s).prune.Each (Nest.IsChar fun _ => True) :=
    each_pairing (p := fun _ => True) trivial {} fun _ _ => trivial
  rw [← Nest.prune_paired] at hshows
  exact ⟨Nest.text_paired s, fun depth hdepth => expand_eq hshows hchar hdepth⟩

/-- A pair that is blank once the pair inside it is left out, a pair inside another one, a mark of placeholders, and
    brackets without a partner. -/
theorem expand_collapse_blank :
    expand (Bracket.collapse [] "a((b)( ( )))\ue000c) (d".toList).2
        ((Bracket.collapse [] "a((b)( ( )))\ue000c) (d".toList).2.length + 1)
        (Bracket.collapse [] "a((b)( ( )))\ue000c) (d".toList).1 =
      .ok "a((b))\ue000c) (d".toList :=
  ((expand_collapse (List.all_iff_forall_prop.mp (by decide))).2 _ (Nat.le_refl _)).trans rfl

end Layer
end SearchQuery
