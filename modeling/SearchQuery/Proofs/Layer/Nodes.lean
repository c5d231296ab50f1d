import SearchQuery.Proofs.Bracket.Shows
import SearchQuery.Proofs.Phrase.Typed
import Mathlib.Data.List.TakeWhile

/-! The nodes of a nest. A pair becomes a group, negated by a dash right before it, and the atoms between pairs
    become text, with a space on either side of every phrase. The layout of a collapsed text finds the same
    nodes behind its placeholders (`Shows.layout_eq`), so the layers of a query are those of the nest that its
    atoms are read as (`ofQuery_eq`), and the layout cannot fail. -/

namespace SearchQuery

/-! ### Nodes -/

namespace Atom

/-- The atoms before a group, and whether a dash at their end negates the group. -/
def splitDash (run : List Atom) : List Atom × Bool :=
  if run.getLast? = some (.char '-') then (run.dropLast, true) else (run, false)

/-- The text node of atoms, if they are not blank. -/
def segment (run : List Atom) : List ClosedNode :=
  if (text (pad run)).notBlank then [.text (text (pad run))] else []

theorem forall_mem_splitDash {p : Atom → Prop} {run : List Atom} (h : ∀ a ∈ run, p a) :
    ∀ a ∈ (splitDash run).1, p a := by
  intro a ha
  rw [splitDash] at ha
  split at ha
  · exact h a (List.dropLast_subset run ha)
  · exact h a ha

end Atom

/-- The nodes of a nest that stands after the atoms of a run. -/
def Nest.nodesFrom (run : List Atom) : Nest → List ClosedNode
  | nil => Atom.segment run
  | atom a later => nodesFrom (run ++ [a]) later
  | pair inside later =>
    Atom.segment (Atom.splitDash run).1 ++ .group (Atom.splitDash run).2 (nodesFrom [] inside) :: nodesFrom [] later

/-- The nodes of a nest. -/
def Nest.nodes (ns : Nest) : List ClosedNode := ns.nodesFrom []

namespace Layer

open Phrase (Reads tagOf)
open SearchQuery.Bracket (Shows)

/-! ### Laying out a text -/

variable {phrases : Phrase.Tables} {brackets : List Text}

/-- The draft of the text of atoms, if they are not blank. -/
def draftOf (run : List Atom) : List Draft :=
  if (Atom.text (Atom.pad run)).notBlank then [.text (Atom.text (Atom.pad run))] else []

theorem segment_eq {t : Text} {run : List Atom} (h : Reads phrases t run) : segment phrases t = .ok (draftOf run) := by
  rw [segment, h.restore_eq]
  rfl

theorem fill_draftOf_append {layBody : Text → Except LookupFault (List ClosedNode)} {ds : List Draft}
    {nodes : List ClosedNode} (h : fill layBody ds = .ok nodes) (run : List Atom) :
    fill layBody (draftOf run ++ ds) = .ok (Atom.segment run ++ nodes) := by
  rw [draftOf, Atom.segment]
  split
  · rw [List.singleton_append, fill, h]
    rfl
  · exact h

theorem splitDash_eq {t : Text} {run : List Atom} (h : Reads phrases t run) :
    ∃ t', splitDash t = (t', (Atom.splitDash run).2) ∧ Reads phrases t' (Atom.splitDash run).1 := by
  rcases List.eq_nil_or_concat run with rfl | ⟨run, a, rfl⟩
  · cases h
    exact ⟨[], rfl, .nil⟩
  · rw [List.concat_eq_append] at h ⊢
    obtain ⟨x, y, rfl, hx, hy⟩ := h.of_append
    cases a with
    | char c =>
      cases hy with
      | char hc hy =>
        cases hy
        rw [splitDash, Atom.splitDash, List.getLast?_concat, List.getLast?_concat, List.dropLast_concat,
          List.dropLast_concat]
        by_cases hdash : c = '-'
        · subst hdash
          exact ⟨x, rfl, hx⟩
        · rw [if_neg (by simpa using hdash), if_neg (by simpa using hdash)]
          exact ⟨x ++ [c], rfl, h⟩
    | phrase negated words =>
      cases hy with
      | @phrase _ n _ _ _ hw hy =>
        cases hy
        have hlast : (x ++ (Phrase.placeholder (tagOf negated) n ++ [])).getLast? = some Phrase.closeMark := by
          rw [List.append_nil, Phrase.placeholder, ← List.append_assoc, List.getLast?_concat]
        rw [splitDash, Atom.splitDash, hlast, List.getLast?_concat, if_neg (by decide), if_neg (by simp)]
        exact ⟨_, rfl, h⟩

theorem afterLast_eq {t : Text} (ht : ∀ c ∈ t, isFullWidthBracket c = false) : t.afterLast isFullWidthBracket = t := by
  rw [Text.afterLast, List.takeWhile_eq_self_iff.mpr, List.reverse_reverse]
  intro c hc
  simpa using ht c (List.mem_reverse.mp hc)

theorem read_of_ne {c : Char} (hc : c ≠ '（') (s : Text) : placeholderPattern.read (c :: s) = none := by
  simp only [placeholderPattern]
  split
  · next heq => exact absurd (List.cons.inj heq).1 hc
  · rfl

theorem pieces_append {t : Text} (ht : ∀ c ∈ t, isFullWidthBracket c = false) (s : Text) :
    placeholderPattern.pieces (t ++ s) = t.map .plain ++ placeholderPattern.pieces s :=
  Pattern.pieces_append (fun c hc => read_of_ne fun h => by
    have := ht c hc
    rw [h] at this
    cases this) s

theorem read_placeholder (n : Nat) (s : Text) :
    placeholderPattern.read (Bracket.placeholder n ++ s) = some (Numeral.ofNat n, s) := by
  have hclose : isDecimal '）' = false := by decide
  have hread := Text.upTo?_append (fun c (hc : c ∈ Numeral.ofNat n) => Numeral.isDecimal_of_mem hc) hclose s
  rw [Bracket.placeholder, List.append_assoc, List.singleton_append, List.cons_append]
  simp only [placeholderPattern, hread, Numeral.isEmpty_ofNat, Bool.false_eq_true, ite_false]

theorem find_of_getElem? {n : Nat} {body : Text} (h : brackets[n]? = some body) :
    find brackets (Numeral.ofNat (n + 1)) = .ok body := by
  have hn := (List.getElem?_eq_some_iff.mp h).1
  have hlimit := Numeral.length_ofNat_le_lengthLimit (Nat.succ_le_of_lt hn)
  rw [find, if_neg (Nat.not_lt.mpr hlimit), Numeral.value_ofNat, entry, h]

theorem fullWidth_of_mem_placeholder {negated : Bool} {n : Nat} :
    ∀ c ∈ Phrase.placeholder (tagOf negated) n, isFullWidthBracket c = false :=
  Phrase.forall_mem_placeholder (by decide)

theorem layout_of_drafts {depth : Nat} {s : Text} {level : List Draft}
    (h : drafts brackets phrases (Piece.runs (placeholderPattern.pieces s)).2
      (Piece.runs (placeholderPattern.pieces s)).1 = .ok level) :
    layout brackets phrases (depth + 1) s = fill (layout brackets phrases depth) level := by
  rw [layout]
  show (do let level ← drafts _ _ (Piece.runs _).2 (Piece.runs _).1; fill _ level) = _
  rw [h]
  rfl

/-- A level is drafted from the atoms `run` before a text and the nest that the text shows. -/
theorem drafts_eq {k : Nat} {s : Text} {ns : Nest} (h : Shows phrases brackets k s ns) (hns : ns.Each Atom.Unmarked)
    {t : Text} {run : List Atom} (hrun : Reads phrases t run) (ht : ∀ c ∈ t, isFullWidthBracket c = false)
    {depth : Nat} (hdepth : k ≤ depth) :
    ∃ level, drafts brackets phrases (Piece.runs (placeholderPattern.pieces (t ++ s))).2
        (Piece.runs (placeholderPattern.pieces (t ++ s))).1 = .ok level ∧
      fill (layout brackets phrases depth) level = .ok (ns.nodesFrom run) := by
  -- `t` is what has been read since the last placeholder: characters and phrases are added to it, a pair ends it.
  induction h generalizing t run depth with
  | nil =>
    refine ⟨draftOf run, ?_, ?_⟩
    · rw [pieces_append ht, Pattern.pieces_nil, List.append_nil, Piece.runs_map_plain, drafts]
      exact segment_eq hrun
    · have hnil : fill (layout brackets phrases depth) [] = .ok [] := by
        rw [fill]
      have hfill := fill_draftOf_append hnil run
      rwa [List.append_nil, List.append_nil] at hfill
  | @char k c s ns hw h ih =>
    have hstep := ih hns.2 (hrun.append (.char hns.1 .nil)) (t := t ++ [c]) (fun d hd => ?_) hdepth
    · rwa [List.append_assoc, List.singleton_append] at hstep
    · rcases List.mem_append.mp hd with hd | hd
      · exact ht d hd
      · exact List.mem_singleton.mp hd ▸ hw
  | @phrase k negated n words s ns hw h ih =>
    have hstep := ih hns.2 (hrun.append (.phrase hw .nil)) (fun d hd => ?_) hdepth
    · rwa [List.append_nil, List.append_assoc] at hstep
    · rw [List.append_nil] at hd
      rcases List.mem_append.mp hd with hd | hd
      · exact ht d hd
      · exact fullWidth_of_mem_placeholder d hd
  | @pair k n body s inside later hn hbody hinside h ihinside ih =>
    obtain ⟨d, rfl⟩ : ∃ d, depth = d + 1 := Nat.exists_eq_succ_of_ne_zero (by omega)
    obtain ⟨levelInside, hdraftsInside, hfillInside⟩ := ihinside hns.1 (t := []) .nil (by simp) (show n ≤ d by omega)
    obtain ⟨level, hdrafts, hfill⟩ := ih hns.2 (t := []) .nil (by simp) hdepth
    rw [List.nil_append] at hdraftsInside hdrafts
    obtain ⟨t', hsplit, hreads⟩ := splitDash_eq hrun
    have hbody' : layout brackets phrases (d + 1) body = .ok (inside.nodesFrom []) :=
      (layout_of_drafts hdraftsInside).trans hfillInside
    refine ⟨draftOf (Atom.splitDash run).1 ++ .group (Atom.splitDash run).2 body :: level, ?_, ?_⟩
    · rw [pieces_append ht, Pattern.pieces_of_some (read_placeholder (n + 1) s), Piece.runs_map_plain_append_found,
        drafts, afterLast_eq ht, hsplit, find_of_getElem? hbody, hdrafts]
      show (do let before ← segment phrases t'; _) = _
      rw [segment_eq hreads]
      rfl
    · refine fill_draftOf_append ?_ (Atom.splitDash run).1
      rw [fill, hfill, hbody']
      rfl

/-- The layout of a text is that of the nest it shows. -/
theorem layout_eq {k : Nat} {s : Text} {ns : Nest} (h : Shows phrases brackets k s ns) (hns : ns.Each Atom.Unmarked) :
    layout brackets phrases (k + 1) s = .ok ns.nodes := by
  obtain ⟨level, hdrafts, hfill⟩ := drafts_eq h hns (t := []) .nil (by simp) (Nat.le_refl k)
  rw [List.nil_append] at hdrafts
  exact (layout_of_drafts hdrafts).trans hfill

/-! ### The layers of a query -/

/-- The nest that the atoms of a query are read as, by the settings with or without brackets that have no
    partner. -/
def nest (settings : Settings) (as : List Atom) : Nest :=
  let ns := Nest.resume [] .nil (.ofAtoms as)
  if settings.dropUnmatchedBrackets then ns.dropBrackets else ns

/-- The atoms of a query, with a space on either side of every phrase and the symbols in ASCII. -/
def atoms (query : Text) : List Atom := (Atom.pad (Phrase.scan query.normalizeQuotes)).map Atom.normalize

theorem fullWidth_normalizeSymbol (c : Char) : isFullWidthBracket (Text.normalizeSymbol c) = false := by
  rcases Text.normalizeSymbol_cases c with ⟨-, h⟩ | ⟨-, h⟩ | ⟨-, h⟩ | ⟨hopen, hclose, h⟩
  · rw [h]; rfl
  · rw [h]; rfl
  · rw [h]; rfl
  · rw [h]
    simp [isFullWidthBracket, hopen, hclose]

theorem fullWidth_of_mem_atoms {query : Text} {c : Char} (h : .char c ∈ atoms query) :
    isFullWidthBracket c = false := by
  obtain ⟨a, -, ha⟩ := List.mem_map.mp h
  cases a with
  | char d =>
    cases ha
    exact fullWidth_normalizeSymbol d
  | phrase => cases ha

/-- What holds of the atoms that a text falls into, and of a space and of brackets, holds of the atoms of a query. -/
theorem forall_mem_atoms {p : Atom → Prop} (hopen : p (.char '(')) (hclose : p (.char ')')) (hspace : p (.char ' '))
    {query : Text} (h : ∀ a ∈ Phrase.scan query.normalizeQuotes, p a) : ∀ a ∈ atoms query, p a := by
  intro a ha
  obtain ⟨b, hb, rfl⟩ := List.mem_map.mp ha
  have hb := Atom.forall_mem_pad hspace h b hb
  cases b with
  | phrase negated words => exact hb
  | char c => exact Text.normalizeSymbol_induction (p := fun c => p (.char c)) hopen hclose hspace hb

theorem atoms_of_no_quote {query : Text} (h : ∀ c ∈ query, c ≠ '"' ∧ c ≠ '”') :
    atoms query = (Text.normalizeSymbols (query.filter fun c => !Phrase.isMark c)).map .char := by
  have hquotes : query.normalizeQuotes = query := Text.normalizeQuotes_eq_self fun c hc => (h c hc).2
  have hscan : Phrase.scan query = (query.filter fun c => !Phrase.isMark c).map .char := by
    rw [Phrase.scan_eq_scan_filter]
    refine Phrase.scan_of_plain fun c hc => ?_
    obtain ⟨hc, hmark⟩ := List.mem_filter.mp hc
    exact ⟨(h c hc).1, by simpa using hmark⟩
  rw [atoms, hquotes, hscan, Atom.pad_map_char, List.map_map, Text.normalizeSymbols, List.map_map]
  rfl

theorem each_nest {p : Atom → Prop} (hopen : p (.char '(')) (settings : Settings) {as : List Atom}
    (h : ∀ a ∈ as, p a) : (nest settings as).Each p := by
  have hresume : (Nest.resume [] .nil (.ofAtoms as)).Each p :=
    Nest.Each.resume hopen (by simp) trivial (Nest.each_ofAtoms h)
  rw [nest]
  split
  · exact hresume.dropBrackets
  · exact hresume

/-- The layers of a text are the nodes of the nest that its atoms are read as. -/
theorem ofProtected_eq (settings : Settings) {s : Text} {as : List Atom} (hreads : Reads phrases s as)
    (hwidth : ∀ c, .char c ∈ as → isFullWidthBracket c = false) :
    ofProtected settings phrases s = .ok (nest settings as).nodes := by
  have hshows := (Shows.of_reads hreads hwidth).collapse []
  rw [ofProtected, collapsed]
  show layout _ _ (_ + 1) _ = _
  refine layout_eq ?_ (each_nest (p := Atom.Unmarked) rfl settings hreads.unmarked)
  rw [nest]
  split
  · exact hshows.dropUnmatched
  · exact hshows

/-- The layers of a query are the nodes of the nest that its atoms are read as. -/
theorem ofQuery_eq (settings : Settings) (query : Text) :
    ofQuery settings query = .ok (nest settings (atoms query)).nodes :=
  ofProtected_eq settings (Phrase.reads_extract query.normalizeQuotes).normalizeSymbols
    fun _ hc => fullWidth_of_mem_atoms hc

end Layer
end SearchQuery
