import SearchQuery.Proofs.Bracket.Nest
import SearchQuery.Proofs.Text.Pieces

/-! Collapsing brackets, pass by pass. A text with placeholders shows a nest when each of its bracket placeholders
    leads to an entry that shows what stands inside, by entries before it. A pass pairs brackets the way reading
    with a stack does, so reading what it leaves comes to the same (`Shows.pass`); when no pass changes the text
    any more, no opening bracket stands before a closing one, and there is nothing left to pair
    (`Shows.collapse`). -/

namespace SearchQuery

namespace Bracket

open Phrase (tagOf)

/-- The text shows the nest by the phrases behind its phrase placeholders and, for its pairs, the entries of the
    bracket table before the `k`th one. -/
inductive Shows (phrases : Phrase.Tables) (brackets : List Text) : Nat → Text → Nest → Prop where
  | nil {k : Nat} : Shows phrases brackets k [] .nil
  | char {k : Nat} {c : Char} {s : Text} {ns : Nest} (hw : Layer.isFullWidthBracket c = false)
      (h : Shows phrases brackets k s ns) : Shows phrases brackets k (c :: s) (.atom (.char c) ns)
  | phrase {k : Nat} {negated : Bool} {n : Nat} {words s : Text} {ns : Nest}
      (hw : phrases.find (tagOf negated) (Numeral.ofNat n) = .ok words) (h : Shows phrases brackets k s ns) :
      Shows phrases brackets k (Phrase.placeholder (tagOf negated) n ++ s) (.atom (.phrase negated words) ns)
  | pair {k n : Nat} {body s : Text} {inside later : Nest} (hn : n < k) (hbody : brackets[n]? = some body)
      (hinside : Shows phrases brackets n body inside) (h : Shows phrases brackets k s later) :
      Shows phrases brackets k (placeholder (n + 1) ++ s) (.pair inside later)

/-- The characters that bracket placeholders are written in. -/
def placeholderAlphabet : List Char := ['（', '）', '0', '1', '2', '3', '4', '5', '6', '7', '8', '9']

theorem mem_placeholderAlphabet {n : Nat} : ∀ c ∈ placeholder n, c ∈ placeholderAlphabet := by
  have hdigit : ∀ c ∈ Numeral.ofNat n, c ∈ placeholderAlphabet := Numeral.forall_mem_ofNat (by decide)
  intro c hc
  rw [placeholder, List.cons_append, List.mem_cons, List.mem_append, List.mem_singleton] at hc
  rcases hc with rfl | hc | rfl
  · decide
  · exact hdigit c hc
  · decide

theorem getElem?_of_extended {table table' : List Text} {n : Nat} {body : Text} (h : table <+: table')
    (hbody : table[n]? = some body) : table'[n]? = some body := by
  obtain ⟨new, rfl⟩ := h
  rw [List.getElem?_append_left (List.getElem?_eq_some_iff.mp hbody).1]
  exact hbody

namespace Shows

variable {phrases : Phrase.Tables} {brackets : List Text} {k : Nat} {s t : Text} {ms ns : Nest}

theorem of_reads {as : List Atom} (h : Phrase.Reads phrases s as)
    (hw : ∀ c, .char c ∈ as → Layer.isFullWidthBracket c = false) : Shows phrases brackets k s (.ofAtoms as) := by
  induction h with
  | nil => exact .nil
  | char _ _ ih => exact .char (hw _ List.mem_cons_self) (ih fun c hc => hw c (List.mem_cons_of_mem _ hc))
  | phrase hw' _ ih => exact .phrase hw' (ih fun c hc => hw c (List.mem_cons_of_mem _ hc))

theorem mono {brackets' : List Text} {k' : Nat} (h : Shows phrases brackets k s ns) (hb : brackets <+: brackets')
    (hk : k ≤ k') : Shows phrases brackets' k' s ns := by
  induction h generalizing k' with
  | nil => exact .nil
  | char hw _ ih => exact .char hw (ih hk)
  | phrase hw _ ih => exact .phrase hw (ih hk)
  | pair hn hbody _ _ ihinside ih =>
    exact .pair (Nat.lt_of_lt_of_le hn hk) (getElem?_of_extended hb hbody) (ihinside (Nat.le_refl _)) (ih hk)

/-- A text is cut at a bracket, and so is its nest. -/
theorem of_append_cons {c : Char} (hbracket : Nest.isBracket (.char c) = true)
    (h : Shows phrases brackets k (s ++ c :: t) ns) :
    ∃ ms ps, ns = ms ++ .atom (.char c) ps ∧ Shows phrases brackets k s ms ∧ Shows phrases brackets k t ps := by
  have hphrase : c ∉ Phrase.placeholderAlphabet := by
    rcases Nest.eq_of_isBracket hbracket with rfl | rfl <;> decide
  have hpair : c ∉ placeholderAlphabet := by
    rcases Nest.eq_of_isBracket hbracket with rfl | rfl <;> decide
  generalize hu : s ++ c :: t = u at h
  induction h generalizing s with
  | nil => simp at hu
  | @char k d u ns hw h ih =>
    cases s with
    | nil =>
      cases hu
      exact ⟨.nil, ns, rfl, .nil, h⟩
    | cons e s =>
      obtain ⟨rfl, hu'⟩ := List.cons.inj hu
      obtain ⟨ms, ps, rfl, hx, hy⟩ := ih hu'
      exact ⟨.atom (.char e) ms, ps, rfl, .char hw hx, hy⟩
  | @phrase k negated n words u ns hw h ih =>
    have hfree : c ∉ Phrase.placeholder (tagOf negated) n := fun hmem => hphrase (Phrase.mem_placeholderAlphabet c hmem)
    obtain ⟨s, rfl, hu'⟩ := Text.exists_of_append_eq hfree hu.symm
    obtain ⟨ms, ps, rfl, hx, hy⟩ := ih hu'.symm
    exact ⟨.atom (.phrase negated words) ms, ps, rfl, .phrase hw hx, hy⟩
  | @pair k n body u inside later hn hbody hinside h ihinside ih =>
    obtain ⟨s, rfl, hu'⟩ := Text.exists_of_append_eq (fun hmem => hpair (mem_placeholderAlphabet c hmem)) hu.symm
    obtain ⟨ms, ps, rfl, hx, hy⟩ := ih hu'.symm
    exact ⟨.pair inside ms, ps, rfl, .pair hn hbody hinside hx, hy⟩

theorem notBlank_eq (h : Shows phrases brackets k s ns) : s.notBlank = !ns.isBlank := by
  induction h with
  | nil => rfl
  | @char k c s ns hw h ih =>
    rw [Nest.isBlank, Bool.not_and, ← ih]
    rfl
  | @phrase k negated n words s ns hw h ih =>
    rw [Text.notBlank_append, Text.notBlank_of_mem (c := Phrase.openMark) (by simp [Phrase.placeholder]) (by decide)]
    rfl
  | @pair k n body s inside later hn hbody hinside h ihinside ih =>
    rw [Text.notBlank_append, Text.notBlank_of_mem (c := '（') (by simp [placeholder]) (by decide)]
    rfl

/-- A part without brackets is read onto the level that is current. -/
theorem resume_append (h : Shows phrases brackets k s ms) (hs : ∀ c ∈ s, Nest.isBracket (.char c) = false)
    (opens : List Nest) (current later : Nest) :
    Nest.resume opens current (ms ++ later) = Nest.resume opens (current ++ ms) later := by
  induction h generalizing current with
  | nil => rw [Nest.nil_append, Nest.append_nil]
  | @char k c s ns hw h ih =>
    rw [Nest.atom_append, Nest.resume_atom (hs c List.mem_cons_self), ih fun d hd => hs d (List.mem_cons_of_mem c hd),
      Nest.append_assoc]
    rfl
  | @phrase k negated n words s ns hw h ih =>
    rw [Nest.atom_append, Nest.resume_atom rfl, ih fun d hd => hs d (List.mem_append_right _ hd), Nest.append_assoc]
    rfl
  | @pair k n body s inside later' hn hbody hinside h ihinside ih =>
    rw [Nest.pair_append, Nest.resume_pair, ih fun d hd => hs d (List.mem_append_right _ hd), Nest.append_assoc]
    rfl

/-! ### A pass -/

theorem read_innermost_of_ne {c : Char} (hc : c ≠ '(') (s : Text) : innermost.read (c :: s) = none := by
  simp only [innermost]
  split
  · next heq => exact absurd (List.cons.inj heq).1 hc
  · rfl

theorem pass_append {size : Nat} {t : Text} (ht : '(' ∉ t) (s : Text) :
    Bracket.pass size (t ++ s) = (t ++ (Bracket.pass size s).1, (Bracket.pass size s).2) := by
  rw [Bracket.pass, Pattern.pieces_append (fun c hc => read_innermost_of_ne fun h => ht (h ▸ hc)),
    Piece.number_map_plain_append]
  rfl

theorem pass_of_none {size : Nat} {c : Char} {s : Text} (hread : innermost.read (c :: s) = none) :
    Bracket.pass size (c :: s) = (c :: (Bracket.pass size s).1, (Bracket.pass size s).2) := by
  rw [Bracket.pass, Pattern.pieces_of_none hread]
  rfl

theorem pass_of_some {size : Nat} {s body rest : Text} (hread : innermost.read s = some (body, rest)) :
    Bracket.pass size s =
      if body.notBlank then
        (placeholder (size + 1) ++ (Bracket.pass (size + 1) rest).1, body :: (Bracket.pass (size + 1) rest).2)
      else Bracket.pass size rest := by
  rw [Bracket.pass, Pattern.pieces_of_some hread, Piece.number]
  rfl

theorem read_innermost_eq_some {c : Char} {s body rest : Text} (h : innermost.read (c :: s) = some (body, rest)) :
    c = '(' ∧ s = body ++ ')' :: rest ∧ ∀ d ∈ body, Nest.isBracket (.char d) = false := by
  simp only [innermost] at h
  split at h
  · next s' heq =>
    obtain ⟨rfl, rfl⟩ := List.cons.inj heq
    refine ⟨rfl, Text.eq_append_of_upTo? h, fun d hd => ?_⟩
    have := Text.inside_of_upTo? h d hd
    simpa [Nest.isBracket] using this
  · cases h

/-- What a pass leaves of the text shows a nest, and reading that nest comes to the same as reading `ns`. -/
def Survives (phrases : Phrase.Tables) (table : List Text) (s : Text) (ns : Nest) : Prop :=
  ∃ ms, Shows phrases (table ++ (Bracket.pass table.length s).2) (table ++ (Bracket.pass table.length s).2).length
      (Bracket.pass table.length s).1 ms ∧
    ∀ opens current, Nest.resume opens current ms = Nest.resume opens current ns

namespace Survives

variable {table : List Text} {rest : Text} {inside later : Nest}

theorem nil : Survives phrases table [] .nil := by
  rw [Survives, Bracket.pass, Pattern.pieces_nil]
  exact ⟨.nil, .nil, fun _ _ => rfl⟩

theorem char {c : Char} (hread : innermost.read (c :: s) = none) (hw : Layer.isFullWidthBracket c = false)
    (h : Survives phrases table s ns) : Survives phrases table (c :: s) (.atom (.char c) ns) := by
  obtain ⟨ms, hshows, hresume⟩ := h
  rw [Survives, pass_of_none hread]
  exact ⟨.atom (.char c) ms, .char hw hshows, Nest.resume_congr hresume⟩

theorem phrase {negated : Bool} {n : Nat} {words : Text}
    (hw : phrases.find (tagOf negated) (Numeral.ofNat n) = .ok words) (h : Survives phrases table s ns) :
    Survives phrases table (Phrase.placeholder (tagOf negated) n ++ s) (.atom (.phrase negated words) ns) := by
  have hopen : '(' ∉ Phrase.placeholder (tagOf negated) n := fun hmem =>
    absurd (Phrase.mem_placeholderAlphabet _ hmem) (by decide)
  obtain ⟨ms, hshows, hresume⟩ := h
  rw [Survives, pass_append hopen]
  exact ⟨.atom (.phrase negated words) ms, .phrase hw hshows, Nest.resume_congr hresume⟩

/-- A pair that an earlier pass has collapsed stays. -/
theorem pair {n : Nat} {body : Text} (hn : n < table.length) (hbody : table[n]? = some body)
    (hinside : Shows phrases table n body inside) (h : Survives phrases table s later) :
    Survives phrases table (placeholder (n + 1) ++ s) (.pair inside later) := by
  have hopen : '(' ∉ placeholder (n + 1) := fun hmem => absurd (mem_placeholderAlphabet _ hmem) (by decide)
  have hextended := List.prefix_append table (Bracket.pass table.length s).2
  obtain ⟨ms, hshows, hresume⟩ := h
  rw [Survives, pass_append hopen]
  refine ⟨.pair inside ms, .pair ?_ (getElem?_of_extended hextended hbody) (hinside.mono hextended (Nat.le_refl n))
    hshows, fun opens current => ?_⟩
  · rw [List.length_append]
    omega
  · rw [Nest.resume_pair, Nest.resume_pair, hresume]

/-- The pass deletes a pair around blanks. -/
theorem blank {body : Text} (hread : innermost.read s = some (body, rest)) (hbody : body.notBlank = false)
    (hresume : ∀ opens current, Nest.resume opens current ns = Nest.resume opens current later)
    (h : Survives phrases table rest later) : Survives phrases table s ns := by
  obtain ⟨ms, hshows, hsame⟩ := h
  rw [Survives, pass_of_some hread, if_neg (by simp [hbody])]
  exact ⟨ms, hshows, fun opens current => (hsame opens current).trans (hresume opens current).symm⟩

/-- The pass collapses any other pair, and what stands inside becomes the next entry of the table. -/
theorem closed {body : Text} (hread : innermost.read s = some (body, rest)) (hbody : body.notBlank = true)
    (hinside : Shows phrases table table.length body inside)
    (hresume : ∀ opens current, Nest.resume opens current ns = Nest.resume opens (current ++ .pair inside .nil) later)
    (h : Survives phrases (table ++ [body]) rest later) : Survives phrases table s ns := by
  obtain ⟨ms, hshows, hsame⟩ := h
  have hlength : (table ++ [body]).length = table.length + 1 := by simp
  rw [hlength, List.append_assoc, List.singleton_append] at hshows
  rw [Survives, pass_of_some hread, if_pos hbody]
  refine ⟨.pair inside ms, .pair ?_ (by simp) (hinside.mono (List.prefix_append table _) (Nat.le_refl _)) hshows,
    fun opens current => ?_⟩
  · rw [List.length_append, List.length_cons]
    omega
  · rw [hresume, Nest.resume_pair, hsame]

end Survives

/-- Every text that shows a nest survives a pass. -/
theorem pass (h : Shows phrases brackets k s ns) {table : List Text} (htable : brackets <+: table)
    (hk : k ≤ table.length) : Survives phrases table s ns := by
  -- By length: an innermost pair is passed over as a whole, and the rest starts behind its closing bracket.
  induction hlen : s.length using Nat.strongRecOn generalizing s ns table with
  | ind len ih =>
    subst hlen
    cases h with
    | nil => exact .nil
    | phrase hw h => exact .phrase hw (ih _ (by simp [Phrase.placeholder]; omega) h htable hk rfl)
    | pair hn hbody hinside h =>
      exact .pair (Nat.lt_of_lt_of_le hn hk) (getElem?_of_extended htable hbody) (hinside.mono htable (Nat.le_refl _))
        (ih _ (by simp [placeholder]; omega) h htable hk rfl)
    | @char _ c s ns hw h =>
      rcases hread : innermost.read (c :: s) with _ | ⟨body, rest⟩
      · exact .char hread hw (ih s.length (by simp) h htable hk rfl)
      · obtain ⟨rfl, rfl, hfree⟩ := read_innermost_eq_some hread
        obtain ⟨inside, later, rfl, hinside, hlater⟩ := of_append_cons (by decide) h
        have hshorter : rest.length < ('(' :: (body ++ ')' :: rest)).length := innermost.shorter hread
        have hopen : ∀ opens current,
            Nest.resume opens current (.atom (.char '(') (inside ++ .atom (.char ')') later)) =
              Nest.resume opens (current ++ Nest.closed inside) later := fun opens current => by
          rw [Nest.resume_open, hinside.resume_append hfree, Nest.nil_append, Nest.resume_close]
        have hblank := hinside.notBlank_eq
        cases hbody : inside.isBlank with
        | true =>
          rw [hbody] at hblank
          rw [Nest.closed_of_isBlank hbody] at hopen
          exact .blank hread hblank (fun opens current => by rw [hopen, Nest.append_nil])
            (ih _ hshorter hlater htable hk rfl)
        | false =>
          rw [hbody] at hblank
          rw [Nest.closed_of_not_isBlank hbody] at hopen
          exact .closed hread hblank (hinside.mono htable hk) hopen
            (ih _ hshorter hlater (htable.trans (List.prefix_append table [body])) (by simp; omega) rfl)

/-! ### When no pass changes the text -/

/-- No closing bracket follows an opening one. -/
def Settled (s : Text) : Prop := ∀ x y, s = x ++ '(' :: y → ')' ∉ y

theorem Settled.of_cons {c : Char} (h : Settled (c :: s)) : Settled s := fun x y hs => h (c :: x) y (by rw [hs]; rfl)

theorem Settled.of_append (h : Settled (t ++ s)) : Settled s := fun x y hs =>
  h (t ++ x) y (by rw [hs, List.append_assoc])

theorem settled_cons_of_ne {c : Char} (hc : c ≠ '(') (h : Settled s) : Settled (c :: s) := by
  rintro (_ | ⟨d, x⟩) y hs
  · exact absurd (List.cons.inj hs).1 hc
  · exact h x y (List.cons.inj hs).2

theorem settled_open (hread : innermost.read ('(' :: s) = none) (h : Settled s) : Settled ('(' :: s) := by
  have hclose : ')' ∉ s := fun hmem => by
    have hsplit := List.takeWhile_append_dropWhile (p := fun c => c ≠ '(' && c ≠ ')') (l := s)
    have hinside : ')' ∉ s.takeWhile (fun c => c ≠ '(' && c ≠ ')') := fun hmem => by
      have := List.all_eq_true.mp List.all_takeWhile _ hmem
      simp at this
    simp only [innermost, Text.upTo?] at hread
    rw [← hsplit] at hmem
    rcases hdrop : s.dropWhile (fun c => c ≠ '(' && c ≠ ')') with _ | ⟨c, rest⟩
    · rw [hdrop, List.append_nil] at hmem
      exact hinside hmem
    · have hc := List.head?_dropWhile_not (fun c => c ≠ '(' && c ≠ ')') s
      rw [hdrop] at hmem hread hsplit hc
      -- The next bracket is an opening one, and then no closing bracket can follow.
      have hopen : c = '(' := by
        by_cases hclose : c = ')'
        · simp [hclose] at hread
        · simpa [hclose] using hc
      subst hopen
      refine h _ rest hsplit.symm ?_
      rcases List.mem_append.mp hmem with hmem | hmem
      · exact absurd hmem hinside
      · simpa using hmem
  rintro (_ | ⟨d, x⟩) y hs
  · exact (List.cons.inj hs).2 ▸ hclose
  · exact h x y (List.cons.inj hs).2

theorem settled_or_count_lt (s : Text) (n : Nat) :
    Settled s ∨ (Bracket.pass n s).1.count '(' < s.count '(' := by
  fun_induction innermost.pieces s generalizing n with
  | case1 => exact Or.inl fun x y h => by simp at h
  | case2 c s body rest h ih =>
    have hcount := count_eq_of_read h
    have hmark := count_placeholder (n + 1)
    have hrest : ∀ m, (Bracket.pass m rest).1.count '(' ≤ rest.count '(' := fun m => by
      rcases pass_eq_or_count_lt rest m with hrest | hrest
      · exact Nat.le_of_eq (by rw [hrest])
      · exact Nat.le_of_lt hrest
    refine Or.inr ?_
    rw [pass_of_some h]
    split
    · have := hrest (n + 1)
      simp only [List.count_append]
      omega
    · have := hrest n
      omega
  | case3 c s h ih =>
    rw [pass_of_none h]
    rcases ih n with hs | hcount
    · refine Or.inl ?_
      by_cases hc : c = '('
      · subst hc
        exact settled_open h hs
      · exact settled_cons_of_ne hc hs
    · refine Or.inr ?_
      simp only [List.count_cons]
      omega

theorem settled_of_pass_eq {n : Nat} (h : (Bracket.pass n s).1 = s) : Settled s := by
  rcases settled_or_count_lt s n with hs | hcount
  · exact hs
  · rw [h] at hcount
    exact absurd hcount (Nat.lt_irrefl _)

/-- In a settled text there is nothing left to pair. -/
theorem resume_of_settled (h : Shows phrases brackets k s ns) (hs : Settled s) {opens : List Nest}
    (hopens : opens = [] ∨ ')' ∉ s) (current : Nest) :
    Nest.resume opens current ns = Nest.spliced opens (current ++ ns) := by
  induction h generalizing opens current with
  | nil => rw [Nest.append_nil]; rfl
  | @char k c s ns hw h ih =>
    have hopens' : opens = [] ∨ ')' ∉ s := hopens.imp_right fun hclose hmem => hclose (List.mem_cons_of_mem c hmem)
    by_cases hbracket : Nest.isBracket (.char c) = true
    · rcases Nest.eq_of_isBracket hbracket with rfl | rfl
      · rw [Nest.resume_open, ih hs.of_cons (Or.inr (hs [] s rfl)), Nest.nil_append, Nest.spliced]
      · have hnil : opens = [] := hopens.resolve_right fun hclose => hclose List.mem_cons_self
        subst hnil
        rw [Nest.resume_stray, ih hs.of_cons (Or.inl rfl), Nest.append_assoc]
        rfl
    · rw [Nest.resume_atom (by simpa using hbracket), ih hs.of_cons hopens', Nest.append_assoc]
      rfl
  | @phrase k negated n words s ns hw h ih =>
    have hopens' : opens = [] ∨ ')' ∉ s := hopens.imp_right fun hclose hmem => hclose (List.mem_append_right _ hmem)
    rw [Nest.resume_atom rfl, ih hs.of_append hopens', Nest.append_assoc]
    rfl
  | @pair k n body s inside later' hn hbody hinside h ihinside ih =>
    have hopens' : opens = [] ∨ ')' ∉ s := hopens.imp_right fun hclose hmem => hclose (List.mem_append_right _ hmem)
    rw [Nest.resume_pair, ih hs.of_append hopens', Nest.append_assoc]
    rfl

/-- Collapsing pairs the brackets of a text the way reading with a stack does. -/
theorem collapse (table : List Text) (h : Shows phrases table table.length s ns) :
    Shows phrases (Bracket.collapse table s).2 (Bracket.collapse table s).2.length (Bracket.collapse table s).1
      (Nest.resume [] .nil ns) := by
  fun_induction Bracket.collapse table s generalizing ns with
  | case1 table s next =>
    rename_i heq
    rw [h.resume_of_settled (settled_of_pass_eq heq) (Or.inl rfl)]
    exact h
  | case2 table s next hne =>
    rename_i ih
    obtain ⟨ms, hshows, hresume⟩ := h.pass (List.prefix_refl table) (Nat.le_refl _)
    rw [← hresume]
    exact ih hshows

theorem dropUnmatched (h : Shows phrases brackets k s ns) :
    Shows phrases brackets k (Bracket.dropUnmatched s) ns.dropBrackets := by
  have hkeep : ∀ t : Text, (∀ c ∈ t, Nest.isBracket (.char c) = false) → Bracket.dropUnmatched t = t := fun t ht =>
    List.filter_eq_self.mpr fun c hc => by simpa [Nest.isBracket] using ht c hc
  have happend : ∀ t u : Text, Bracket.dropUnmatched (t ++ u) = Bracket.dropUnmatched t ++ Bracket.dropUnmatched u :=
    fun t u => List.filter_append t u
  induction h with
  | nil => exact .nil
  | @char k c s ns hw h ih =>
    rw [Nest.dropBrackets]
    split
    · next hbracket =>
      rcases Nest.eq_of_isBracket hbracket with rfl | rfl <;> exact ih
    · next hbracket =>
      have hc' : Bracket.dropUnmatched [c] = [c] := hkeep [c] fun d hd => by
        rw [List.mem_singleton.mp hd]
        simpa using hbracket
      rw [← List.singleton_append, happend, hc']
      exact .char hw ih
  | @phrase k negated n words s ns hw h ih =>
    rw [happend, hkeep _ (Phrase.forall_mem_placeholder (by decide))]
    exact .phrase hw ih
  | @pair k n body s inside later' hn hbody hinside h ihinside ih =>
    have halphabet : ∀ c ∈ placeholderAlphabet, Nest.isBracket (.char c) = false :=
      List.all_iff_forall_prop.mp (by decide)
    rw [happend, hkeep _ fun c hc => halphabet c (mem_placeholderAlphabet c hc)]
    exact .pair hn hbody hinside ih

end Shows
end Bracket
end SearchQuery
