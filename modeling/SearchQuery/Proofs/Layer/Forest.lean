import SearchQuery.Proofs.Bracket.Table

/-! Laying out a text uses entries of the bracket table: the groups of a level hold what the entries behind its
    placeholders are laid out as (`layout_cases`). A text left by collapsing has a forest of placeholders: every
    new entry has one, in the text or in a later entry. So its layout ends, and its groups are the new entries laid out,
    each of them once (`collapse_forest`). -/

namespace SearchQuery.Layer

open SearchQuery.Bracket (Marked references references_nil references_cons references_placeholder_append)

mutual

/-- What the groups of a node hold, its own first. -/
def nodeContents : ClosedNode → List (List ClosedNode)
  | .text _ => []
  | .group _ nodes => nodes :: contents nodes
  | .foreign value => value.elim

/-- What the groups of layers hold, depth first. -/
def contents : List ClosedNode → List (List ClosedNode)
  | [] => []
  | node :: nodes => nodeContents node ++ contents nodes

end

/-- What a group holds, and the groups inside it. -/
def unfolded (inside : List ClosedNode) : List (List ClosedNode) := inside :: contents inside

/-- The entries behind the groups of a level. -/
def bodies : List Draft → List Text
  | [] => []
  | .text _ :: ds => bodies ds
  | .group _ body :: ds => body :: bodies ds

variable {phrases : Phrase.Tables} {brackets : List Text} {s : Text} {depth : Nat}

theorem bodies_append (ds es : List Draft) : bodies (ds ++ es) = bodies ds ++ bodies es := by
  induction ds with
  | nil => rfl
  | cons d ds ih =>
    cases d with
    | text t => exact ih
    | group negated body => rw [List.cons_append, bodies, bodies, ih, List.cons_append]

/-- The phrases of a part of the text cannot be restored. -/
def Unrestorable (phrases : Phrase.Tables) (s : Text) (fault : LookupFault) : Prop :=
  ∃ u, u <:+: s ∧ Phrase.restore phrases u = .error fault

theorem Unrestorable.mono {t : Text} {fault : LookupFault} (h : Unrestorable phrases s fault) (hst : s <:+: t) :
    Unrestorable phrases t fault := by
  obtain ⟨u, hu, hfault⟩ := h
  exact ⟨u, hu.trans hst, hfault⟩

/-! ### A level -/

/-- A run of text is no group, and only its phrases can go wrong. -/
theorem segment_cases (phrases : Phrase.Tables) (s : Text) :
    (∃ fault, segment phrases s = .error fault ∧ Unrestorable phrases s fault) ∨
      ∃ ds, segment phrases s = .ok ds ∧ bodies ds = [] := by
  rw [segment]
  rcases hrestore : Phrase.restore phrases s with fault | t
  · exact Or.inl ⟨fault, rfl, s, List.infix_rfl, hrestore⟩
  · refine Or.inr ⟨_, rfl, ?_⟩
    split <;> rfl

/-- The text before a group stands in the run before its placeholder. -/
theorem splitDash_afterLast_infix (run : Text) : (splitDash (run.afterLast isFullWidthBracket)).1 <:+: run := by
  have hafter : run.afterLast isFullWidthBracket <:+ run := by
    rw [Text.afterLast, ← List.reverse_prefix, List.reverse_reverse]
    exact List.takeWhile_prefix _
  refine List.IsInfix.trans ?_ hafter.isInfix
  rw [splitDash]
  split
  · exact (List.dropLast_prefix _).isInfix
  · exact List.infix_rfl

theorem exists_find_eq {k : Nat} (hpos : 0 < k) (hk : k ≤ brackets.length) :
    ∃ body, find brackets (Numeral.ofNat k) = .ok body ∧ entry brackets k = .ok body := by
  obtain ⟨n, rfl⟩ : ∃ n, k = n + 1 := Nat.exists_eq_succ_of_ne_zero (Nat.ne_of_gt hpos)
  have hbody : brackets[n]? = some brackets[n] := List.getElem?_eq_getElem hk
  exact ⟨brackets[n], find_of_getElem? hbody, by rw [entry, hbody]⟩

/-- Where the placeholders of a level lead to entries, only phrases can go wrong in drafting it, and its groups have these
    entries in order. -/
theorem drafts_cases (phrases : Phrase.Tables) (rest : Text) {marks : List (Text × Text)} {ks : List Nat}
    (hmarks : marks.map Prod.snd = ks.map Numeral.ofNat) (hks : ∀ k ∈ ks, 0 < k ∧ k ≤ brackets.length) :
    (∃ fault, drafts brackets phrases rest marks = .error fault ∧
      ∃ run ∈ rest :: marks.map Prod.fst, Unrestorable phrases run fault) ∨
    ∃ level, drafts brackets phrases rest marks = .ok level ∧ ks.map (entry brackets) = (bodies level).map .ok := by
  induction marks generalizing ks with
  | nil =>
    obtain rfl : ks = [] := List.map_eq_nil_iff.mp hmarks.symm
    rw [drafts]
    rcases segment_cases phrases rest with ⟨fault, hfault, hphrases⟩ | ⟨ds, hds, hnone⟩
    · exact Or.inl ⟨fault, hfault, rest, List.mem_cons_self, hphrases⟩
    · exact Or.inr ⟨ds, hds, by rw [hnone]; rfl⟩
  | cons mark marks ih =>
    obtain ⟨run, digits⟩ := mark
    obtain ⟨k, ks, rfl, hk, hlater⟩ := List.map_eq_cons_iff.mp hmarks.symm
    obtain ⟨⟨hpos, hle⟩, hks⟩ := List.forall_mem_cons.mp hks
    obtain ⟨body, hfind, hentry⟩ := exists_find_eq hpos hle
    obtain rfl : Numeral.ofNat k = digits := hk
    have hinfix := splitDash_afterLast_infix run
    rw [drafts]
    generalize splitDash (run.afterLast isFullWidthBracket) = split at hinfix
    obtain ⟨before, negated⟩ := split
    rcases segment_cases phrases before with ⟨fault, hfault, hphrases⟩ | ⟨ds, hds, hnone⟩
    · refine Or.inl ⟨fault, ?_, run, by simp, hphrases.mono hinfix⟩
      show (do let before ← segment phrases before; _) = _
      rw [hfault]
      rfl
    · rcases ih hlater.symm hks with ⟨fault, hfault, run', hrun', hphrases⟩ | ⟨level, hlevel, hbodies⟩
      · refine Or.inl ⟨fault, ?_, run', ?_, hphrases⟩
        · show (do let before ← segment phrases before; _) = _
          rw [hds, hfind, hfault]
          rfl
        · rw [List.map_cons]
          rcases List.mem_cons.mp hrun' with rfl | hrun'
          · exact List.mem_cons_self
          · exact List.mem_cons_of_mem _ (List.mem_cons_of_mem _ hrun')
      · refine Or.inr ⟨ds ++ .group negated body :: level, ?_, ?_⟩
        · show (do let before ← segment phrases before; _) = _
          rw [hds, hfind, hlevel]
          rfl
        · rw [bodies_append, hnone, List.nil_append, bodies, List.map_cons, List.map_cons, hentry, hbodies]

variable {layBody layBody' : Text → Except LookupFault (List ClosedNode)}

/-- The groups of a level hold what their entries are laid out as, and nothing but laying out an entry can go wrong. -/
theorem fill_cases (layBody : Text → Except LookupFault (List ClosedNode)) (level : List Draft) :
    (∃ fault, fill layBody level = .error fault ∧ ∃ body ∈ bodies level, layBody body = .error fault) ∨
      ∃ (nodes : List ClosedNode) (insides : List (List ClosedNode)), fill layBody level = .ok nodes ∧
        (bodies level).map layBody = insides.map .ok ∧ contents nodes = insides.flatMap unfolded := by
  induction level with
  | nil => exact Or.inr ⟨[], [], by rw [fill], rfl, by rw [contents]; rfl⟩
  | cons d ds ih =>
    cases d with
    | text t =>
      rw [fill, bodies]
      rcases ih with ⟨fault, hfault, hbody⟩ | ⟨later, insides, hlater, hinsides, hcontents⟩
      · exact Or.inl ⟨fault, by rw [hfault]; rfl, hbody⟩
      · exact Or.inr ⟨.text t :: later, insides, by rw [hlater]; rfl, hinsides, by rw [contents, hcontents]; rfl⟩
    | group negated body =>
      rw [fill, bodies]
      rcases ih with ⟨fault, hfault, b, hb, hbody⟩ | ⟨later, insides, hlater, hinsides, hcontents⟩
      · exact Or.inl ⟨fault, by rw [hfault]; rfl, b, List.mem_cons_of_mem body hb, hbody⟩
      · rcases hbody : layBody body with fault | inside
        · exact Or.inl ⟨fault, by rw [hlater]; rfl, body, List.mem_cons_self, hbody⟩
        · refine Or.inr ⟨.group negated inside :: later, inside :: insides, by rw [hlater]; rfl, ?_, ?_⟩
          · rw [List.map_cons, List.map_cons, hbody, hinsides]
          · rw [contents, nodeContents, hcontents]
            rfl

theorem fill_mono (hmono : ∀ body inside, layBody body = .ok inside → layBody' body = .ok inside) {level : List Draft}
    {nodes : List ClosedNode} (h : fill layBody level = .ok nodes) : fill layBody' level = .ok nodes := by
  induction level generalizing nodes with
  | nil => exact h
  | cons d ds ih =>
    cases d with
    | text t =>
      rw [fill] at h ⊢
      rcases hlater : fill layBody ds with fault | later
      · rw [hlater] at h
        cases h
      · rw [hlater] at h
        rw [ih hlater]
        exact h
    | group negated body =>
      rw [fill] at h ⊢
      rcases hlater : fill layBody ds with fault | later
      · rw [hlater] at h
        cases h
      · rcases hbody : layBody body with fault | inside
        · rw [hlater, hbody] at h
          cases h
        · rw [hlater, hbody] at h
          rw [ih hlater, hmono body inside hbody]
          exact h

/-! ### All levels -/

theorem layout_succ (depth : Nat) (s : Text) :
    layout brackets phrases (depth + 1) s =
      (drafts brackets phrases (Piece.runs (placeholderPattern.pieces s)).2 (Piece.runs (placeholderPattern.pieces s)).1 >>=
        fill (layout brackets phrases depth)) := by
  rw [layout]

/-- What has been laid out stays so with more depth at hand. -/
theorem layout_mono {nodes : List ClosedNode} (h : layout brackets phrases depth s = .ok nodes) :
    layout brackets phrases (depth + 1) s = .ok nodes := by
  induction depth generalizing s nodes with
  | zero =>
    rw [layout] at h
    cases h
  | succ depth ih =>
    rw [layout_succ] at h ⊢
    generalize drafts brackets phrases (Piece.runs (placeholderPattern.pieces s)).2
      (Piece.runs (placeholderPattern.pieces s)).1 = drafted at h ⊢
    rcases drafted with fault | level
    · cases h
    · exact fill_mono (fun _ _ => ih) h

/-- The entry behind an index laid out. -/
def laid (brackets : List Text) (phrases : Phrase.Tables) (depth k : Nat) : Except LookupFault (List ClosedNode) :=
  entry brackets k >>= layout brackets phrases depth

theorem laid_mono {k : Nat} {inside : List ClosedNode} (h : laid brackets phrases depth k = .ok inside) :
    laid brackets phrases (depth + 1) k = .ok inside := by
  rw [laid] at h ⊢
  rcases hbody : entry brackets k with fault | body
  · rw [hbody] at h
    cases h
  · rw [hbody] at h
    exact layout_mono h

theorem map_laid_mono {ks : List Nat} {insides : List (List ClosedNode)}
    (h : ks.map (laid brackets phrases depth) = insides.map .ok) :
    ks.map (laid brackets phrases (depth + 1)) = insides.map .ok := by
  induction ks generalizing insides with
  | nil => exact h
  | cons k ks ih =>
    obtain ⟨inside, insides, rfl, hinside, hinsides⟩ := List.map_eq_cons_iff.mp h.symm
    rw [List.map_cons, List.map_cons, laid_mono hinside.symm, ih hinsides.symm]

theorem digits_runs (h : Marked s) :
    (Piece.runs (placeholderPattern.pieces s)).1.map Prod.snd = (references s).map Numeral.ofNat := by
  induction h with
  | nil => rw [references_nil, Pattern.pieces_nil]; rfl
  | @char c s hw h ih =>
    have hc : c ≠ '（' := by
      rintro rfl
      cases hw
    rw [references_cons hw, Pattern.pieces_of_none (read_of_ne hc s), Piece.map_snd_runs_plain, ih]
  | @mark s n h ih =>
    rw [references_placeholder_append, Pattern.pieces_of_some (read_placeholder n s), Piece.map_snd_runs_found, ih]
    rfl

/-- The runs of text between placeholders stand in the text, whatever has been read of the first one. -/
theorem runs_infix (h : Marked s) {t : Text} (ht : ∀ c ∈ t, isFullWidthBracket c = false) :
    ∀ run ∈ (Piece.runs (placeholderPattern.pieces (t ++ s))).2 ::
      (Piece.runs (placeholderPattern.pieces (t ++ s))).1.map Prod.fst, run <:+: t ++ s := by
  induction h generalizing t with
  | nil =>
    rw [pieces_append ht, Pattern.pieces_nil, List.append_nil, Piece.runs_map_plain, List.append_nil]
    exact List.forall_mem_singleton.mpr List.infix_rfl
  | @char c s hw h ih =>
    have hstep := ih (t := t ++ [c]) (List.forall_mem_append.mpr ⟨ht, List.forall_mem_singleton.mpr hw⟩)
    rwa [List.append_assoc, List.singleton_append] at hstep
  | @mark s n h ih =>
    obtain ⟨hrest, hruns⟩ := List.forall_mem_cons.mp (ih (t := []) (by simp))
    have hlater : s <:+: t ++ (Bracket.placeholder n ++ s) :=
      ((List.suffix_append _ s).trans (List.suffix_append t _)).isInfix
    rw [pieces_append ht, Pattern.pieces_of_some (read_placeholder n s), Piece.runs_map_plain_append_found]
    refine List.forall_mem_cons.mpr ⟨hrest.trans hlater, List.forall_mem_cons.mpr ⟨?_, fun run hrun => ?_⟩⟩
    · exact (List.prefix_append t _).isInfix
    · exact (hruns run hrun).trans hlater

/-- Where all placeholders of a text lead to entries, its groups hold these entries laid out, one for each placeholder, and
    only phrases and laying out the entries can go wrong. -/
theorem layout_cases (phrases : Phrase.Tables) (h : Marked s) (hrefs : ∀ k ∈ references s, 0 < k ∧ k ≤ brackets.length)
    (depth : Nat) :
    (∃ fault, layout brackets phrases (depth + 1) s = .error fault ∧
      (Unrestorable phrases s fault ∨ ∃ k ∈ references s, laid brackets phrases depth k = .error fault)) ∨
    ∃ (nodes : List ClosedNode) (insides : List (List ClosedNode)), layout brackets phrases (depth + 1) s = .ok nodes ∧
      (references s).map (laid brackets phrases depth) = insides.map .ok ∧ contents nodes = insides.flatMap unfolded := by
  rw [layout_succ]
  rcases drafts_cases phrases (Piece.runs (placeholderPattern.pieces s)).2 (digits_runs h) hrefs with
    ⟨fault, hfault, run, hrun, hphrases⟩ | ⟨level, hlevel, hbodies⟩
  · have hinfix : run <:+: s := runs_infix h (t := []) (by simp) run hrun
    exact Or.inl ⟨fault, by rw [hfault]; rfl, Or.inl (hphrases.mono hinfix)⟩
  · rw [hlevel]
    have hlaid : (references s).map (laid brackets phrases depth) = (bodies level).map (layout brackets phrases depth) := by
      have hmap := congrArg (List.map (· >>= layout brackets phrases depth)) hbodies
      rw [List.map_map, List.map_map] at hmap
      exact hmap
    rcases fill_cases (layout brackets phrases depth) level with
      ⟨fault, hfault, body, hbody, hlay⟩ | ⟨nodes, insides, hnodes, hinsides, hcontents⟩
    · have hmem : .error fault ∈ (references s).map (laid brackets phrases depth) :=
        hlaid ▸ List.mem_map.mpr ⟨body, hbody, hlay⟩
      obtain ⟨k, hk, hfault'⟩ := List.mem_map.mp hmem
      exact Or.inl ⟨fault, hfault, Or.inr ⟨k, hk, hfault'⟩⟩
    · exact Or.inr ⟨nodes, insides, hnodes, hlaid.trans hinsides, hcontents⟩

/-! ### The forest -/

/-- The entries after those of `table` hold placeholders of entries before them only. -/
def Founded (table new : List Text) : Prop :=
  ∀ i body, new[i]? = some body → Marked body ∧ ∀ k ∈ references body, table.length < k ∧ k ≤ table.length + i

variable {table new : List Text}

theorem entry_append {i : Nat} {body : Text} (h : new[i]? = some body) :
    entry (table ++ new) (table.length + i + 1) = .ok body := by
  have hbody : (table ++ new)[table.length + i]? = some body := by
    rw [List.getElem?_append_right (Nat.le_add_right _ _), Nat.add_sub_cancel_left, h]
  rw [entry, hbody]

theorem length_append_of_mem {k : Nat} (h : table.length < k ∧ k ≤ table.length + new.length) :
    0 < k ∧ k ≤ (table ++ new).length := by
  rw [List.length_append]
  omega

/-- In a text whose placeholders lead to founded entries only phrases can go wrong. -/
theorem layout_of_founded (phrases : Phrase.Tables) (hnew : Founded table new) (h : Marked s)
    (hrefs : ∀ k ∈ references s, table.length < k ∧ k ≤ table.length + new.length) {depth : Nat}
    (hdepth : ∀ k ∈ references s, k ≤ table.length + depth) :
    (∃ fault, layout (table ++ new) phrases (depth + 1) s = .error fault ∧
      ∃ t ∈ s :: new, Unrestorable phrases t fault) ∨
    ∃ nodes, layout (table ++ new) phrases (depth + 1) s = .ok nodes := by
  induction depth using Nat.strongRecOn generalizing s with
  | ind depth ih =>
    rcases layout_cases phrases h (fun k hk => length_append_of_mem (hrefs k hk)) depth with
      ⟨fault, hfault, hphrases | ⟨k, hk, hlaid⟩⟩ | ⟨nodes, -, hnodes, -⟩
    · exact Or.inl ⟨fault, hfault, s, List.mem_cons_self, hphrases⟩
    · refine Or.inl ⟨fault, hfault, ?_⟩
      obtain ⟨hlow, hhigh⟩ := hrefs k hk
      have hle := hdepth k hk
      obtain ⟨i, rfl⟩ : ∃ i, k = table.length + i + 1 := ⟨k - table.length - 1, by omega⟩
      obtain ⟨d, rfl⟩ : ∃ d, depth = d + 1 := ⟨depth - 1, by omega⟩
      have hbody : new[i]? = some new[i] := List.getElem?_eq_getElem (by omega)
      obtain ⟨hmarked, hsmaller⟩ := hnew i _ hbody
      rw [laid, entry_append hbody] at hlaid
      have hwithin : ∀ j ∈ references new[i], table.length < j ∧ j ≤ table.length + new.length := fun j hj => by
        have := hsmaller j hj
        omega
      have hdepth' : ∀ j ∈ references new[i], j ≤ table.length + d := fun j hj => by
        have := hsmaller j hj
        omega
      rcases ih d (Nat.lt_succ_self d) hmarked hwithin hdepth' with ⟨fault', hfault', t, ht, hphrases⟩ | ⟨nodes, hnodes⟩
      · obtain rfl : fault' = fault := Except.error.inj (hfault'.symm.trans hlaid)
        refine ⟨t, List.mem_cons_of_mem s ?_, hphrases⟩
        rcases List.mem_cons.mp ht with rfl | ht
        · exact List.mem_of_getElem? hbody
        · exact ht
      · cases hnodes.symm.trans hlaid
    · exact Or.inr ⟨nodes, hnodes⟩

theorem lt_of_mem_references (hnew : Founded table new) {es : List Text} (hes : es <+: new) {k : Nat}
    (hk : k ∈ es.flatMap references) : k < table.length + es.length := by
  obtain ⟨body, hbody, hk⟩ := List.mem_flatMap.mp hk
  obtain ⟨i, hi⟩ := List.mem_iff_getElem?.mp hbody
  have hlt := (List.getElem?_eq_some_iff.mp hi).1
  have hle := ((hnew i body (Bracket.getElem?_of_extended hes hi)).2 k hk).2
  omega

/-- The last entry of a forest has its placeholder outside the entries. -/
theorem exists_eq_append_last (hnew : Founded table new) {es : List Text} {body : Text} (hes : es ++ [body] <+: new)
    {ks : List Nat} (hperm : (ks ++ (es ++ [body]).flatMap references).Perm
      (List.range' (table.length + 1) (es ++ [body]).length)) :
    ∃ before after, ks = before ++ (table.length + es.length + 1) :: after ∧
      (before ++ references body ++ after ++ es.flatMap references).Perm (List.range' (table.length + 1) es.length) := by
  have hlength : (es ++ [body]).length = es.length + 1 := by simp
  have hrange : table.length + es.length + 1 ∈ List.range' (table.length + 1) (es ++ [body]).length := by
    rw [List.mem_range'_1]
    omega
  have hroot : table.length + es.length + 1 ∈ ks := by
    refine (List.mem_append.mp (hperm.mem_iff.mpr hrange)).resolve_right fun hmem => ?_
    have hlt := lt_of_mem_references hnew hes hmem
    omega
  obtain ⟨before, after, rfl⟩ := List.append_of_mem hroot
  refine ⟨before, after, rfl, List.perm_iff_count.mpr fun k => ?_⟩
  have hcount := hperm.count_eq k
  rw [hlength, List.range'_1_concat, Nat.add_right_comm table.length 1 es.length] at hcount
  simp only [List.flatMap_append, List.flatMap_singleton, List.count_append, List.count_cons, List.count_nil]
    at hcount ⊢
  omega

/-- A group laid out, with the groups inside it taken for those of its own. -/
theorem perm_flatMap_unfolded (first last : List (List ClosedNode)) {inner : List (List ClosedNode)}
    {nodes : List ClosedNode} (hcontents : contents nodes = inner.flatMap unfolded) :
    ((first ++ nodes :: last).flatMap unfolded).Perm ((first ++ inner ++ last).flatMap unfolded ++ [nodes]) := by
  simp only [List.flatMap_append, List.flatMap_cons, unfolded, hcontents, List.cons_append, List.append_assoc]
  refine .append_left _ ?_
  rw [← List.append_assoc]
  exact (List.perm_append_singleton _ _).symm

/-- Laying out placeholders of a forest uses each of its entries once. -/
theorem perm_unfolded (hnew : Founded table new) {es : List Text} (hes : es <+: new) {ks : List Nat}
    {insides : List (List ClosedNode)}
    (hperm : (ks ++ es.flatMap references).Perm (List.range' (table.length + 1) es.length))
    (hks : ks.map (laid (table ++ new) phrases (depth + 1)) = insides.map .ok) :
    ((insides.flatMap unfolded).map Except.ok).Perm (es.map (layout (table ++ new) phrases (depth + 1))) := by
  -- From the last entry: it is one of those laid out, and the placeholders inside it take the place of its own.
  induction es using List.reverseRecOn generalizing ks insides with
  | nil =>
    obtain ⟨rfl, -⟩ := List.append_eq_nil_iff.mp hperm.eq_nil
    obtain rfl := List.map_eq_nil_iff.mp hks.symm
    exact .refl _
  | append_singleton es body ih =>
    obtain ⟨before, after, rfl, hleft⟩ := exists_eq_append_last hnew hes hperm
    have hbody : new[es.length]? = some body := Bracket.getElem?_of_extended hes (by simp)
    obtain ⟨hmarked, hsmaller⟩ := hnew _ _ hbody
    have hwithin : ∀ k ∈ references body, 0 < k ∧ k ≤ (table ++ new).length := fun k hk => by
      have hlength : es.length < new.length := (List.getElem?_eq_some_iff.mp hbody).1
      have hk := hsmaller k hk
      exact length_append_of_mem (by omega)
    rw [List.map_append, List.map_cons, laid, entry_append hbody] at hks
    obtain ⟨first, rest, rfl, hfirst, hrest⟩ := List.map_eq_append_iff.mp hks.symm
    obtain ⟨nodes, last, rfl, hnodes, hlast⟩ := List.map_eq_cons_iff.mp hrest
    rcases layout_cases phrases hmarked hwithin depth with
      ⟨fault, hfault, -⟩ | ⟨nodes', inner, hnodes', hinner, hcontents⟩
    · cases hfault.symm.trans hnodes.symm
    · obtain rfl : nodes' = nodes := Except.ok.inj (hnodes'.symm.trans hnodes.symm)
      have hroots : (before ++ references body ++ after).map (laid (table ++ new) phrases (depth + 1)) =
          (first ++ inner ++ last).map .ok := by
        rw [List.map_append, List.map_append, List.map_append, List.map_append, hfirst, map_laid_mono hinner, hlast]
      have hes' : es <+: new := (List.prefix_append es [body]).trans hes
      have hunfolded := (perm_flatMap_unfolded first last hcontents).map
        (Except.ok : List ClosedNode → Except LookupFault (List ClosedNode))
      rw [List.map_append, List.map_singleton] at hunfolded ⊢
      rw [hnodes']
      exact hunfolded.trans ((ih hes' hleft hroots).append_right _)

/-! ### Collapsed text -/

open SearchQuery.Bracket (collapse step)

/-- What a text without full-width brackets is collapsed to has a forest of placeholders. -/
theorem founded_collapse (hplain : ∀ c ∈ s, c ≠ '（' ∧ c ≠ '）') (hnew : (collapse table s).2 = table ++ new) :
    Marked (collapse table s).1 ∧ Founded table new ∧
      (references (collapse table s).1 ++ new.flatMap references).Perm (List.range' (table.length + 1) new.length) := by
  have hwidth : ∀ c ∈ s, isFullWidthBracket c = false := fun c hc => by simp [isFullWidthBracket, hplain c hc]
  obtain ⟨hmarked, hnone⟩ := Marked.of_plain hwidth
  have hrefs : ∀ k ∈ references s, k ≤ table.length := by simp [hnone]
  obtain ⟨new', hnew', hmarked', hperm, hentries⟩ := hmarked.collapsed hrefs
  obtain rfl : new' = new := List.append_cancel_left (hnew'.symm.trans hnew)
  rw [hnone, List.nil_append] at hperm
  refine ⟨hmarked', fun i body hbody => ?_, hperm⟩
  obtain ⟨hbodyMarked, hsmaller⟩ := hentries i body hbody
  refine ⟨hbodyMarked, fun k hk => ⟨?_, hsmaller k hk⟩⟩
  have hmem : k ∈ new'.flatMap references := List.mem_flatMap.mpr ⟨body, List.mem_of_getElem? hbody, hk⟩
  exact (List.mem_range'_1.mp (hperm.subset (List.mem_append_right _ hmem))).1

/-- Whatever text and table it starts from, collapsing ends: the loop makes as many changing passes as there are opening
    brackets, at most, and one that changes nothing. The table keeps its entries, and the new ones are texts between
    brackets that are not blank; no opening bracket is left before a closing one. From a text without full-width brackets
    it makes a forest: every new entry has one placeholder in the text and the new entries, which hold no others, and one
    inside an entry leads to an entry before it. So with more depth than there are new entries the layout of the text
    ends, with each new entry laid out once as a group, unless phrases in it cannot be restored. -/
theorem collapse_forest (table : List Text) (s : Text) :
    ∃ t new, collapse table s = (t, table ++ new) ∧
      (∃ n ≤ s.count '(', step^[n] (s, table) = (t, table ++ new)) ∧ step (t, table ++ new) = (t, table ++ new) ∧
      (∀ x y, t = x ++ '(' :: y → ')' ∉ y) ∧ (∀ body ∈ new, body.notBlank = true ∧ '(' ∉ body ∧ ')' ∉ body) ∧
      ((∀ c ∈ s, c ≠ '（' ∧ c ≠ '）') →
        (references t ++ new.flatMap references).Perm (List.range' (table.length + 1) new.length) ∧
        (∀ i body, new[i]? = some body → ∀ k ∈ references body, k < table.length + i + 1) ∧
        ∀ phrases depth, new.length < depth →
          (∃ fault, layout (table ++ new) phrases depth t = .error fault ∧ ∃ u ∈ t :: new, Unrestorable phrases u fault) ∨
          ∃ nodes, layout (table ++ new) phrases depth t = .ok nodes ∧
            ((contents nodes).map Except.ok).Perm (new.map (layout (table ++ new) phrases depth))) := by
  obtain ⟨⟨n, hn, hiterate⟩, hlast⟩ := Bracket.exists_iterate_eq table s
  obtain ⟨hsettled, new, hnew, hentries⟩ := Bracket.exists_collapse_eq table s
  have hcollapse : collapse table s = ((collapse table s).1, table ++ new) := Prod.ext rfl hnew
  refine ⟨(collapse table s).1, new, hcollapse, ⟨n, hn, hiterate ▸ hcollapse⟩, hcollapse ▸ hlast, hsettled, hentries,
    fun hplain => ?_⟩
  obtain ⟨hmarked, hfounded, hperm⟩ := founded_collapse hplain hnew
  have hwithin : ∀ k ∈ references (collapse table s).1, table.length < k ∧ k ≤ table.length + new.length := fun k hk => by
    have hrange := List.mem_range'_1.mp (hperm.subset (List.mem_append_left _ hk))
    omega
  refine ⟨hperm, fun i body hbody k hk => Nat.lt_succ_of_le ((hfounded i body hbody).2 k hk).2, ?_⟩
  intro phrases depth hdepth
  obtain ⟨d, rfl⟩ : ∃ d, depth = d + 1 := ⟨depth - 1, by omega⟩
  have hbound : ∀ k ∈ references (collapse table s).1, k ≤ table.length + d := fun k hk => by
    have := hwithin k hk
    omega
  rcases layout_of_founded phrases hfounded hmarked hwithin hbound with hfault | ⟨nodes, hnodes⟩
  · exact Or.inl hfault
  refine Or.inr ⟨nodes, hnodes, ?_⟩
  rcases layout_cases phrases hmarked (fun k hk => length_append_of_mem (hwithin k hk)) d with
    ⟨fault, hfault, -⟩ | ⟨nodes', insides, hnodes', hinsides, hcontents⟩
  · cases hfault.symm.trans hnodes
  · obtain rfl : nodes' = nodes := Except.ok.inj (hnodes'.symm.trans hnodes)
    rw [hcontents]
    exact perm_unfolded hfounded (List.prefix_refl new) hperm (map_laid_mono hinsides)

/-- A pair in a pair next to one around blanks, a negated pair, brackets without a partner, and a table whose old entry
    leads to itself. -/
theorem collapse_forest_nested :
    collapse ["（1）".toList] "(a (b)( )) -(c)) (".toList =
        ("（4） -（3）) (".toList, ["（1）".toList] ++ ["b".toList, "c".toList, "a （2）".toList]) ∧
      (references "（4） -（3）) (".toList ++ ["b".toList, "c".toList, "a （2）".toList].flatMap references).Perm [2, 3, 4] ∧
      ∃ nodes, layout (["（1）".toList] ++ ["b".toList, "c".toList, "a （2）".toList]) {} 4 "（4） -（3）) (".toList = .ok nodes ∧
        ((contents nodes).map Except.ok).Perm (["b".toList, "c".toList, "a （2）".toList].map
          (layout (["（1）".toList] ++ ["b".toList, "c".toList, "a （2）".toList]) {} 4)) := by
  have hcollapse : collapse ["（1）".toList] "(a (b)( )) -(c)) (".toList =
      ("（4） -（3）) (".toList, ["（1）".toList] ++ ["b".toList, "c".toList, "a （2）".toList]) := by
    decide +kernel
  obtain ⟨t, new, heq, -, -, -, -, hforest⟩ := collapse_forest ["（1）".toList] "(a (b)( )) -(c)) (".toList
  obtain ⟨hperm, -, hlayout⟩ := hforest (List.all_iff_forall_prop.mp (by decide))
  obtain ⟨rfl, hnew⟩ := Prod.mk.inj (hcollapse.symm.trans heq)
  obtain rfl := List.append_cancel_left hnew
  refine ⟨hcollapse, hperm, (hlayout {} 4 (by decide)).resolve_left fun herror => ?_⟩
  obtain ⟨fault, hfault, -⟩ := herror
  have hok : (layout (["（1）".toList] ++ ["b".toList, "c".toList, "a （2）".toList]) {} 4 "（4） -（3）) (".toList).isOk := by
    decide +kernel
  rw [hfault] at hok
  cases hok

end SearchQuery.Layer
