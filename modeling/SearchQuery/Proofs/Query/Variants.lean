import SearchQuery.Proofs.Query.Interchange

/-! Lexical variants. Which blanks separate the words of a query without quotes, and how its connectives are spelled, does
    not change what it asks for (`Query.parse_variant`). One run of blanks or one connective at a time is put in place of
    another; a connective at an end of the query is taken with a blank that is put there first. -/

namespace SearchQuery

open Text (Blank AtBlank Severable SameWords)

/-! ### Spellings -/

namespace Connective

/-- A spelling is made of the letters of the connective. -/
theorem mem_letters_of_spells {op : Connective} {w : Text} (hw : op.spells w = true) : ∀ c ∈ w, c ∈ op.letters.flatten := by
  have hmem : ∀ {ls : List Text} {v : Text}, List.Forall₂ (fun forms c => c ∈ forms) ls v → ∀ c ∈ v, c ∈ ls.flatten := by
    intro ls v h
    induction h with
    | nil => simp
    | cons hc _ ih =>
      rw [List.flatten_cons]
      exact List.forall_mem_cons.mpr
        ⟨List.mem_append_left _ hc, fun d hd => List.mem_append_right _ (ih d hd)⟩
  exact hmem (spelledBy_iff_forall₂.mp hw)

/-- No letter of a connective is a blank, a quote, a bracket or a mark, or a symbol that has an ASCII form. -/
theorem plain_of_spells {op : Connective} {w : Text} (hw : op.spells w = true) : ∀ c ∈ w,
    (isBlank c = false ∧ c ≠ '"' ∧ c ≠ '”') ∧ Nest.isBracket (.char c) = false ∧ Phrase.isMark c = false ∧
      Text.normalizeSymbol c = c := by
  have hletters : ∀ c ∈ op.letters.flatten, (isBlank c = false ∧ c ≠ '"' ∧ c ≠ '”') ∧
      Nest.isBracket (.char c) = false ∧ Phrase.isMark c = false ∧ Text.normalizeSymbol c = c :=
    List.all_iff_forall_prop.mp (by cases op <;> decide)
  exact fun c hc => hletters c (mem_letters_of_spells hw c hc)

theorem ne_nil_of_spells {op : Connective} {w : Text} (hw : op.spells w = true) : w ≠ [] := by
  rintro rfl
  cases op <;> cases hw

end Connective

namespace Query

variable {x y w w' : Text} {op : Connective}

theorem quoteless_of_spells (hw : op.spells w = true) : Quoteless w :=
  fun c hc => (Connective.plain_of_spells hw c hc).1.2

theorem visible_of_spells (hw : op.spells w = true) : visible w = w := by
  have hplain := Connective.plain_of_spells hw
  have hfilter : w.filter (fun c => !Phrase.isMark c) = w :=
    List.filter_eq_self.mpr fun c hc => by rw [(hplain c hc).2.2.1]; rfl
  rw [visible, hfilter]
  exact (List.map_congr_left fun c hc => (hplain c hc).2.2.2).trans (List.map_id w)

/-- A spelling between two blanks can be cut out, and is its only word. -/
theorem severable_of_spells (hw : op.spells w = true) {c d : Char} (hc : isBlank c = true) (hd : isBlank d = true) :
    Severable (c :: (w ++ [d])) ∧ Text.words (c :: (w ++ [d])) = [w] := by
  have hplain := Connective.plain_of_spells hw
  have hblank : ∀ e, isBlank e = true → Nest.isBracket (.char e) = false ∧ e ≠ '"' ∧ Phrase.isMark e = false :=
    fun e he => (severable_of_blank (b := [e]) (by simpa [Blank] using he) (by simp)).plain e List.mem_cons_self
  refine ⟨⟨hc, ?_, fun e he => ?_⟩, ?_⟩
  · rw [Text.endsBlank, ← List.cons_append, List.getLast?_concat]
    exact hd
  · rcases List.mem_cons.mp he with rfl | he
    · exact hblank _ hc
    · rcases List.mem_append.mp he with he | he
      · exact ⟨(hplain e he).2.1, (hplain e he).1.2.1, (hplain e he).2.2.1⟩
      · exact List.mem_singleton.mp he ▸ hblank d hd
  · rw [Text.words_cons_blank hc, Text.words_append_blank w hd,
      Text.words_word (Connective.ne_nil_of_spells hw) fun e he => (hplain e he).1.1]

/-- Spellings of a connective between blanks can be put for each other. -/
theorem parse_spellings_between (settings : Settings) (hx : Quoteless x) (hy : Quoteless y) (hw : op.spells w = true)
    (hw' : op.spells w' = true) {c d : Char} (hc : isBlank c = true) (hd : isBlank d = true) :
    parse settings (x ++ c :: (w ++ d :: y)) = parse settings (x ++ c :: (w' ++ d :: y)) := by
  have hc' : isBlank (Text.normalizeSymbol c) = true := (Text.isBlank_normalizeSymbol c).trans hc
  have hd' : isBlank (Text.normalizeSymbol d) = true := (Text.isBlank_normalizeSymbol d).trans hd
  have hvisible : ∀ {v : Text}, op.spells v = true →
      visible (c :: (v ++ [d])) = Text.normalizeSymbol c :: (v ++ [Text.normalizeSymbol d]) := fun hv => by
    have hone : ∀ e, isBlank e = true → visible [e] = [Text.normalizeSymbol e] := fun e he =>
      visible_of_blank (by simpa [Blank] using he)
    rw [← List.singleton_append, visible_append, visible_append, hone c hc, hone d hd, visible_of_spells hv]
    rfl
  have hquoteless : ∀ {v : Text}, op.spells v = true → Quoteless (c :: (v ++ [d])) := fun hv => by
    have hone : ∀ e, isBlank e = true → Quoteless [e] := fun e he => quoteless_of_blank (by simpa [Blank] using he)
    exact (hone c hc).append ((quoteless_of_spells hv).append (hone d hd))
  have hsplit : ∀ v : Text, x ++ c :: (v ++ d :: y) = x ++ (c :: (v ++ [d])) ++ y := fun v => by simp
  rw [hsplit, hsplit]
  refine parse_interchange settings hx hy (hquoteless hw) (hquoteless hw') ?_ ?_ ?_
  · rw [hvisible hw]
    exact (severable_of_spells hw hc' hd').1
  · rw [hvisible hw']
    exact (severable_of_spells hw' hc' hd').1
  · rw [hvisible hw, hvisible hw', SameWords, (severable_of_spells hw hc' hd').2, (severable_of_spells hw' hc' hd').2]
    exact .cons (@Word.same_of_spells op (.term w) (.term w') hw hw') .nil

/-- A connective with an end of the query or a blank on either side can be spelled in any way. -/
theorem parse_spellings (settings : Settings) (hx : Quoteless x) (hy : Quoteless y) (hw : op.spells w = true)
    (hw' : op.spells w' = true) (hbefore : x = [] ∨ x.endsBlank = true) (hafter : AtBlank y) :
    parse settings (x ++ w ++ y) = parse settings (x ++ w' ++ y) := by
  have hspace : Blank [' '] := by decide
  obtain ⟨z, c, hz, hc⟩ : ∃ z c, ' ' :: x = z ++ [c] ∧ isBlank c = true := by
    rcases hbefore with rfl | hblank
    · exact ⟨[], ' ', rfl, rfl⟩
    · rcases List.eq_nil_or_concat' x with rfl | ⟨earlier, c, rfl⟩
      · exact absurd hblank (by decide)
      · rw [Text.endsBlank, List.getLast?_concat] at hblank
        exact ⟨' ' :: earlier, c, rfl, hblank⟩
  obtain ⟨d, later, hlater, hd⟩ : ∃ d later, y ++ [' '] = d :: later ∧ isBlank d = true := by
    cases y with
    | nil => exact ⟨' ', [], rfl, rfl⟩
    | cons d y => exact ⟨d, y ++ [' '], rfl, hafter d rfl⟩
  have hqz : Quoteless z := by
    have hquoteless := (quoteless_of_blank hspace).append hx
    rw [List.singleton_append, hz] at hquoteless
    exact hquoteless.of_append.1
  have hql : Quoteless later := by
    have hquoteless := hy.append (quoteless_of_blank hspace)
    rw [hlater, ← List.singleton_append] at hquoteless
    exact hquoteless.of_append.2
  -- With a space at either end, blanks stand on both sides of the connective.
  have hmargins : ∀ v : Text, parse settings (x ++ v ++ y) = parse settings (z ++ c :: (v ++ d :: later)) := fun v => by
    have hsplit : z ++ c :: (v ++ d :: later) = [' '] ++ (x ++ v ++ y) ++ [' '] := by
      calc
        z ++ c :: (v ++ d :: later) = (z ++ [c]) ++ (v ++ (d :: later)) := by simp
        _ = [' '] ++ (x ++ v ++ y) ++ [' '] := by
          rw [← hz, ← hlater]
          simp
    rw [hsplit, parse_margins settings hspace hspace]
  rw [hmargins, hmargins, parse_spellings_between settings hqz hql hw hw' hc hd]

/-! ### Variants of a query -/

/-- The second text is the first with its runs of blanks replaced by others, and with its connectives, as far as blanks
    or the ends of the text stand on both sides of them, spelled in another way. -/
inductive Variant : Text → Text → Prop where
  | nil : Variant [] []
  | blanks {b b' s s' : Text} (hb : Blank b) (hb' : Blank b') (hne : b ≠ []) (hne' : b' ≠ []) (h : Variant s s') :
      Variant (b ++ s) (b' ++ s')
  | word {w s s' : Text} (hw : ∀ c ∈ w, isBlank c = false) (hs : AtBlank s) (h : Variant s s') :
      Variant (w ++ s) (w ++ s')
  | connective {op : Connective} {w w' s s' : Text} (hw : op.spells w = true) (hw' : op.spells w' = true)
      (hs : AtBlank s) (h : Variant s s') : Variant (w ++ s) (w' ++ s')

/-- Every text falls into blanks and words. -/
theorem Variant.refl (s : Text) : Variant s s := by
  induction s using Text.byWords with
  | nil => exact .nil
  | blank c s hc ih =>
    have hb : Blank [c] := fun d hd => List.mem_singleton.mp hd ▸ hc
    exact .blanks hb hb (List.cons_ne_nil c []) (List.cons_ne_nil c []) ih
  | word w s _ hw hs ih => exact .word hw hs ih

/-- A variant can be put for a query after any text, if blanks keep it apart from that text. -/
theorem parse_append_variant (settings : Settings) {s t : Text} (h : Variant s t) (hs : Quoteless s) (hx : Quoteless x)
    (hapart : (x = [] ∨ x.endsBlank = true) ∨ AtBlank s) : parse settings (x ++ s) = parse settings (x ++ t) := by
  -- What has been replaced so far is the text before.
  induction h generalizing x with
  | nil => rfl
  | @blanks b b' s s' hb hb' hne hne' _ ih =>
    have hlater : parse settings (x ++ b' ++ s) = parse settings (x ++ b' ++ s') :=
      ih hs.of_append.2 (hx.append (quoteless_of_blank hb')) (Or.inl (Or.inr ?_))
    · rw [← List.append_assoc, parse_blanks settings hx hs.of_append.2 hb hb' hne hne', hlater, List.append_assoc]
    · rw [Text.endsBlank_append_of_ne_nil x hne']
      exact (severable_of_blank hb' hne').endsBlank
  | @word w s s' _ hblank _ ih =>
    have hlater := ih hs.of_append.2 (hx.append hs.of_append.1) (Or.inr hblank)
    rwa [List.append_assoc, List.append_assoc] at hlater
  | @connective op w w' s s' hw hw' hblank _ ih =>
    have hbefore : x = [] ∨ x.endsBlank = true := hapart.resolve_right fun hword => by
      obtain ⟨c, w, rfl⟩ := List.exists_cons_of_ne_nil (Connective.ne_nil_of_spells hw)
      have hc := (Connective.plain_of_spells hw c List.mem_cons_self).1.1
      rw [hword c rfl] at hc
      cases hc
    have hlater : parse settings (x ++ w' ++ s) = parse settings (x ++ w' ++ s') :=
      ih hs.of_append.2 (hx.append (quoteless_of_spells hw')) (Or.inr hblank)
    rw [← List.append_assoc, parse_spellings settings hx hs.of_append.2 hw hw' hbefore hblank, hlater, List.append_assoc]

/-- A query without quotes asks for the same as each of its variants. -/
theorem parse_variant (settings : Settings) {query variant : Text} (hquery : Quoteless query)
    (h : Variant query variant) : ∃ c, parse settings query = .ok c ∧ parse settings variant = .ok c := by
  have hsame : parse settings query = parse settings variant :=
    parse_append_variant settings h hquery (x := []) (by simp [Quoteless]) (Or.inl (Or.inl rfl))
  exact ⟨_, parse_eq settings query, hsame.symm.trans (parse_eq settings query)⟩

/-- An AND and an OR spelled in other letters, and other blanks around them. -/
theorem parse_variant_spellings :
    ∃ c, parse {} "a and (b OR c)".toList = .ok c ∧ parse {} "a\tＡnD\n(b or \u3000c)".toList = .ok c := by
  have hspace : Blank [' '] := by decide
  have hand : Connective.and.spells ['a', 'n', 'd'] = true ∧ Connective.and.spells ['Ａ', 'n', 'D'] = true := by decide
  have hor : Connective.or.spells ['O', 'R'] = true ∧ Connective.or.spells ['o', 'r'] = true := by decide
  have hlater : Variant ([' '] ++ (['O', 'R'] ++ ([' '] ++ ['c', ')'])))
      ([' '] ++ (['o', 'r'] ++ ([' ', '\u3000'] ++ ['c', ')']))) :=
    .blanks hspace hspace (by decide) (by decide) (.connective hor.1 hor.2 (Text.atBlank_space _)
      (.blanks hspace (by decide) (by decide) (by decide) (.refl _)))
  have hgroup : Variant ([' '] ++ (['a', 'n', 'd'] ++ ([' '] ++ (['(', 'b'] ++ _))))
      (['\t'] ++ (['Ａ', 'n', 'D'] ++ (['\n'] ++ (['(', 'b'] ++ _)))) :=
    .blanks hspace (by decide) (by decide) (by decide) (.connective hand.1 hand.2 (Text.atBlank_space _)
      (.blanks hspace (by decide) (by decide) (by decide)
        (.word (List.all_iff_forall_prop.mp (by decide)) (Text.atBlank_space _) hlater)))
  exact parse_variant {} (by decide)
    (.word (w := ['a']) (List.all_iff_forall_prop.mp (by decide)) (Text.atBlank_space _) hgroup)

end Query
end SearchQuery
