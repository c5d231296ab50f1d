import SearchQuery.Proofs.Bracket.Matched
import SearchQuery.Proofs.Query.Interchange

/-! Brackets around nothing. A pair of brackets with nothing but blanks between them is deleted and leaves nothing in its
    place, so a query without quotes is read as if its parts before and after the pair had been typed without a gap
    (`Query.parse_of_deletes`). That is the same as a space between them where one of the parts has a blank at the gap or
    is empty (`Query.parse_space`); elsewhere the pair joins what stands on its sides. -/

namespace SearchQuery

open SearchQuery.Bracket (IsOpen IsClose DeletesBlankPair)
open Text (Blank AtBlank)

/-- A pair around blanks is still one when characters that are no brackets are taken out of the text. -/
theorem Bracket.DeletesBlankPair.filter {s t : Text} (h : DeletesBlankPair s t) {p : Char → Bool}
    (hopen : ∀ o, IsOpen o → p o = true) (hclose : ∀ c, IsClose c → p c = true) :
    DeletesBlankPair (s.filter p) (t.filter p) := by
  obtain ⟨x, o, blanks, c, y, ho, hc, hblank, rfl, rfl⟩ := h
  refine ⟨x.filter p, o, blanks.filter p, c, y.filter p, ho, hc, ?_, ?_, List.filter_append x y⟩
  · rw [Text.notBlank_eq_false_iff] at hblank ⊢
    exact fun d hd => hblank d (List.mem_filter.mp hd).1
  · rw [List.filter_append, List.filter_cons_of_pos (hopen o ho), List.filter_append,
      List.filter_cons_of_pos (hclose c hc)]

namespace Query

variable {p q s t : Text}

theorem Quoteless.of_deletes (hs : Quoteless s) (h : DeletesBlankPair s t) : Quoteless t := by
  obtain ⟨x, o, blanks, c, y, -, -, -, rfl, rfl⟩ := h
  have hlater : Quoteless ([o] ++ (blanks ++ ([c] ++ y))) := hs.of_append.2
  exact hs.of_append.1.append hlater.of_append.2.of_append.2.of_append.2

/-- Deleting a pair of brackets around blanks from a query changes nothing. -/
theorem parse_of_deletes (settings : Settings) (hs : Quoteless s) (h : DeletesBlankPair s t) :
    parse settings s = parse settings t := by
  have hvisible := h.filter (p := fun c => !Phrase.isMark c) (by rintro o (rfl | rfl) <;> rfl)
    (by rintro c (rfl | rfl) <;> rfl)
  have hnest := Bracket.nestOf_of_deletes hvisible
  rw [Bracket.nestOf, Bracket.nestOf, Bracket.atomsOf_eq, Bracket.atomsOf_eq] at hnest
  rw [parse_of_quoteless settings hs, parse_of_quoteless settings (hs.of_deletes h), visible, visible, Layer.nest,
    Layer.nest, hnest]

/-- A space more where there are blanks already, or at an end of the query, changes nothing. -/
theorem parse_space (settings : Settings) (hp : Quoteless p) (hq : Quoteless q)
    (hgap : p = [] ∨ p.endsBlank = true ∨ AtBlank q) : parse settings (p ++ ' ' :: q) = parse settings (p ++ q) := by
  have hspace : Blank [' '] := by decide
  have hnone : Blank [] := by decide
  rcases hgap with rfl | hp' | hq'
  · have hmargins := parse_margins settings hspace hnone q
    rwa [List.append_nil] at hmargins
  · rcases List.eq_nil_or_concat' p with rfl | ⟨earlier, c, rfl⟩
    · exact absurd hp' (by decide)
    · rw [Text.endsBlank, List.getLast?_concat] at hp'
      have hc : Blank [c] := fun d hd => List.mem_singleton.mp hd ▸ hp'
      have hc' : Blank [c, ' '] := List.forall_mem_cons.mpr ⟨hp', hspace⟩
      have hmore := parse_blanks settings hp.of_append.1 hq hc' hc (by simp) (by simp)
      rwa [List.append_cons, List.append_assoc] at hmore
  · cases q with
    | nil =>
      rw [List.append_nil]
      exact parse_margins settings hnone hspace p
    | cons d later =>
      have hd : isBlank d = true := hq' d rfl
      have hd' : Blank [' ', d] := List.forall_mem_cons.mpr ⟨rfl, fun e he => List.mem_singleton.mp he ▸ hd⟩
      have hlater : Quoteless later := Quoteless.of_append (x := [d]) hq |>.2
      have hmore := parse_blanks settings hp hlater hd' (fun e he => List.mem_singleton.mp he ▸ hd) (by simp) (by simp)
      rwa [List.append_assoc, List.append_assoc] at hmore

/-- A pair of brackets around blanks is read as nothing at all, which is as good as a space where a blank adjoins it. -/
theorem parse_blank_pair (settings : Settings) (hp : Quoteless p) (hq : Quoteless q) {w : Text} (hw : Blank w) :
    ∃ c, parse settings (p ++ '(' :: (w ++ ')' :: q)) = .ok c ∧ parse settings (p ++ q) = .ok c ∧
      (p = [] ∨ p.endsBlank = true ∨ AtBlank q → parse settings (p ++ ' ' :: q) = .ok c) := by
  have hbrackets : Quoteless (['('] ++ (w ++ ([')'] ++ q))) :=
    Quoteless.append (by decide) ((quoteless_of_blank hw).append (Quoteless.append (by decide) hq))
  have hdelete : parse settings (p ++ '(' :: (w ++ ')' :: q)) = parse settings (p ++ q) :=
    parse_of_deletes settings (hp.append hbrackets)
      ⟨p, '(', w, ')', q, Or.inl rfl, Or.inl rfl, Text.notBlank_eq_false_iff.mpr hw, rfl, rfl⟩
  refine ⟨_, hdelete.trans (parse_eq settings (p ++ q)), parse_eq settings (p ++ q), fun hgap => ?_⟩
  exact (parse_space settings hp hq hgap).trans (parse_eq settings (p ++ q))

/-- With a space on one side the pair does not join the dash to the group after it. -/
theorem parse_blank_pair_dash :
    ∃ c, parse {} "a -( ) (b)".toList = .ok c ∧ parse {} "a - (b)".toList = .ok c ∧
      parse {} "a -  (b)".toList = .ok c := by
  obtain ⟨c, hpair, hnone, hspace⟩ :=
    parse_blank_pair {} (p := "a -".toList) (q := " (b)".toList) (by decide) (by decide) (w := [' ']) (by decide)
  exact ⟨c, hpair, hnone, hspace (Or.inr (Or.inr (Text.atBlank_space _)))⟩

/-- Between two words the pair joins them, where a space would not. -/
theorem not_parse_blank_pair :
    ¬∀ (settings : Settings) (p q w : Text), Quoteless p → Quoteless q → Blank w →
      ∃ c, parse settings (p ++ '(' :: (w ++ ')' :: q)) = .ok c ∧ parse settings (p ++ ' ' :: q) = .ok c := by
  intro hall
  obtain ⟨c, hpair, hspace⟩ := hall {} ['a'] ['b'] [] (by decide) (by decide) (by decide)
  have hne : (parse {} "a()b".toList).toOption ≠ (parse {} "a b".toList).toOption := by decide +kernel
  exact hne (congrArg Except.toOption (hpair.trans hspace.symm))

end Query
end SearchQuery
