import SearchQuery.Proofs.Segment.Words
import SearchQuery.Proofs.Phrase.Typed
import SearchQuery.Proofs.Condition.Leaves

/-! The grammar of a segment. What a segment asks for is read off its words: the alternatives are the runs of
    words between words OR, and each asks for all of its words (`Segment.ofText_eq`). A word AND has no part in
    this; it counts only for the connectives at the ends, where it hides none if it stands between blanks. -/

namespace SearchQuery

namespace Word

/-! ### Runs of words -/

/-- What the words ask for, in runs cut at the words OR. -/
def runs (ws : List Word) : List (List ClosedCondition) :=
  (ws.splitOnP (spells .or)).map (List.filterMap condition?)

@[simp] theorem runs_nil : runs [] = [[]] := rfl

theorem runs_cons (w : Word) (ws : List Word) :
    runs (w :: ws) = if w.spells .or then [] :: runs ws else (runs ws).modifyHead (w.condition?.toList ++ ·) := by
  rw [runs, runs, List.splitOnP_cons_eq_if_modifyHead]
  split
  · rfl
  · cases ws.splitOnP (spells .or) with
    | nil => rfl
    | cons run later =>
      rw [List.modifyHead_cons, List.map_cons, List.map_cons, List.modifyHead_cons, List.filterMap_cons]
      cases w.condition? <;> rfl

theorem runs_ne_nil (ws : List Word) : runs ws ≠ [] := by
  rw [runs, Ne, List.map_eq_nil_iff]
  exact List.splitOnP_ne_nil _ _

theorem runs_cons_of_or {w : Word} (h : w.spells .or = true) (ws : List Word) : runs (w :: ws) = [] :: runs ws := by
  rw [runs_cons, if_pos h]

/-- A word spells one connective at most: the spellings of two have different lengths. -/
theorem eq_of_spells {op op' : Connective} {w : Word} (h : w.spells op = true) (h' : w.spells op' = true) :
    op = op' := by
  cases w with
  | phrase => cases h
  | term t =>
    rw [spells, Connective.spells, beq_iff_eq] at h h'
    have hlen := Connective.length_of_afterLetters? h
    rw [Connective.length_of_afterLetters? h'] at hlen
    cases op <;> cases op' <;> first | rfl | cases hlen

theorem not_or_of_and {w : Word} (h : w.spells .and = true) : w.spells .or = false := by
  rw [Bool.eq_false_iff]
  intro hor
  cases eq_of_spells h hor

theorem runs_cons_of_and {w : Word} (h : w.spells .and = true) (ws : List Word) : runs (w :: ws) = runs ws := by
  rw [runs_cons, not_or_of_and h, condition?_of_spells h]
  cases runs ws <;> rfl

theorem runs_cons_of_condition? {w : Word} {c : ClosedCondition} (h : w.condition? = some c) (ws : List Word) :
    runs (w :: ws) = (runs ws).modifyHead (c :: ·) := by
  have hor : w.spells .or = false := by
    rw [Bool.eq_false_iff, Ne]
    intro hor
    rw [condition?_of_spells hor] at h
    cases h
  rw [runs_cons, hor, h]
  rfl

theorem mem_runs {ws : List Word} {run : List ClosedCondition} (h : run ∈ runs ws) {c : ClosedCondition}
    (hc : c ∈ run) : ∃ w ∈ ws, w.condition? = some c := by
  induction ws generalizing run with
  | nil =>
    rw [runs_nil, List.mem_singleton] at h
    subst h
    cases hc
  | cons w ws ih =>
    have ih : ∀ {run}, run ∈ runs ws → c ∈ run → ∃ v ∈ w :: ws, v.condition? = some c := fun hrun hc => by
      obtain ⟨v, hv, h⟩ := ih hrun hc
      exact ⟨v, List.mem_cons_of_mem w hv, h⟩
    rw [runs_cons] at h
    split at h
    · rcases List.mem_cons.mp h with rfl | h
      · cases hc
      · exact ih h hc
    · obtain ⟨first, later, hruns⟩ := List.exists_cons_of_ne_nil (runs_ne_nil ws)
      rw [hruns] at h ih
      rcases List.mem_cons.mp h with rfl | h
      · rcases List.mem_append.mp hc with hc | hc
        · exact ⟨w, List.mem_cons_self, by simpa using hc⟩
        · exact ih List.mem_cons_self hc
      · exact ih (List.mem_cons_of_mem _ h) hc

theorem flatten_runs (ws : List Word) : (runs ws).flatten = ws.filterMap condition? := by
  induction ws with
  | nil => rfl
  | cons w ws ih =>
    rw [runs_cons, List.filterMap_cons, ← ih]
    split
    · next h => rw [condition?_of_spells h, List.flatten_cons, List.nil_append]
    · obtain ⟨run, later, h⟩ := List.exists_cons_of_ne_nil (runs_ne_nil ws)
      rw [h]
      cases w.condition? <;> rfl

/-- Words without an OR are one run. -/
theorem runs_of_not_or {ws : List Word} (h : ∀ w ∈ ws, w.spells .or = false) : runs ws = [ws.filterMap condition?] := by
  rw [runs, List.splitOnP_eq_singleton h, List.map_singleton]

/-- Words with an OR between any two that do not connect are alternatives one by one. -/
theorem length_le_one_of_mem_runs {ws : List Word}
    (h : ws.IsChain fun v w => v.spells .or = true ∨ w.spells .or = true) : ∀ run ∈ runs ws, run.length ≤ 1 := by
  induction ws with
  | nil => simp
  | cons w ws ih =>
    have ih := ih h.tail
    intro run hrun
    rw [runs_cons] at hrun
    split at hrun
    · rcases List.mem_cons.mp hrun with rfl | hrun
      · exact Nat.zero_le 1
      · exact ih run hrun
    · next hw =>
      -- The word is alone in its run: the next one, if there is one, is an OR.
      have hfirst : ∃ later, runs ws = [] :: later := by
        cases ws with
        | nil => exact ⟨[], rfl⟩
        | cons v ws =>
          have hv := (List.isChain_cons_cons.mp h).1.resolve_left hw
          exact ⟨_, runs_cons_of_or hv ws⟩
      obtain ⟨later, hlater⟩ := hfirst
      rw [hlater] at hrun ih
      rcases List.mem_cons.mp hrun with rfl | hrun
      · cases w.condition? <;> simp
      · exact ih run (List.mem_cons_of_mem _ hrun)

theorem runs_undelimited (before after : Bool) (ws : List Word) :
    runs (undelimited (spells .and) before after ws) = runs ws := by
  fun_induction undelimited (spells .and) before after ws with
  | case1 => rfl
  | case2 before w h =>
    simp only [Bool.and_eq_true] at h
    rw [runs_cons_of_and h.1.2]
  | case3 => rfl
  | case4 before w v ws h ih =>
    simp only [Bool.and_eq_true] at h
    rw [ih, runs_cons_of_and h.2]
  | case5 before w v ws h ih => rw [runs_cons, runs_cons w, ih]

end Word

/-! ### Cutting along a correspondence -/

theorem forall₂_modifyHead {α β : Type} {R : α → β → Prop} {f : α → α} {g : β → β} {xs : List α} {ys : List β}
    (hfg : ∀ x y, R x y → R (f x) (g y)) (h : List.Forall₂ R xs ys) :
    List.Forall₂ R (xs.modifyHead f) (ys.modifyHead g) := by
  cases h with
  | nil => exact .nil
  | cons hxy h => exact .cons (hfg _ _ hxy) h

theorem forall₂_splitOnP {α β : Type} {R : α → β → Prop} {p : α → Bool} {q : β → Bool}
    (hR : ∀ x y, R x y → p x = q y) {xs : List α} {ys : List β} (h : List.Forall₂ R xs ys) :
    List.Forall₂ (List.Forall₂ R) (xs.splitOnP p) (ys.splitOnP q) := by
  induction h with
  | nil => exact .cons .nil .nil
  | @cons x y xs ys hxy _ ih =>
    rw [List.splitOnP_cons_eq_if_modifyHead, List.splitOnP_cons_eq_if_modifyHead, hR x y hxy]
    split
    · exact .cons .nil ih
    · exact forall₂_modifyHead (fun _ _ h => .cons hxy h) ih

theorem any_head?_of_forall₂ {α β : Type} {R : α → β → Prop} {p : α → Bool} {q : β → Bool}
    (hR : ∀ x y, R x y → p x = q y) {xs : List α} {ys : List β} (h : List.Forall₂ R xs ys) :
    xs.head?.any p = ys.head?.any q := by
  cases h with
  | nil => rfl
  | cons hxy _ => exact hR _ _ hxy

theorem any_getLast?_of_forall₂ {α β : Type} {R : α → β → Prop} {p : α → Bool} {q : β → Bool}
    (hR : ∀ x y, R x y → p x = q y) {xs : List α} {ys : List β} (h : List.Forall₂ R xs ys) :
    xs.getLast?.any p = ys.getLast?.any q := by
  rw [← List.head?_reverse, ← List.head?_reverse]
  exact any_head?_of_forall₂ hR (List.forall₂_reverse_iff.mpr h)

namespace Segment

/-! ### Reading a segment -/

/-- What the runs ask for: one of them, and all of it. -/
def alternate (runs : List (List ClosedCondition)) : ClosedCondition :=
  Condition.simplify (.compound .or (runs.map (.compound .and)))

/-- The segment that atoms make. An OR at an end is looked for once the delimited words AND are left out. -/
def ofAtoms (as : List Atom) : Segment :=
  let ws := undelimited (Word.spells .and) (as.head?.any Atom.isBlank) (as.getLast?.any Atom.isBlank) (Atom.words as)
  { startsWithOr := ws.head?.any (Word.spells .or)
    condition := alternate (Word.runs (Atom.words as))
    endsWithOr := ws.getLast?.any (Word.spells .or) }

theorem alternate_eq (runs : List (List ClosedCondition)) :
    alternate runs = .join .or (runs.map fun run => .join .and (run.map Condition.simplify)) := by
  rw [alternate, Condition.simplify_compound, List.map_map]
  refine congrArg (Condition.join .or) (List.map_congr_left fun run _ => ?_)
  exact Condition.simplify_compound .and run

/-- A run that asks for nothing is no alternative. -/
theorem alternate_map_filter {α : Type} {f : α → List ClosedCondition} {p : α → Bool} {xs : List α}
    (h : ∀ x ∈ xs, p x = false → f x = []) : alternate ((xs.filter p).map f) = alternate (xs.map f) := by
  rw [alternate_eq, alternate_eq, List.map_map, List.map_map, Condition.join_map_filter]
  intro x hx hp
  rw [Function.comp_apply, h x hx hp]
  rfl

theorem partsOf_alternate_singleton (run : List ClosedCondition) :
    Condition.partsOf .and (alternate [run]) = (run.map Condition.simplify).flatMap (Condition.partsOf .and) := by
  rw [alternate_eq, List.map_singleton, Condition.join_singleton, Condition.partsOf_join]
  intro c hc
  obtain ⟨d, -, rfl⟩ := List.mem_map.mp hc
  exact Condition.reduced_simplify d

theorem partsOf_alternate {runs : List (List ClosedCondition)} (h : ∀ run ∈ runs, run.length ≤ 1) :
    Condition.partsOf .or (alternate runs) = (runs.flatten.map Condition.simplify).flatMap (Condition.partsOf .or) := by
  rw [alternate_eq, Condition.partsOf_join]
  · induction runs with
    | nil => rfl
    | cons run runs ih =>
      rw [List.map_cons, List.flatMap_cons, ih fun r hr => h r (List.mem_cons_of_mem run hr), List.flatten_cons,
        List.map_append, List.flatMap_append]
      congr 1
      match run, h run List.mem_cons_self with
      | [], _ => rfl
      | [c], _ => rw [List.map_singleton, Condition.join_singleton, List.flatMap_singleton]
  · intro c hc
    obtain ⟨run, -, rfl⟩ := List.mem_map.mp hc
    refine Condition.reduced_join fun d hd => ?_
    obtain ⟨e, -, rfl⟩ := List.mem_map.mp hd
    exact Condition.reduced_simplify e

open Phrase (Names Reads)

theorem alternatives_eq {tables : Phrase.Tables} {chunks : List Text} {wss : List (List Word)}
    (h : List.Forall₂ (List.Forall₂ (Names tables)) (chunks.map Text.words) wss) :
    alternatives tables chunks =
      .ok (((wss.filter fun ws => !ws.isEmpty).map (List.filterMap Word.condition?)).map (.compound .and)) := by
  induction chunks generalizing wss with
  | nil =>
    cases h
    rfl
  | cons chunk chunks ih =>
    cases h with
    | @cons _ ws _ wss hws h =>
      rw [alternatives, ih h]
      cases hws' : Text.words chunk with
      | nil =>
        rw [hws'] at hws
        cases hws
        rfl
      | cons t ts =>
        have hconditions := Phrase.Names.wordConditions_eq hws
        rw [hws'] at hws hconditions
        cases hws with
        | cons hw hws =>
          rw [hconditions]
          rfl

/-- A text is read as the segment of its atoms. -/
theorem ofText_eq (s : Text) : ofText s = .ok (ofAtoms (Phrase.scan s)) := by
  have hreads := Phrase.reads_extract s
  rcases hextract : Phrase.extract s with ⟨text, tables⟩
  rw [hextract] at hreads
  have hspells : ∀ op t w, Names tables t w → Connective.spells op t = w.spells op := fun op t w h => h.spells_eq op
  have hdropAnd : List.Forall₂ (Names tables) (Text.words (dropAnd text))
      (undelimited (Word.spells .and) ((Phrase.scan s).head?.any Atom.isBlank)
        ((Phrase.scan s).getLast?.any Atom.isBlank) (Atom.words (Phrase.scan s))) := by
    rw [words_dropAnd, hreads.startsBlank_eq, hreads.endsBlank_eq]
    exact forall₂_undelimited (hspells .and) _ _ hreads.forall₂_words
  -- A placeholder is spelled unlike any connective, so text and atoms are cut at the same words.
  have hsplit := forall₂_splitOnP (hspells .or) hdropAnd
  rw [← Connective.map_words_split] at hsplit
  rw [ofText, hextract]
  simp only
  rw [alternatives_eq hsplit, startsWithOr_eq, endsWithOr_eq, any_head?_of_forall₂ (hspells .or) hdropAnd,
    any_getLast?_of_forall₂ (hspells .or) hdropAnd]
  refine congrArg Except.ok ?_
  rw [ofAtoms, Segment.mk.injEq]
  refine ⟨rfl, ?_, rfl⟩
  rw [← Word.runs_undelimited, ← alternate, alternate_map_filter, Word.runs]
  intro ws _ hws
  cases ws with
  | nil => rfl
  | cons w ws => cases hws

theorem reduced_condition (as : List Atom) : (ofAtoms as).condition.Reduced := Condition.reduced_simplify _

/-- The terms of a segment are made of its characters that are not blank, and its phrases are among its atoms. -/
theorem every_condition {p : Char → Prop} {phrase : Text → Prop} {as : List Atom}
    (hchar : ∀ c, .char c ∈ as → isBlank c = false → p c)
    (hphrase : ∀ negated words, .phrase negated words ∈ as → phrase words) :
    (ofAtoms as).condition.Every (fun t => ∀ c ∈ t, p c) phrase := by
  refine Condition.Every.simplify (.compound fun c hc => ?_)
  obtain ⟨run, hrun, rfl⟩ := List.mem_map.mp hc
  refine .compound fun c hc => ?_
  obtain ⟨w, hw, hc⟩ := Word.mem_runs hrun hc
  have hfrom := Atom.isFrom_of_mem_words w hw
  cases w with
  | term t =>
    have hterm : ∀ c ∈ t, p c := fun c hc => hchar c (hfrom c hc).2 (hfrom c hc).1
    rcases Word.mem_condition?_of_term hc with rfl | ⟨u, rfl, rfl⟩
    · exact .keyword hterm
    · exact .negation (.keyword fun c hc => hterm c (List.mem_cons_of_mem _ hc))
  | phrase negated words =>
    have hwords := hphrase negated words hfrom
    cases hc
    cases negated
    · exact .phrase hwords
    · exact .negation (.phrase hwords)

theorem eq_ok_get {ε α : Type} {x : Except ε α} (h : x.toOption.isSome = true) : x = .ok (x.toOption.get h) := by
  cases x with
  | error e => cases h
  | ok a => rfl

theorem isSome_toOption_ofText (s : Text) : (ofText s).toOption.isSome = true := by
  rw [ofText_eq]
  rfl

/-- The segment of a text. -/
def read (s : Text) : Segment := (ofText s).toOption.get (isSome_toOption_ofText s)

/-- Reading a segment never fails. -/
theorem ofText_eq_read (s : Text) : ofText s = .ok (read s) := eq_ok_get (isSome_toOption_ofText s)

theorem read_eq (s : Text) : read s = ofAtoms (Phrase.scan s) :=
  Except.ok.inj ((ofText_eq_read s).symm.trans (ofText_eq s))

/-- No term that is read holds a blank or a mark, and no phrase a quote or a mark, or a character that the text
    does not hold. -/
theorem every_read {p : Char → Prop} {s : Text} (h : ∀ c ∈ s, p c) :
    (read s).condition.Every (fun t => ∀ c ∈ t, isBlank c = false ∧ Phrase.isMark c = false)
      (fun words => ∀ c ∈ words, c ≠ '"' ∧ p c ∧ Phrase.isMark c = false) := by
  have hscan := Phrase.extracted_scan h
  rw [read_eq]
  exact every_condition (fun c hc hblank => ⟨hblank, (hscan _ hc).2⟩) fun negated words hwords => (hscan _ hwords).2

/-- Atoms that can be typed are read as they are, whatever spaces stand beside their phrases. -/
theorem read_text_pad {run : List Atom} (h : ∀ a ∈ run, Phrase.Typable a) :
    read (Atom.text (Atom.pad run)) = ofAtoms (Atom.pad run) := by
  rw [read_eq, Phrase.scan_text (Phrase.typable_of_mem_pad h) (Phrase.undashed_pad run)]

end Segment
end SearchQuery
