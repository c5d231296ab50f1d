import Mathlib.Data.List.Basic
import Mathlib.Data.List.TakeDrop
import SearchQuery.Condition.Outline
import SearchQuery.Proofs.Text.Quoted
import SearchQuery.Proofs.Condition.Canonical

/-! What an outline tells of a condition. No line has a line break inside, so the text gives the lines back. The first
    line of a part starts with a branch and the lines below it do not, so the lines of a compound fall into those of its
    parts (`underGuides_cancel`), and behind the guides each part is outlined as it would be alone. -/

namespace SearchQuery.Condition

/-! ### Lines -/

theorem span_append {α : Type} {inside : α → Bool} {xs ys : List α} (hxs : ∀ x ∈ xs, inside x = true)
    (hys : ∀ y ∈ ys.head?, inside y = false) : (xs ++ ys).span inside = (xs, ys) := by
  rw [List.span_eq_takeWhile_dropWhile, List.takeWhile_append_of_pos hxs, List.dropWhile_append_of_pos hxs]
  cases ys with
  | nil => rw [List.takeWhile_nil, List.dropWhile_nil, List.append_nil]
  | cons y ys =>
    have hy := hys y rfl
    rw [List.takeWhile_cons_of_neg (by simp [hy]), List.dropWhile_cons_of_neg (by simp [hy]), List.append_nil]

/-- A list is cut where its items leave a class. -/
theorem append_inj_of_inside {α : Type} {inside : α → Bool} {xs xs' ys ys' : List α} (hxs : ∀ x ∈ xs, inside x = true)
    (hxs' : ∀ x ∈ xs', inside x = true) (hys : ∀ y ∈ ys.head?, inside y = false)
    (hys' : ∀ y ∈ ys'.head?, inside y = false) (h : xs ++ ys = xs' ++ ys') : xs = xs' ∧ ys = ys' := by
  have hspan := congrArg (List.span inside) h
  rw [span_append hxs hys, span_append hxs' hys'] at hspan
  exact Prod.mk.inj hspan

/-- Lines that are ended the same way are the same, if no line break stands inside one. -/
theorem flatMap_ended_inj {lines lines' : List Text} (h : ∀ line ∈ lines, '\n' ∉ line) (h' : ∀ line ∈ lines', '\n' ∉ line)
    (heq : lines.flatMap (· ++ ['\n']) = lines'.flatMap (· ++ ['\n'])) : lines = lines' := by
  have hinside : ∀ line : Text, '\n' ∉ line → ∀ c ∈ line, (c != '\n') = true := fun line hline c hc =>
    bne_iff_ne.mpr fun heq => hline (heq ▸ hc)
  induction lines generalizing lines' with
  | nil =>
    cases lines' with
    | nil => rfl
    | cons line' lines' => simp at heq
  | cons line lines ih =>
    cases lines' with
    | nil => simp at heq
    | cons line' lines' =>
      obtain ⟨hline, hlines⟩ := List.forall_mem_cons.mp h
      obtain ⟨hline', hlines'⟩ := List.forall_mem_cons.mp h'
      rw [List.flatMap_cons, List.flatMap_cons, List.append_assoc, List.append_assoc, List.singleton_append,
        List.singleton_append] at heq
      obtain ⟨rfl, hrest⟩ :=
        append_inj_of_inside (hinside line hline) (hinside line' hline') (by simp) (by simp) heq
      rw [ih hlines hlines' (List.cons.inj hrest).2]

/-- The guide before the first line of a part. -/
def branchGuide (isLast : Bool) : Text :=
  if isLast then ['└', '─', '─', ' '] else ['├', '─', '─', ' ']

/-- The guide before the other lines of a part. -/
def trunkGuide (isLast : Bool) : Text :=
  if isLast then [' ', ' ', ' ', ' '] else ['│', ' ', ' ', ' ']

theorem underGuides_cons (isLast : Bool) (first : Text) (lines : List Text) :
    underGuides isLast (first :: lines) = (branchGuide isLast ++ first) :: lines.map (trunkGuide isLast ++ ·) := by
  cases isLast <;> rfl

theorem branchGuide_append_inj {isLast isLast' : Bool} {s t : Text}
    (h : branchGuide isLast ++ s = branchGuide isLast' ++ t) : isLast = isLast' ∧ s = t := by
  have hlast : isLast = isLast' := by
    have hhead := congrArg List.head? h
    cases isLast <;> cases isLast' <;> first | rfl | simp [branchGuide] at hhead
  rw [hlast] at h
  exact ⟨hlast, List.append_cancel_left h⟩

theorem newline_not_mem_underGuides (isLast : Bool) {lines : List Text} (h : ∀ line ∈ lines, '\n' ∉ line) :
    ∀ line ∈ underGuides isLast lines, '\n' ∉ line := by
  have hbranch : '\n' ∉ branchGuide isLast := by cases isLast <;> decide
  have htrunk : '\n' ∉ trunkGuide isLast := by cases isLast <;> decide
  cases lines with
  | nil => exact h
  | cons first lines =>
    obtain ⟨hfirst, hlines⟩ := List.forall_mem_cons.mp h
    rw [underGuides_cons]
    refine List.forall_mem_cons.mpr ⟨by simp [hbranch, hfirst], fun line hline => ?_⟩
    obtain ⟨line', hline', rfl⟩ := List.mem_map.mp hline
    simp [htrunk, hlines line' hline']

/-- The line stands below the first one of a part. -/
def continues (line : Text) : Bool := line.head? = some '│' || line.head? = some ' '

theorem continues_branchGuide_append (isLast : Bool) (s : Text) : continues (branchGuide isLast ++ s) = false := by
  cases isLast <;> rfl

theorem continues_of_mem_map {isLast : Bool} {lines : List Text} :
    ∀ line ∈ lines.map (trunkGuide isLast ++ ·), continues line = true := by
  intro line hline
  obtain ⟨s, -, rfl⟩ := List.mem_map.mp hline
  cases isLast <;> rfl

/-- A part ends at the next line that does not stand below its first one. -/
theorem underGuides_cancel {isLast isLast' : Bool} {first first' : Text} {lines lines' rest rest' : List Text}
    (hrest : ∀ line ∈ rest.head?, continues line = false) (hrest' : ∀ line ∈ rest'.head?, continues line = false)
    (h : underGuides isLast (first :: lines) ++ rest = underGuides isLast' (first' :: lines') ++ rest') :
    first :: lines = first' :: lines' ∧ rest = rest' := by
  rw [underGuides_cons, underGuides_cons, List.cons_append, List.cons_append] at h
  obtain ⟨hfirst, hlater⟩ := List.cons.inj h
  -- The branch tells whether the part is the last one, so the trunks are the same too.
  obtain ⟨rfl, rfl⟩ := branchGuide_append_inj hfirst
  obtain ⟨hlines, rfl⟩ := append_inj_of_inside continues_of_mem_map continues_of_mem_map hrest hrest' hlater
  rw [List.map_injective_iff.mpr (fun s t => List.append_cancel_left) hlines]
  exact ⟨rfl, rfl⟩

/-! ### Parts -/

/-- The conditions that a condition is made of. -/
def operands : ClosedCondition → List ClosedCondition
  | .negation c => [c]
  | .compound _ parts => parts
  | _ => []

theorem byOperands {motive : ClosedCondition → Prop} (step : ∀ c, (∀ p ∈ operands c, motive p) → motive c)
    (c : ClosedCondition) : motive c := by
  induction c using byParts with
  | blank => exact step _ (List.forall_mem_nil _)
  | keyword term => exact step _ (List.forall_mem_nil _)
  | phrase words => exact step _ (List.forall_mem_nil _)
  | negation c ih => exact step _ (List.forall_mem_singleton.mpr ih)
  | compound op parts ih => exact step _ ih

theorem outline_eq (c : ClosedCondition) : outline c = label c :: outlineParts (operands c) := by
  cases c with
  | negation c => rw [outline, operands, outlineParts, outlineParts, List.append_nil]; rfl
  | compound op parts => rw [outline, operands]
  | foreign value => exact value.elim
  | blank => rw [outline, operands, outlineParts]; all_goals nofun
  | keyword term => rw [outline, operands, outlineParts]; all_goals nofun
  | phrase words => rw [outline, operands, outlineParts]; all_goals nofun

theorem outlineParts_cons (c : ClosedCondition) (cs : List ClosedCondition) :
    outlineParts (c :: cs) = underGuides cs.isEmpty (label c :: outlineParts (operands c)) ++ outlineParts cs := by
  rw [outlineParts, outline_eq]

/-- The lines of parts start with the first line of one. -/
theorem continues_head?_outlineParts (cs : List ClosedCondition) :
    ∀ line ∈ (outlineParts cs).head?, continues line = false := by
  cases cs with
  | nil => simp [outlineParts]
  | cons c cs =>
    rw [outlineParts_cons, underGuides_cons]
    rintro line ⟨⟩
    exact continues_branchGuide_append _ _

theorem outlineParts_inj {cs : List ClosedCondition} (ih : ∀ c ∈ cs, ∀ d, outline c = outline d → c = d)
    {ds : List ClosedCondition} (h : outlineParts cs = outlineParts ds) : cs = ds := by
  induction cs generalizing ds with
  | nil =>
    cases ds with
    | nil => rfl
    | cons d ds =>
      rw [outlineParts_cons, underGuides_cons, outlineParts] at h
      cases h
  | cons c cs ihcs =>
    cases ds with
    | nil =>
      rw [outlineParts_cons, underGuides_cons, outlineParts] at h
      cases h
    | cons d ds =>
      obtain ⟨ihc, ih⟩ := List.forall_mem_cons.mp ih
      rw [outlineParts_cons, outlineParts_cons] at h
      obtain ⟨hfirst, hlater⟩ :=
        underGuides_cancel (continues_head?_outlineParts cs) (continues_head?_outlineParts ds) h
      rw [← outline_eq, ← outline_eq] at hfirst
      rw [ihc d hfirst, ihcs ih hlater]

/-- The label of a condition tells all of it but its parts. -/
theorem eq_of_label_eq {c d : ClosedCondition} (hlabel : label c = label d) (hparts : operands c = operands d) : c = d := by
  cases c with
  | foreign value => exact value.elim
  | blank =>
    cases d with
    | blank => rfl
    | foreign value => exact value.elim
    | compound op _ => cases op <;> simp [label] at hlabel
    | _ => simp [label] at hlabel
  | keyword term =>
    cases d with
    | keyword term' =>
      rw [Text.quoted_injective (List.append_cancel_left hlabel)]
    | foreign value => exact value.elim
    | compound op _ => cases op <;> simp [label] at hlabel
    | _ => simp [label] at hlabel
  | phrase words =>
    cases d with
    | phrase words' =>
      rw [Text.quoted_injective (List.append_cancel_left hlabel)]
    | foreign value => exact value.elim
    | compound op _ => cases op <;> simp [label] at hlabel
    | _ => simp [label] at hlabel
  | negation c =>
    cases d with
    | negation d => rw [List.singleton_inj.mp hparts]
    | foreign value => exact value.elim
    | compound op _ => cases op <;> simp [label] at hlabel
    | _ => simp [label] at hlabel
  | compound op parts =>
    cases d with
    | compound op' parts' =>
      have hop : op = op' := by cases op <;> cases op' <;> first | rfl | simp [label] at hlabel
      rw [hop, show parts = parts' from hparts]
    | foreign value => exact value.elim
    | _ => cases op <;> simp [label] at hlabel

theorem newline_not_mem_label (c : ClosedCondition) : '\n' ∉ label c := by
  cases c with
  | keyword term => simp [label, Text.newline_not_mem_quoted]
  | phrase words => simp [label, Text.newline_not_mem_quoted]
  | compound op parts => cases op <;> simp [label]
  | foreign value => exact value.elim
  | _ => simp [label]

theorem newline_not_mem_outline (c : ClosedCondition) : ∀ line ∈ outline c, '\n' ∉ line := by
  induction c using byOperands with
  | step c ih =>
    rw [outline_eq]
    refine List.forall_mem_cons.mpr ⟨newline_not_mem_label c, ?_⟩
    generalize operands c = parts at ih
    induction parts with
    | nil => simp [outlineParts]
    | cons p ps ihps =>
      obtain ⟨ihp, ih⟩ := List.forall_mem_cons.mp ih
      rw [outlineParts]
      exact List.forall_mem_append.mpr ⟨newline_not_mem_underGuides _ ihp, ihps ih⟩

theorem outline_injective (c : ClosedCondition) : ∀ d, outline c = outline d → c = d := by
  induction c using byOperands with
  | step c ih =>
    intro d h
    rw [outline_eq, outline_eq] at h
    obtain ⟨hlabel, hparts⟩ := List.cons.inj h
    exact eq_of_label_eq hlabel (outlineParts_inj ih hparts)

/-- Conditions with the same outline are the same. -/
theorem outlineText_injective : Function.Injective outlineText := by
  intro c d h
  rw [outlineText, outlineText] at h
  exact outline_injective c d (flatMap_ended_inj (newline_not_mem_outline c) (newline_not_mem_outline d) h)

end SearchQuery.Condition
