import SearchQuery.Fault
import SearchQuery.Condition.Json
import SearchQuery.Condition.Canonical
import SearchQuery.Proofs.Condition.Canonical

/-! Foreign values in a condition. Simplifying it, writing it as JSON and writing it as query text are walks of one form
    (`IsWalk`): they come to all parts of a node, from the left, before they drop, unwrap or splice any of them. So each of
    them stops at the same foreign value, whatever becomes of the nodes around it (`walks_agree`). -/

namespace SearchQuery.Condition

variable {α β γ : Type}

mutual

/-- The foreign values in a condition, depth first and from the left. -/
def foreigns : Condition α → List α
  | .blank | .keyword _ | .phrase _ => []
  | .negation c => foreigns c
  | .compound _ parts => foreignsAll parts
  | .foreign value => [value]

/-- The foreign values in several conditions, from the left. -/
def foreignsAll : List (Condition α) → List α
  | [] => []
  | c :: cs => foreigns c ++ foreignsAll cs

end

theorem foreignsAll_eq (cs : List (Condition α)) : foreignsAll cs = cs.flatMap foreigns := by
  induction cs with
  | nil => rw [foreignsAll]; rfl
  | cons c cs ih => rw [foreignsAll, ih, List.flatMap_cons]

/-! ### Walks -/

/-- A walk over some values fails at the first of them, and has a result if there is none. -/
inductive StopsAt : List α → Except α β → Prop where
  | ok (b : β) : StopsAt [] (.ok b)
  | error (value : α) (later : List α) : StopsAt (value :: later) (.error value)

theorem StopsAt.bind {vs ws : List α} {x : Except α β} {f : β → Except α γ} (h : StopsAt vs x)
    (hf : ∀ b, StopsAt ws (f b)) : StopsAt (vs ++ ws) (x >>= f) := by
  cases h with
  | ok b => exact hf b
  | error value later => exact .error value (later ++ ws)

theorem StopsAt.bind_ok {vs : List α} {x : Except α β} (h : StopsAt vs x) (f : β → γ) :
    StopsAt vs (x >>= fun b => .ok (f b)) := by
  have hbind := h.bind fun b => .ok (f b)
  rwa [List.append_nil] at hbind

/-- A walk over a list visits its items from the left. -/
theorem StopsAt.mapM {ι : Type} {values : ι → List α} {f : ι → Except α β} {items : List ι}
    (h : ∀ item ∈ items, StopsAt (values item) (f item)) : StopsAt (items.flatMap values) (items.mapM f) := by
  induction items with
  | nil => exact .ok []
  | cons item items ih =>
    obtain ⟨hitem, hitems⟩ := List.forall_mem_cons.mp h
    rw [List.flatMap_cons, List.mapM_cons]
    exact hitem.bind fun b => (ih hitems).bind_ok (b :: ·)

/-- A walk over conditions comes to all parts of a node, from the left, before it looks at what has come of one. -/
structure IsWalk (walk : Condition α → Except α β) : Prop where
  blank : ∃ b, walk .blank = .ok b
  keyword : ∀ term, ∃ b, walk (.keyword term) = .ok b
  phrase : ∀ words, ∃ b, walk (.phrase words) = .ok b
  negation : ∀ c, ∃ f : β → β, walk (.negation c) = walk c >>= fun b => .ok (f b)
  compound : ∀ op parts, ∃ f : List β → β, walk (.compound op parts) = parts.mapM walk >>= fun bs => .ok (f bs)
  foreign : ∀ value, walk (.foreign value) = .error value

theorem IsWalk.stopsAt {walk : Condition α → Except α β} (h : IsWalk walk) (c : Condition α) :
    StopsAt (foreigns c) (walk c) := by
  induction c using byNodes with
  | blank =>
    obtain ⟨b, hb⟩ := h.blank
    rw [foreigns, hb]
    exact .ok b
  | keyword term =>
    obtain ⟨b, hb⟩ := h.keyword term
    rw [foreigns, hb]
    exact .ok b
  | phrase words =>
    obtain ⟨b, hb⟩ := h.phrase words
    rw [foreigns, hb]
    exact .ok b
  | negation c ih =>
    obtain ⟨f, hf⟩ := h.negation c
    rw [foreigns, hf]
    exact ih.bind_ok f
  | compound op parts ih =>
    obtain ⟨f, hf⟩ := h.compound op parts
    rw [foreigns, foreignsAll_eq, hf]
    exact (StopsAt.mapM ih).bind_ok f
  | foreign value =>
    rw [foreigns, h.foreign]
    exact .error value []

/-! ### The three walks -/

theorem simplifyAll?_eq_mapM (cs : List (Condition α)) : simplifyAll? cs = cs.mapM simplify? := by
  induction cs with
  | nil => rw [simplifyAll?]; rfl
  | cons c cs ih => rw [simplifyAll?, List.mapM_cons, ih]

theorem isWalk_simplify? : IsWalk (simplify? : Condition α → Except α (Condition α)) where
  blank := ⟨.blank, by rw [simplify?]; rfl⟩
  keyword term := ⟨ofTerm term, by rw [simplify?]; rfl⟩
  phrase words := ⟨ofPhrase words, by rw [simplify?]; rfl⟩
  negation c := ⟨negate, by rw [simplify?]; rfl⟩
  compound op parts := ⟨join op, by rw [simplify?, simplifyAll?_eq_mapM]; rfl⟩
  foreign value := by rw [simplify?]; rfl

theorem jsonAll?_eq_mapM (cs : List (Condition α)) : jsonAll? cs = cs.mapM json? := by
  induction cs with
  | nil => rw [jsonAll?]; rfl
  | cons c cs ih => rw [jsonAll?, List.mapM_cons, ih]

theorem isWalk_json? : IsWalk (json? : Condition α → Except α Json) where
  blank := ⟨_, by rw [json?]⟩
  keyword term := ⟨_, by rw [json?]⟩
  phrase words := ⟨_, by rw [json?]⟩
  negation c := ⟨_, by rw [json?]; rfl⟩
  compound op parts := ⟨_, by rw [json?, jsonAll?_eq_mapM]; rfl⟩
  foreign value := by rw [json?]

/-- Brackets are set when all parts have been written. -/
theorem partTexts?_eq_mapM (op : Connective) (cs : List (Condition α)) :
    partTexts? op cs = cs.mapM queryText? >>= fun inner =>
      .ok (List.zipWith (fun c s => bracketIf (isOtherCompound op c) s) cs inner) := by
  induction cs with
  | nil => rw [partTexts?]; rfl
  | cons c cs ih =>
    rw [partTexts?, List.mapM_cons, ih]
    cases queryText? c with
    | error value => rfl
    | ok s => cases cs.mapM queryText? <;> rfl

theorem isWalk_queryText? : IsWalk (queryText? : Condition α → Except α Text) where
  blank := ⟨_, by rw [queryText?]⟩
  keyword term := ⟨_, by rw [queryText?]⟩
  phrase words := ⟨_, by rw [queryText?]⟩
  negation c := ⟨fun s => '-' :: bracketIf c.isCompound s, by rw [queryText?]; rfl⟩
  compound op parts := by
    refine ⟨fun inner => Text.joinWith (' ' :: op.word ++ [' '])
      (List.zipWith (fun c s => bracketIf (isOtherCompound op c) s) parts inner), ?_⟩
    rw [queryText?, partTexts?_eq_mapM]
    cases parts.mapM queryText? <;> rfl
  foreign value := by rw [queryText?]

/-- The three walks over a condition have a result if there is no foreign value in it, and else they all fail at the
    first one, with the same message. -/
theorem walks_agree [Foreign α] (c : Condition α) :
    (foreigns c = [] ∧ (∃ d, simplify? c = .ok d) ∧ (∃ j, json? c = .ok j) ∧ ∃ s, queryText? c = .ok s) ∨
      ∃ value later, foreigns c = value :: later ∧
        (simplify? c).mapError unknownCondition = .error (unknownCondition value) ∧
        (json? c).mapError unknownCondition = .error (unknownCondition value) ∧
        (queryText? c).mapError unknownCondition = .error (unknownCondition value) := by
  have hsimplify := isWalk_simplify?.stopsAt c
  have hjson := isWalk_json?.stopsAt c
  have htext := isWalk_queryText?.stopsAt c
  generalize simplify? c = x, json? c = y, queryText? c = z, foreigns c = values at hsimplify hjson htext ⊢
  cases hsimplify with
  | ok d =>
    cases hjson
    cases htext
    exact Or.inl ⟨rfl, ⟨_, rfl⟩, ⟨_, rfl⟩, _, rfl⟩
  | error value later =>
    cases hjson
    cases htext
    exact Or.inr ⟨value, later, rfl, rfl, rfl, rfl⟩

end SearchQuery.Condition
