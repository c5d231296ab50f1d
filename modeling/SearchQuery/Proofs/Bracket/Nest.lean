import SearchQuery.Proofs.Phrase.Atom
import SearchQuery.Proofs.Text.Words
import SearchQuery.Layer.Layout

/-! Nests: a level of a query with its bracket pairs as trees. Reading atoms from the left with a stack of the
    brackets that are open pairs every closing bracket with the last open one (`Nest.resume`). A pair around
    blanks leaves nothing, and a bracket without a partner stays as an atom. What is read from atoms whose
    brackets match does not depend on the stack (`Nest.Closes`). -/

namespace SearchQuery

/-- A level of a query: atoms, and bracket pairs with levels of their own inside. -/
inductive Nest where
  | nil
  | atom (a : Atom) (later : Nest)
  | pair (inside later : Nest)
deriving Repr, DecidableEq

namespace Nest

/-- One level after another. -/
def append : Nest → Nest → Nest
  | nil, ns => ns
  | atom a later, ns => atom a (append later ns)
  | pair inside later, ns => pair inside (append later ns)

instance : Append Nest := ⟨append⟩

@[simp] theorem nil_append (ns : Nest) : nil ++ ns = ns := rfl

@[simp] theorem atom_append (a : Atom) (later ns : Nest) : atom a later ++ ns = atom a (later ++ ns) := rfl

@[simp] theorem pair_append (inside later ns : Nest) : pair inside later ++ ns = pair inside (later ++ ns) := rfl

@[simp] theorem append_nil (ns : Nest) : ns ++ nil = ns := by
  induction ns with
  | nil => rfl
  | atom a later ih => rw [atom_append, ih]
  | pair inside later _ ih => rw [pair_append, ih]

theorem append_assoc (ms ns ps : Nest) : ms ++ ns ++ ps = ms ++ (ns ++ ps) := by
  induction ms with
  | nil => rfl
  | atom a later ih => rw [atom_append, atom_append, atom_append, ih]
  | pair inside later _ ih => rw [pair_append, pair_append, pair_append, ih]

/-- A level without brackets around anything. -/
def ofAtoms : List Atom → Nest
  | [] => nil
  | a :: as => atom a (ofAtoms as)

@[simp] theorem ofAtoms_nil : ofAtoms [] = nil := rfl

@[simp] theorem ofAtoms_cons (a : Atom) (as : List Atom) : ofAtoms (a :: as) = atom a (ofAtoms as) := rfl

theorem ofAtoms_append (as bs : List Atom) : ofAtoms (as ++ bs) = ofAtoms as ++ ofAtoms bs := by
  induction as with
  | nil => rfl
  | cons a as ih => rw [List.cons_append, ofAtoms_cons, ih, ofAtoms_cons, atom_append]

/-- Nothing but blanks stands on the level. -/
def isBlank : Nest → Bool
  | nil => true
  | atom (.char c) later => SearchQuery.isBlank c && isBlank later
  | _ => false

theorem isBlank_append (ms ns : Nest) : (ms ++ ns).isBlank = (ms.isBlank && ns.isBlank) := by
  induction ms with
  | nil => rfl
  | pair inside later _ _ => rfl
  | atom a later ih =>
    cases a with
    | phrase => rfl
    | char c => rw [atom_append, isBlank, isBlank, ih, Bool.and_assoc]

theorem isBlank_ofAtoms_char (s : Text) : (ofAtoms (s.map .char)).isBlank = !s.notBlank := by
  induction s with
  | nil => rfl
  | cons c s ih =>
    rw [List.map_cons, ofAtoms_cons, isBlank, ih, Text.notBlank, Text.notBlank, List.any_cons, Bool.not_or,
      Bool.not_not]

/-- Every atom of the level and of the levels inside it satisfies `p`. -/
def Each (p : Atom → Prop) : Nest → Prop
  | nil => True
  | atom a later => p a ∧ Each p later
  | pair inside later => Each p inside ∧ Each p later

theorem Each.append {p : Atom → Prop} {ms ns : Nest} (hm : Each p ms) (hn : Each p ns) : Each p (ms ++ ns) := by
  induction ms with
  | nil => exact hn
  | atom a later ih => exact ⟨hm.1, ih hm.2⟩
  | pair inside later _ ih => exact ⟨hm.1, ih hm.2⟩

theorem Each.of_append {p : Atom → Prop} {ms ns : Nest} (h : Each p (ms ++ ns)) : Each p ms ∧ Each p ns := by
  induction ms with
  | nil => exact ⟨trivial, h⟩
  | atom a later ih => exact ⟨⟨h.1, (ih h.2).1⟩, (ih h.2).2⟩
  | pair inside later _ ih => exact ⟨⟨h.1, (ih h.2).1⟩, (ih h.2).2⟩

theorem each_ofAtoms {p : Atom → Prop} {as : List Atom} (h : ∀ a ∈ as, p a) : Each p (ofAtoms as) := by
  induction as with
  | nil => trivial
  | cons a as ih => exact ⟨h a List.mem_cons_self, ih fun b hb => h b (List.mem_cons_of_mem a hb)⟩

/-! ### Pairing brackets -/

/-- What a pair of brackets leaves: nothing if it is around blanks. -/
def closed (inside : Nest) : Nest := if inside.isBlank then nil else pair inside nil

theorem closed_of_isBlank {inside : Nest} (h : inside.isBlank = true) : closed inside = nil := if_pos h

theorem closed_of_not_isBlank {inside : Nest} (h : inside.isBlank = false) : closed inside = pair inside nil :=
  if_neg (by simp [h])

theorem isBlank_closed (inside : Nest) : (closed inside).isBlank = inside.isBlank := by
  cases h : inside.isBlank with
  | true =>
    rw [closed_of_isBlank h]
    rfl
  | false =>
    rw [closed_of_not_isBlank h]
    rfl

/-- What has been read with brackets still open: the open brackets are atoms. -/
def spliced : List Nest → Nest → Nest
  | [], current => current
  | outer :: opens, current => spliced opens (outer ++ atom (.char '(') current)

theorem spliced_append (opens : List Nest) (current ns : Nest) :
    spliced opens (current ++ ns) = spliced opens current ++ ns := by
  induction opens generalizing current with
  | nil => rfl
  | cons outer opens ih =>
    have hstep := ih (outer ++ atom (.char '(') current)
    rwa [append_assoc, atom_append] at hstep

/-- Reads on with the levels around the open brackets on a stack, the last one first, and what has been read of
    the current level. -/
def resume (opens : List Nest) (current : Nest) : Nest → Nest
  | nil => spliced opens current
  | atom (.char '(') later => resume (current :: opens) nil later
  | atom (.char ')') later =>
    match opens with
    | [] => resume [] (current ++ atom (.char ')') nil) later
    | outer :: opens => resume opens (outer ++ closed current) later
  | atom a later => resume opens (current ++ atom a nil) later
  | pair inside later => resume opens (current ++ pair inside nil) later

/-- The atom is a bracket in ASCII. -/
def isBracket (a : Atom) : Bool := a == .char '(' || a == .char ')'

theorem eq_of_isBracket {c : Char} (h : isBracket (.char c) = true) : c = '(' ∨ c = ')' := by
  simpa [isBracket] using h

/-- The level without its brackets that have no partner. -/
def dropBrackets : Nest → Nest
  | nil => nil
  | atom a later => if isBracket a then dropBrackets later else atom a (dropBrackets later)
  | pair inside later => pair inside (dropBrackets later)

variable {opens : List Nest} {current later : Nest}

theorem resume_open : resume opens current (atom (.char '(') later) = resume (current :: opens) nil later := rfl

theorem resume_close {outer : Nest} :
    resume (outer :: opens) current (atom (.char ')') later) = resume opens (outer ++ closed current) later := rfl

theorem resume_stray :
    resume [] current (atom (.char ')') later) = resume [] (current ++ atom (.char ')') nil) later := rfl

theorem resume_atom {a : Atom} (h : isBracket a = false) :
    resume opens current (atom a later) = resume opens (current ++ atom a nil) later := by
  rw [resume.eq_def]
  split
  · next heq => cases heq
  · next heq => cases heq; cases h
  · next heq => cases heq; cases h
  · next heq => cases heq; rfl
  · next heq => cases heq

theorem resume_pair {inside : Nest} :
    resume opens current (pair inside later) = resume opens (current ++ pair inside nil) later := rfl

theorem Each.spliced {p : Atom → Prop} (hopen : p (.char '(')) (hopens : ∀ outer ∈ opens, Each p outer)
    (hcurrent : Each p current) : Each p (spliced opens current) := by
  induction opens generalizing current with
  | nil => exact hcurrent
  | cons outer opens ih =>
    exact ih (fun o ho => hopens o (List.mem_cons_of_mem outer ho))
      ((hopens outer List.mem_cons_self).append ⟨hopen, hcurrent⟩)

theorem Each.closed {p : Atom → Prop} (h : Each p current) : Each p (closed current) := by
  rw [Nest.closed]
  split
  · trivial
  · exact ⟨h, trivial⟩

/-- Pairing brackets brings no atom that was not there. -/
theorem Each.resume {p : Atom → Prop} (hopen : p (.char '(')) {ns : Nest} (hopens : ∀ outer ∈ opens, Each p outer)
    (hcurrent : Each p current) (h : Each p ns) : Each p (resume opens current ns) := by
  induction ns generalizing opens current with
  | nil => exact Each.spliced hopen hopens hcurrent
  | pair inside later _ ih => exact ih hopens (hcurrent.append ⟨h.1, trivial⟩) h.2
  | atom a later ih =>
    by_cases ha : isBracket a = true
    · cases a with
      | phrase => cases ha
      | char c =>
        rcases eq_of_isBracket ha with rfl | rfl
        · refine ih (fun outer houter => ?_) trivial h.2
          rcases List.mem_cons.mp houter with rfl | houter
          · exact hcurrent
          · exact hopens outer houter
        · cases opens with
          | nil => exact ih hopens (hcurrent.append ⟨h.1, trivial⟩) h.2
          | cons outer opens =>
            exact ih (fun o ho => hopens o (List.mem_cons_of_mem outer ho))
              ((hopens outer List.mem_cons_self).append hcurrent.closed) h.2
    · rw [resume_atom (by simpa using ha)]
      exact ih hopens (hcurrent.append ⟨h.1, trivial⟩) h.2

theorem Each.dropBrackets {p : Atom → Prop} {ns : Nest} (h : Each p ns) : Each p ns.dropBrackets := by
  induction ns with
  | nil => trivial
  | pair inside later _ ih => exact ⟨h.1, ih h.2⟩
  | atom a later ih =>
    rw [Nest.dropBrackets]
    split
    · exact ih h.2
    · exact ⟨h.1, ih h.2⟩

/-- Levels that come to the same wherever they are read do so after an atom. -/
theorem resume_congr {a : Atom} {ms ns : Nest} (h : ∀ opens current, resume opens current ms = resume opens current ns)
    (opens : List Nest) (current : Nest) : resume opens current (atom a ms) = resume opens current (atom a ns) := by
  by_cases ha : isBracket a = true
  · cases a with
    | phrase => cases ha
    | char c =>
      rcases eq_of_isBracket ha with rfl | rfl
      · exact h (current :: opens) nil
      · cases opens with
        | nil => exact h [] _
        | cons outer opens => exact h opens _
  · rw [resume_atom (by simpa using ha), resume_atom (by simpa using ha), h]

theorem resume_ofAtoms_congr {ms ns : Nest} (h : ∀ opens current, resume opens current ms = resume opens current ns)
    (as : List Atom) :
    ∀ opens current, resume opens current (ofAtoms as ++ ms) = resume opens current (ofAtoms as ++ ns) := by
  induction as with
  | nil => exact h
  | cons a as ih => exact resume_congr ih

/-- Atoms whose brackets match add the same to whatever level they are read on. -/
def Closes (as : List Atom) (ns : Nest) : Prop :=
  ∀ opens current later, resume opens current (ofAtoms as ++ later) = resume opens (current ++ ns) later

namespace Closes

variable {as bs : List Atom} {ms ns : Nest}

theorem nil : Closes [] .nil := fun opens current later => by
  rw [ofAtoms_nil, nil_append, append_nil]

theorem atom {a : Atom} (h : isBracket a = false) : Closes [a] (.atom a .nil) := fun _ _ _ => resume_atom h

theorem append (ha : Closes as ms) (hb : Closes bs ns) : Closes (as ++ bs) (ms ++ ns) := fun opens current later => by
  rw [ofAtoms_append, append_assoc, ha, hb, append_assoc]

/-- A pair of brackets is closed on the level it was opened on. -/
theorem pair (ha : Closes as ms) : Closes (.char '(' :: (as ++ [.char ')'])) (closed ms) := by
  intro opens current later
  rw [ofAtoms_cons, atom_append, resume_open, ofAtoms_append, append_assoc, ha, nil_append, ofAtoms_cons, atom_append,
    resume_close]
  rfl

theorem ofAtoms (h : ∀ a ∈ as, isBracket a = false) : Closes as (.ofAtoms as) := by
  induction as with
  | nil => exact .nil
  | cons a as ih => exact (atom (h a List.mem_cons_self)).append (ih fun b hb => h b (List.mem_cons_of_mem a hb))

/-- Atoms whose brackets match, read on their own. -/
theorem resume_eq (h : Closes as ns) : resume [] .nil (.ofAtoms as) = ns := by
  have := h [] .nil .nil
  rwa [append_nil, nil_append] at this

end Closes
end Nest
end SearchQuery
