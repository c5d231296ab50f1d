import SearchQuery.Text.File
import SearchQuery.Proofs.Text.Utf8

/-! A file read in blocks. What a block gives and what is held over to the next one are together the bytes that have come,
    so the blocks do not matter for whether the file is a text: it is read without a fault if all its bytes together are
    one. A fault in a file shorter than two portions comes before the first portion is complete. -/

namespace SearchQuery.File

/-! ### Blocks -/

/-- What a block gives: the text of the bytes that are not held over. -/
theorem decodeBlock_ok {isLast : Bool} {bytes held : List UInt8} {text : Text}
    (h : decodeBlock isLast bytes = .ok (text, held)) :
    bytes = Utf8.encode text ++ held ∧ (isLast = true → held = []) := by
  unfold decodeBlock at h
  split at h
  · next decoded hdecoded =>
    cases h
    have hnone : (Utf8.decodeFrom 0 bytes).2 = none := by rw [hdecoded]
    have hbytes := Utf8.encode_of_decodeFrom hnone
    rw [hdecoded] at hbytes
    exact ⟨by rw [List.append_nil, ← hbytes], fun _ => rfl⟩
  · next decoded fault hdecoded =>
    have hsome : (Utf8.decodeFrom 0 bytes).2 = some fault := by rw [hdecoded]
    obtain ⟨rest, hbytes, hplace, -⟩ := Utf8.exists_append_of_fault hsome
    rw [hdecoded] at hbytes hplace
    have hrest : bytes.drop fault.position = rest := by
      rw [hbytes, hplace, Nat.zero_add, List.drop_left]
    dsimp only at h
    rw [hrest] at h
    split at h
    · next hheld =>
      cases h
      refine ⟨hbytes, fun hlast => ?_⟩
      rw [hlast] at hheld
      cases hheld
    · cases h

/-- A block is refused if no more bytes can make a text of it. -/
theorem decodeBlock_error {isLast : Bool} {bytes : List UInt8} {fault : Utf8.Fault}
    (h : decodeBlock isLast bytes = .error fault) {more : List UInt8} (hmore : isLast = true → more = []) :
    ¬Utf8.IsText (bytes ++ more) := by
  unfold decodeBlock at h
  split at h
  · cases h
  · next decoded found hdecoded =>
    have hsome : (Utf8.decodeFrom 0 bytes).2 = some found := by rw [hdecoded]
    dsimp only at h
    split at h
    · cases h
    · next hheld =>
      cases isLast with
      | true =>
        rw [hmore rfl, List.append_nil, Utf8.isText_iff 0, hsome]
        exact fun hnone => by cases hnone
      | false =>
        refine Utf8.not_isText_append hsome (fun hreason => hheld ?_) more
        simp [hreason]

theorem length_normalizeLineEnds_le (s : Text) : (normalizeLineEnds s).length ≤ s.length := by
  fun_induction normalizeLineEnds s with
  | case1 => exact Nat.le_refl 0
  | case2 s ih =>
    simp only [List.length_cons]
    omega
  | case3 c s _ ih =>
    simp only [List.length_cons]
    omega

namespace State
variable {state : State} {text : Text} {held : List UInt8}

/-- The next block. -/
def block (state : State) : List UInt8 :=
  state.bytes.take state.blockSize

/-- The text of a block, with the carriage return that was held over to it. -/
def resumed (state : State) (text : Text) : Text :=
  if state.heldReturn then '\r' :: text else text

/-- What is read of a block that is not the last: a carriage return at its end is held over. -/
def given (state : State) (text : Text) : Text :=
  normalizeLineEnds
    (if (state.resumed text).getLast? = some '\r' then (state.resumed text).dropLast else state.resumed text)

/-- The state after a block that is not the last. -/
def after (state : State) (text : Text) (held : List UInt8) : State where
  bytes := state.bytes.drop state.blockSize
  held := held
  heldReturn := (state.resumed text).getLast? = some '\r'
  lastBlock := (state.block.length, (state.given text).length)
  missing := missingAfter state.missing (state.given text).length

/-- The characters that may come of what is held over. -/
def heldLength (state : State) : Nat :=
  state.held.length + if state.heldReturn then 1 else 0

theorem blockSize_pos (state : State) : 0 < state.blockSize :=
  Nat.lt_of_lt_of_le (by decide : 0 < leastBlock) (Nat.le_max_left _ _)

theorem block_isEmpty_iff : state.block.isEmpty = true ↔ state.bytes = [] := by
  rw [block, List.isEmpty_iff, List.take_eq_nil_iff]
  exact or_iff_right (Nat.ne_of_gt state.blockSize_pos)

theorem length_resumed (state : State) (text : Text) :
    (state.resumed text).length = text.length + if state.heldReturn then 1 else 0 := by
  unfold resumed
  split <;> rfl

theorem length_given (state : State) (text : Text) (held : List UInt8) :
    (state.given text).length + (if (state.after text held).heldReturn then 1 else 0) ≤ (state.resumed text).length := by
  have hreturn : (state.after text held).heldReturn = decide ((state.resumed text).getLast? = some '\r') := rfl
  rw [hreturn, given]
  by_cases hlast : (state.resumed text).getLast? = some '\r'
  · have hne : state.resumed text ≠ [] := fun hnil => by
      rw [hnil] at hlast
      cases hlast
    have hlength := length_normalizeLineEnds_le (state.resumed text).dropLast
    have hpos := List.length_pos_iff.mpr hne
    rw [List.length_dropLast] at hlength
    rw [if_pos hlast, if_pos (decide_eq_true hlast)]
    omega
  · rw [if_neg hlast, decide_eq_false hlast]
    exact length_normalizeLineEnds_le (state.resumed text)

end State

/-! ### Reading block by block -/

/-- The next block is refused, or it is the last, or the others are read after it. -/
theorem readBlocks_cases (bound : Nat) (state : State) :
    (∃ fault, decodeBlock state.block.isEmpty (state.held ++ state.block) = .error fault ∧
        readBlocks (bound + 1) state = ([], some fault)) ∨
      ∃ text held, decodeBlock state.block.isEmpty (state.held ++ state.block) = .ok (text, held) ∧
        (state.bytes = [] ∧ readBlocks (bound + 1) state = (normalizeLineEnds (state.resumed text), none) ∨
          state.bytes ≠ [] ∧ readBlocks (bound + 1) state =
            (state.given text ++ (readBlocks bound (state.after text held)).1,
              (readBlocks bound (state.after text held)).2)) := by
  rw [readBlocks]
  simp only [State.after, State.given, State.resumed, State.block]
  cases hblock : decodeBlock (state.bytes.take state.blockSize).isEmpty
      (state.held ++ state.bytes.take state.blockSize) with
  | error fault => exact .inl ⟨fault, rfl, rfl⟩
  | ok given =>
    obtain ⟨text, held⟩ := given
    refine .inr ⟨text, held, rfl, ?_⟩
    by_cases hlast : state.bytes = []
    · exact .inl ⟨hlast, if_pos (State.block_isEmpty_iff.mpr hlast)⟩
    · exact .inr ⟨hlast, if_neg (mt State.block_isEmpty_iff.mp hlast)⟩

/-- Whether a fault is met depends on all the bytes together, those that are held over before those that are still to
    come. -/
theorem readBlocks_fault_eq_none_iff {bound : Nat} {state : State} (hbound : state.bytes.length < bound) :
    (readBlocks bound state).2 = none ↔ Utf8.IsText (state.held ++ state.bytes) := by
  induction bound generalizing state with
  | zero => exact absurd hbound (Nat.not_lt_zero _)
  | succ bound ih =>
    have hbytes : state.block ++ state.bytes.drop state.blockSize = state.bytes := List.take_append_drop _ _
    obtain ⟨fault, hblock, hread⟩ | ⟨text, held, hblock, ⟨hlast, hread⟩ | ⟨hmore, hread⟩⟩ := readBlocks_cases bound state
    · have hlast : state.block.isEmpty = true → state.bytes.drop state.blockSize = [] := fun h => by
        rw [State.block_isEmpty_iff.mp h, List.drop_nil]
      have hrefused := decodeBlock_error hblock hlast
      rw [List.append_assoc, hbytes] at hrefused
      rw [hread]
      exact iff_of_false (fun hnone => by cases hnone) hrefused
    · obtain ⟨htext, hheld⟩ := decodeBlock_ok hblock
      have hblockNil : state.block = [] := List.isEmpty_iff.mp (State.block_isEmpty_iff.mpr hlast)
      rw [hheld (State.block_isEmpty_iff.mpr hlast), List.append_nil, hblockNil, ← hlast] at htext
      rw [hread]
      exact iff_of_true rfl ⟨text, htext⟩
    · obtain ⟨htext, -⟩ := decodeBlock_ok hblock
      have hpos := state.blockSize_pos
      have hlater : (state.after text held).bytes.length < bound := by
        have hne := List.length_pos_iff.mpr hmore
        have hdrop : (state.after text held).bytes = state.bytes.drop state.blockSize := rfl
        rw [hdrop, List.length_drop]
        omega
      rw [hread, ih hlater, ← hbytes, ← List.append_assoc, htext, List.append_assoc, Utf8.isText_encode_append_iff]
      rfl

/-- No more characters are read than there are bytes. -/
theorem length_readBlocks_le (bound : Nat) (state : State) :
    (readBlocks bound state).1.length ≤ state.heldLength + state.bytes.length := by
  induction bound generalizing state with
  | zero => exact Nat.zero_le _
  | succ bound ih =>
    obtain ⟨fault, hblock, hread⟩ | ⟨text, held, hblock, hcase⟩ := readBlocks_cases bound state
    · rw [hread]
      exact Nat.zero_le _
    · obtain ⟨htext, -⟩ := decodeBlock_ok hblock
      have hlength := congrArg List.length htext
      rw [List.length_append, List.length_append] at hlength
      have hcharacters := Utf8.length_le_length_encode text
      have hresumed := state.length_resumed text
      have hblockLength : state.block.length ≤ state.bytes.length := List.length_take_le' _ _
      obtain ⟨-, hread⟩ | ⟨-, hread⟩ := hcase
      · have hnormal := length_normalizeLineEnds_le (state.resumed text)
        rw [hread, State.heldLength]
        dsimp only
        omega
      · have hgiven := state.length_given text held
        have hlater := ih (state.after text held)
        have hsplit : state.block.length + (state.after text held).bytes.length = state.bytes.length := by
          have := congrArg List.length (List.take_append_drop state.blockSize state.bytes)
          rwa [List.length_append] at this
        have hheld : (state.after text held).held = held := rfl
        rw [State.heldLength, hheld] at hlater
        rw [hread, List.length_append, State.heldLength]
        omega

/-! ### Files -/

/-- A file is read without a fault exactly if its bytes are a text. -/
theorem read_fault_eq_none_iff (bytes : List UInt8) : (read bytes).fault = none ↔ Utf8.IsText bytes :=
  readBlocks_fault_eq_none_iff (Nat.lt_succ_self _)

/-- A fault is met after at most as many portions as the bytes could fill. -/
theorem length_portions_le {bytes : List UInt8} (hfault : (read bytes).fault ≠ none) :
    (read bytes).portions.length ≤ bytes.length / portion := by
  have hlength := length_readBlocks_le (bytes.length + 1) { bytes }
  have hheld : ({ bytes } : State).heldLength = 0 := rfl
  rw [hheld, Nat.zero_add] at hlength
  have hsome : (readBlocks (bytes.length + 1) { bytes }).2.isSome = true := Option.isSome_iff_ne_none.mpr hfault
  have hportions : (read bytes).portions =
      (portionsOf ((readBlocks (bytes.length + 1) { bytes }).1.length / portion + 1)
        (readBlocks (bytes.length + 1) { bytes }).1).take
          ((readBlocks (bytes.length + 1) { bytes }).1.length / portion) := if_pos hsome
  rw [hportions]
  exact Nat.le_trans (List.length_take_le _ _) (Nat.div_le_div_right hlength)

end SearchQuery.File
