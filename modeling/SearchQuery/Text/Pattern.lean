import SearchQuery.Text.Blank

/-!
Finding spans in a text. A pattern is tried at the front of a text; a text is cut into pieces by trying the
pattern at each place from the left and going on after what it found, so the spans found never overlap and
every character stands in exactly one piece.
-/

namespace SearchQuery

/-- A pattern: what it finds at the front of a text, and the text that follows. A find is never empty. -/
structure Pattern (β : Type) where
  read : Text → Option (β × Text)
  shorter : ∀ {s rest : Text} {found : β}, read s = some (found, rest) → rest.length < s.length

/-- A piece of a text: a character that belongs to no find, or a find. -/
inductive Piece (β : Type) where
  | plain (c : Char)
  | found (value : β)
deriving Repr, DecidableEq

namespace Text

/-- The run of characters of a class that a text starts with, if `close` ends it, and what follows. -/
def upTo? (inside : Char → Bool) (close : Char) (s : Text) : Option (Text × Text) :=
  match s.dropWhile inside with
  | [] => none
  | c :: rest => if c = close then some (s.takeWhile inside, rest) else none

theorem eq_append_of_upTo? {inside : Char → Bool} {close : Char} {s body rest : Text}
    (h : s.upTo? inside close = some (body, rest)) : s = body ++ close :: rest := by
  unfold upTo? at h
  split at h
  · cases h
  · next c r hd =>
    split at h
    · next hc =>
      simp only [Option.some.injEq, Prod.mk.injEq] at h
      rw [← h.1, ← h.2, ← hc, ← hd, List.takeWhile_append_dropWhile]
    · cases h

theorem length_lt_of_upTo? {inside : Char → Bool} {close : Char} {s body rest : Text}
    (h : s.upTo? inside close = some (body, rest)) : rest.length < s.length := by
  simp only [eq_append_of_upTo? h, List.length_append, List.length_cons]
  omega

end Text

namespace Pattern

variable {β : Type}

/-- The text cut into pieces, finds as far to the left as possible. -/
def pieces (p : Pattern β) : Text → List (Piece β)
  | [] => []
  | c :: s =>
    match _h : p.read (c :: s) with
    | some (value, rest) => .found value :: p.pieces rest
    | none => .plain c :: p.pieces s
termination_by s => s.length
decreasing_by
  · exact p.shorter _h
  · simp

end Pattern

namespace Piece

variable {β : Type}

/-- The finds, each with the plain text before it back to the find before, and the plain text that follows
    the last of them. -/
def runs : List (Piece β) → List (Text × β) × Text
  | [] => ([], [])
  | .found value :: ps =>
    let (marked, rest) := runs ps
    (([], value) :: marked, rest)
  | .plain c :: ps =>
    match runs ps with
    | ((before, value) :: marked, rest) => ((c :: before, value) :: marked, rest)
    | ([], rest) => ([], c :: rest)

/-- Numbers the finds that are not blank, on from `size`: each is replaced by its mark and noted, in order.
    A blank find is deleted. -/
def number (mark : Nat → Text) (size : Nat) : List (Piece Text) → Text × List Text
  | [] => ([], [])
  | .plain c :: ps =>
    let (text, noted) := number mark size ps
    (c :: text, noted)
  | .found body :: ps =>
    if body.notBlank then
      let (text, noted) := number mark (size + 1) ps
      (mark (size + 1) ++ text, body :: noted)
    else number mark size ps

end Piece
end SearchQuery
