import SearchQuery.Text.Blank
import SearchQuery.Condition.Basic

/-!
The words that connect: AND and OR in any mixture of capital and small, ASCII and full-width letters. They
connect only where blanks delimit them on both sides.
-/

namespace SearchQuery.Connective

/-- The letters of the word, each with all its forms. -/
def letters : Connective → List Text
  | .and => [['A', 'a', 'Ａ', 'ａ'], ['N', 'n', 'Ｎ', 'ｎ'], ['D', 'd', 'Ｄ', 'ｄ']]
  | .or => [['O', 'o', 'Ｏ', 'ｏ'], ['R', 'r', 'Ｒ', 'ｒ']]

/-- What follows the given letters at the front of a text. -/
def afterLetters? : List Text → Text → Option Text
  | [], s => some s
  | _ :: _, [] => none
  | forms :: ls, c :: s => if forms.contains c then afterLetters? ls s else none

theorem length_of_afterLetters? {ls : List Text} {s rest : Text} (h : afterLetters? ls s = some rest) :
    s.length = ls.length + rest.length := by
  fun_induction afterLetters? ls s with
  | case1 s => simp_all
  | case2 => cases h
  | case3 forms ls c s hc ih =>
    simp only [List.length_cons, ih h]
    omega
  | case4 => cases h

/-- The text is a spelling of the word. -/
def spells (op : Connective) (s : Text) : Bool :=
  afterLetters? op.letters s == some []

/-- The letters stand at the front of a text, and a blank follows them: the text from that blank on. -/
def delimited? (ls : List Text) (s : Text) : Option Text :=
  match afterLetters? ls s with
  | some (c :: rest) => if isBlank c then some (c :: rest) else none
  | _ => none

theorem length_of_delimited? {ls : List Text} {s rest : Text} (h : delimited? ls s = some rest) :
    s.length = ls.length + rest.length := by
  unfold delimited? at h
  split at h
  · next ha =>
    split at h
    · cases h
      exact length_of_afterLetters? ha
    · cases h
  · cases h

/-- Puts a character before the first of the texts. -/
def consFirst (c : Char) : List Text → List Text
  | [] => [[c]]
  | s :: ss => (c :: s) :: ss

/-- Cuts a text at the spellings of the word that have a blank on both sides. The flag says whether a blank
    stands before the text. -/
def splitFrom (op : Connective) (afterBlank : Bool) : Text → List Text
  | [] => [[]]
  | c :: s =>
    match _h : if afterBlank then delimited? op.letters (c :: s) else none with
    | some rest => [] :: splitFrom op false rest
    | none => consFirst c (splitFrom op (isBlank c) s)
termination_by s => s.length
decreasing_by
  · split at _h
    · have hlength := length_of_delimited? _h
      have : 0 < op.letters.length := by cases op <;> decide
      omega
    · cases _h
  · simp

/-- The text between the spellings of the word that have a blank on both sides. -/
def split (op : Connective) (s : Text) : List Text :=
  splitFrom op false s

/-- The text starts with a spelling of the word and a blank, after any blanks. -/
def startsText (op : Connective) (s : Text) : Bool :=
  (delimited? op.letters s.trimStart).isSome

/-- The text ends with a blank and a spelling of the word, before any blanks. -/
def endsText (op : Connective) (s : Text) : Bool :=
  (delimited? op.letters.reverse (s.reverse.dropWhile isBlank)).isSome

end SearchQuery.Connective
