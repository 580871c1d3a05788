import Reckoner.Number.Decimal
import Reckoner.Text.Class

/-!
# Reading JSON

JSON is read once, from left to right, and the first problem in that order is the one reported.
A reader takes a text and gives a result with the rest of the text, and the rest is always
shorter.  So reading ends.

There are three kinds of problem.  The text ends too early, or it is not JSON, or it is JSON of
another kind than is wanted.
-/

namespace Reckoner.Json

/-- Why a text is refused. -/
inductive Fault
  /-- The text ends too early. -/
  | ended
  /-- The text is not JSON. -/
  | malformed
  /-- The text holds a value of the wrong kind. -/
  | mismatched
deriving DecidableEq, Repr

/-- Whether a character is white space between the parts of JSON. -/
def isSpace (c : Char) : Bool := c = ' ' || c = '\t' || c = '\n' || c = '\r'

/-- A text without the white space it starts with. -/
def skipSpace (t : Text) : Text := t.dropWhile isSpace

theorem length_skipSpace_le (t : Text) : (skipSpace t).length ≤ t.length :=
  (List.dropWhile_sublist _).length_le

theorem length_lt_of_skipSpace {t r : Text} {c : Char} (h : skipSpace t = c :: r) :
    r.length < t.length := by
  have := length_skipSpace_le t
  rw [h, List.length_cons] at this
  omega

/-- What follows a word that the text has to start with. -/
def expectWord : Text → Text → Except Fault Text
  | [], t => .ok t
  | _ :: _, [] => .error .ended
  | e :: word, c :: t => if c = e then expectWord word t else .error .malformed

theorem length_le_of_expectWord {word t r : Text} (h : expectWord word t = .ok r) :
    r.length ≤ t.length := by
  fun_induction expectWord word t with
  | case1 => simp_all
  | case2 => simp at h
  | case3 e word t ih =>
    have := ih h
    simp only [List.length_cons]
    omega
  | case4 => simp at h

end Reckoner.Json
