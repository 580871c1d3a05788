import Reckoner.Text.Split
import Reckoner.Text.Uppercase

/-!
# Candidates of a query

A query may begin with words that are no part of the formula.  It is cut at spaces into words,
and each end of the list of words, joined with single spaces, is a candidate, the longest first.
The query is worth what its first candidate is worth that evaluates.  A candidate is put into
upper case before it is evaluated.

Only the space cuts.  A tab, say, is a blank inside a formula and stays where it is.
-/

namespace Reckoner

/-- The words of a query: its longest parts without a space. -/
def words (query : Text) : List Text := (Text.split ' ' query).filter (· ≠ [])

/-- Each end of a list of words as one text, the longest first.  A candidate is its first word
in front of the next candidate. -/
def candidatesOf : List Text → List Text
  | [] => []
  | word :: rest =>
      match candidatesOf rest with
      | [] => [word]
      | next :: shorter => (word ++ ' ' :: next) :: next :: shorter

/-- The candidates of a query, the longest first. -/
def candidates (query : Text) : List Text := candidatesOf (words query)

/-- The value of the first candidate that evaluates. -/
def resolve {α : Type} (evaluate : Text → Option α) (query : Text) : Option α :=
  (candidates query).findSome? fun candidate => evaluate (Text.upper candidate)

/-- The same for an evaluator with effects, which is called once for each candidate up to the
first success and not again. -/
def resolveM {m : Type → Type} [Monad m] {α : Type} (evaluate : Text → m (Option α))
    (query : Text) : m (Option α) :=
  (candidates query).findSomeM? fun candidate => evaluate (Text.upper candidate)

@[simp] theorem candidatesOf_nil : candidatesOf [] = [] := rfl

@[simp] theorem length_candidatesOf (ws : List Text) : (candidatesOf ws).length = ws.length := by
  induction ws with
  | nil => rfl
  | cons w ws ih =>
    rw [candidatesOf]
    split <;> simp_all

/-- The first candidate is all words with a space between two of them. -/
theorem head?_candidatesOf (ws : List Text) (h : ws ≠ []) :
    (candidatesOf ws).head? = some (Text.join ' ' ws) := by
  induction ws with
  | nil => exact absurd rfl h
  | cons w ws ih =>
    cases ws with
    | nil => rfl
    | cons v vs =>
      have ih := ih (by simp)
      rw [candidatesOf]
      split
      · simp_all
      · simp_all [Text.join]

/-- The further candidates are those of the further words. -/
theorem tail_candidatesOf (w : Text) (ws : List Text) :
    (candidatesOf (w :: ws)).tail = candidatesOf ws := by
  rw [candidatesOf]
  split <;> simp_all

example : candidates "1 +  2 ".toList = ["1 + 2".toList, "+ 2".toList, "2".toList] := by decide

example : candidates "  ".toList = [] := by decide

end Reckoner
