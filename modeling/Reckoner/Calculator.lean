import Reckoner.Formula.Evaluation
import Reckoner.Formula.Widening
import Reckoner.Query
import Reckoner.Symbols

/-!
# The calculator

A formula is widened, cut into pieces and tokens, grown into a tree and evaluated with the
constants of a calculator.  The answer is a number or a text; a truth value becomes the word for
it.  A tuple and the empty value are no answers.

An answer is displayed as the text that would be typed for it: a number positionally with the
fewest digits that are read back, without `.0` after a whole number, and a text as it is.
-/

namespace Reckoner

open Formula (Fault)
open Number (Format)

/-- What a formula is worth. -/
inductive Answer
  /-- A number, which may be an infinity or not a number. -/
  | number (x : Float)
  /-- A text. -/
  | text (t : Text)

/-- How an answer writes a number. -/
def answerFormat : Format where
  tie := .away
  least := none
  greatest := none
  pointZero := false
  plus := false
  infinity := "Infinity".toList
  negativeInfinity := "-Infinity".toList
  nan := "NaN".toList

/-- An answer as it is displayed. -/
def Answer.display : Answer → Text
  | .number x => answerFormat.write x
  | .text t => t

/-- The answer that a value of the grammar gives. -/
def Answer.ofValue : Formula.Value → Except Fault Answer
  | .integer n => .ok (.number (Number.ofInteger n))
  | .float x => .ok (.number x)
  | .text t => .ok (.text t)
  | .truth b => .ok (.text (Formula.truthText b))
  | .tuple _ => .error .tupleResult
  | .empty => .error .emptyResult

/-- The tree of a formula. -/
def Formula.parse (formula : Text) : Except Fault Formula.Tree :=
  match Formula.pieces formula with
  | .error f => .error (.cut f)
  | .ok ps =>
      match Formula.tokens ps with
      | .error f => .error f
      | .ok ts => Formula.tree ts

/-- A calculator with its constants. -/
structure Calculator where
  /-- The constants that formulas see. -/
  symbols : Symbols

namespace Calculator

/-- What a formula is worth, as it is written. -/
def evaluate (c : Calculator) (formula : Text) : Except Fault Answer := do
  let tree ← Formula.parse (Formula.widen formula)
  let v ← tree.value c.symbols.find?
  Answer.ofValue v

/-- What a query is worth: the answer for its first candidate that has one. -/
def resolve (c : Calculator) (query : Text) : Option Answer :=
  Reckoner.resolve (fun candidate => (c.evaluate candidate).toOption) query

end Calculator

example : (Answer.number 0.1).display = "0.1".toList := by decide +kernel

example : (Answer.number (-0.0)).display = "-0".toList := by decide +kernel

end Reckoner
