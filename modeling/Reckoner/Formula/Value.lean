import Reckoner.Number.Format
import Reckoner.Text.Quoted

/-!
# Values of the grammar

A formula is worth a text, a float, an integer, a truth value, a tuple of values, or nothing.
Integers arise only from literals that `widen` does not see.

Two values are the same when they are of one kind and have the same contents.  So an integer is
never the same as a float, and a value that holds something that is not a number differs from
itself.

A message shows a value with its kind around it.  Floats are shown with at least `.0`, and with
an exponent from `10^16` on and below `10^-4`.
-/

namespace Reckoner.Formula

open Number (Format)

/-- A value of the grammar. -/
inductive Value
  /-- A text. -/
  | text (t : Text)
  /-- A floating-point number. -/
  | float (x : Float)
  /-- An integer of 64 bits. -/
  | integer (n : Int)
  /-- A truth value. -/
  | truth (b : Bool)
  /-- Several values in order. -/
  | tuple (vs : List Value)
  /-- The value of an empty expression. -/
  | empty

mutual

/-- Whether two values are the same. -/
def Value.same : Value → Value → Bool
  | .text s, .text t => s = t
  | .float x, .float y => x == y
  | .integer m, .integer n => m = n
  | .truth a, .truth b => a = b
  | .tuple vs, .tuple ws => Value.sameAll vs ws
  | .empty, .empty => true
  | _, _ => false

/-- Whether two lists hold the same values in the same order. -/
def Value.sameAll : List Value → List Value → Bool
  | [], [] => true
  | v :: vs, w :: ws => Value.same v w && Value.sameAll vs ws
  | _, _ => false

end

/-- How a message writes a float. -/
def messageFormat : Format where
  tie := .away
  least := some (-4)
  greatest := some 15
  pointZero := true
  plus := false
  infinity := "inf".toList
  negativeInfinity := "-inf".toList
  nan := "NaN".toList

/-- An integer in decimal digits. -/
def integerText (n : Int) : Text :=
  if n < 0 then '-' :: Format.digitsOf n.natAbs else Format.digitsOf n.natAbs

/-- A truth value as a word. -/
def truthText (b : Bool) : Text := if b then "true".toList else "false".toList

mutual

/-- A value as a message shows it. -/
def Value.shown : Value → Text
  | .text t => "String(".toList ++ Text.quoted t ++ [')']
  | .float x => "Float(".toList ++ messageFormat.write x ++ [')']
  | .integer n => "Int(".toList ++ integerText n ++ [')']
  | .truth b => "Boolean(".toList ++ truthText b ++ [')']
  | .tuple vs => "Tuple([".toList ++ Value.shownAll vs ++ "])".toList
  | .empty => "Empty".toList

/-- Values as a message shows them, with a comma and a space between two of them. -/
def Value.shownAll : List Value → Text
  | [] => []
  | [v] => v.shown
  | v :: w :: vs => v.shown ++ ", ".toList ++ Value.shownAll (w :: vs)

end

/-- The kind of a number or text, as a message names it. -/
def Value.kind : Value → Text
  | .text _ => "String".toList
  | .float _ => "Float".toList
  | .integer _ => "Int".toList
  | .truth _ => "Boolean".toList
  | .tuple _ => "Tuple".toList
  | .empty => "Empty".toList

example : (Value.tuple [.float 1, .empty]).shown = "Tuple([Float(1.0), Empty])".toList := by
  decide +kernel

example : (Value.integer 1).same (.float 1) = false := rfl

end Reckoner.Formula
