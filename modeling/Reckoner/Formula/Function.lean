import Reckoner.Formula.Fault
import Reckoner.Number.Rounding

/-!
# Functions

The nine functions of formulas.  A name is a function only in its exact spelling.

* `ABS`, `SQRT`, `ROUND`, `FLOOR` and `CEIL` take one number.
* `MIN`, `MAX` and `AVERAGE` take at least one, and `SUM` any number.
* `MIN` and `MAX` skip what is not a number, and of two equal numbers they keep the later.  This
  shows only between the two zeros.  They start from the infinity that any other number improves
  on.
* `SUM` starts from negative zero, which changes no number it is added to.
-/

namespace Reckoner.Formula

open Number

/-- A function of formulas. -/
inductive Function
  | abs | sqrt | round | floor | ceiling | minimum | maximum | sum | average
deriving DecidableEq, Repr

/-- The functions, each once. -/
def Function.all : List Function :=
  [.abs, .sqrt, .round, .floor, .ceiling, .minimum, .maximum, .sum, .average]

/-- The name of a function. -/
def Function.name : Function → Text
  | .abs => "ABS".toList
  | .sqrt => "SQRT".toList
  | .round => "ROUND".toList
  | .floor => "FLOOR".toList
  | .ceiling => "CEIL".toList
  | .minimum => "MIN".toList
  | .maximum => "MAX".toList
  | .sum => "SUM".toList
  | .average => "AVERAGE".toList

/-- The function of a name. -/
def Function.ofName? (name : Text) : Option Function := Function.all.find? fun f => f.name = name

theorem ofName?_name (f : Function) : Function.ofName? f.name = some f := by
  cases f <;> decide

/-! ## The lists -/

/-- The smaller of two numbers, the second of two equal ones, where what is not a number is
skipped. -/
def smaller (x y : Float) : Float := if isNaN x || y ≤ x then y else x

/-- The larger of two numbers, the second of two equal ones, where what is not a number is
skipped. -/
def larger (x y : Float) : Float := if isNaN x || x ≤ y then y else x

/-- Positive infinity. -/
def infinity : Float := ofMagnitude false infinityBits

/-- Negative infinity. -/
def negativeInfinity : Float := ofMagnitude true infinityBits

/-- Negative zero. -/
def negativeZero : Float := ofMagnitude true 0

/-- The smallest of the numbers. -/
def least (xs : List Float) : Float := xs.foldl smaller infinity

/-- The largest of the numbers. -/
def greatest (xs : List Float) : Float := xs.foldl larger negativeInfinity

example : isNegative (least [0, negativeZero]) = true := by decide +kernel

example : isNegative (greatest [negativeZero, 0]) = false := by decide +kernel

/-- The sum of the numbers, from left to right. -/
def total (xs : List Float) : Float := xs.foldl (· + ·) negativeZero

/-- The sum of the numbers divided by their count. -/
def mean (xs : List Float) : Float := total xs / ofInteger xs.length

/-! ## Application -/

/-- Applies an operation to the only argument. -/
def Function.one (f : Function) (operation : Float → Float) : List Float → Except Fault Float
  | [x] => .ok (operation x)
  | xs => .error (.oneArgument f.name xs.length)

/-- Applies an operation to the arguments, of which there has to be one. -/
def Function.some (f : Function) (operation : List Float → Float) :
    List Float → Except Fault Float
  | [] => .error (.someArgument f.name)
  | x :: xs => .ok (operation (x :: xs))

/-- The result of a function for its arguments. -/
def Function.apply (f : Function) (xs : List Float) : Except Fault Float :=
  match f with
  | .abs => f.one Float.abs xs
  | .sqrt => f.one Float.sqrt xs
  | .round => f.one roundAway xs
  | .floor => f.one Number.floor xs
  | .ceiling => f.one Number.ceiling xs
  | .minimum => f.some least xs
  | .maximum => f.some greatest xs
  | .sum => .ok (total xs)
  | .average => f.some mean xs

end Reckoner.Formula
