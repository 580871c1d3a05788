import Reckoner.Formula.Function
import Reckoner.Formula.Tree

/-!
# Evaluation

A tree is evaluated from the leaves up.  All arguments of a node are evaluated, in order and
without stopping early, and the first fault counts.  Then the number of arguments is checked,
and then the operation is done.

* Two integers give an integer, and it is a fault if the result is none of 64 bits.  Any other
  two numbers are taken as floats.  Powers are always floats.
* Texts can be joined and compared.  Their order is that of the code points.
* Nothing can be assigned to, and constants are read through `lookup`.
-/

namespace Reckoner.Formula

open Number

/-! ## Arguments -/

/-- The float a value is taken as. -/
def Value.number (v : Value) : Except Fault Float :=
  match v with
  | .float x => .ok x
  | .integer n => .ok (ofInteger n)
  | _ => .error (.notNumber v)

/-- The truth value of a value. -/
def Value.condition (v : Value) : Except Fault Bool :=
  match v with
  | .truth b => .ok b
  | _ => .error (.notTruth v)

/-- Checks that a value is a number or a text. -/
def Value.checkScalar (v : Value) : Except Fault Unit :=
  match v with
  | .float _ | .integer _ | .text _ => .ok ()
  | _ => .error (.notNumberOrText v)

/-- Whether a value is a text. -/
def Value.isText : Value → Bool
  | .text _ => true
  | _ => false

/-- The floats two values are taken as. -/
def numbers (v w : Value) : Except Fault (Float × Float) := do
  let x ← v.number
  let y ← w.number
  return (x, y)

/-! ## Arithmetic -/

/-- An operation on two integers, without a bound; none for a division by zero. -/
def Arithmetic.onIntegers : Arithmetic → Int → Int → Option Int
  | .add, a, b => some (a + b)
  | .subtract, a, b => some (a - b)
  | .multiply, a, b => some (a * b)
  | .divide, a, b => if b = 0 then none else some (a.tdiv b)
  | .modulo, a, b =>
      if b = 0 then none else if a = -integerBound ∧ b = -1 then none else some (a.tmod b)

/-- Whether an integer has 64 bits. -/
def isBounded (n : Int) : Bool := -(integerBound : Int) ≤ n && n < integerBound

/-- An operation on two integers of 64 bits. -/
def Arithmetic.integers (op : Arithmetic) (a b : Int) : Except Fault Value :=
  match op.onIntegers a b with
  | some n => if isBounded n then .ok (.integer n) else .error (.integerOverflow op a b)
  | none => .error (.integerOverflow op a b)

/-- An operation on two floats. -/
def Arithmetic.floats : Arithmetic → Float → Float → Float
  | .add, x, y => x + y
  | .subtract, x, y => x - y
  | .multiply, x, y => x * y
  | .divide, x, y => x / y
  | .modulo, x, y => remainder x y

/-- An operation on two numbers. -/
def Arithmetic.apply (op : Arithmetic) (v w : Value) : Except Fault Value :=
  match v, w with
  | .integer a, .integer b => op.integers a b
  | v, w => (numbers v w).map fun (x, y) => .float (op.floats x y)

/-- The sum of two numbers, or two texts joined. -/
def sum (v w : Value) : Except Fault Value := do
  v.checkScalar
  w.checkScalar
  match v, w with
  | .text s, .text t => return .text (s ++ t)
  | v, w => if v.isText || w.isText then throw (.mixedSum v w) else Arithmetic.add.apply v w

/-- A number with the other sign. -/
def opposite (v : Value) : Except Fault Value :=
  match v with
  | .integer n => if n = -integerBound then .error (.negationOverflow n) else .ok (.integer (-n))
  | v => v.number.map fun x => .float (-x)

/-! ## Comparison -/

/-- The four orders of two values. -/
inductive Order
  | greater | less | atLeast | atMost

/-- Compares two integers. -/
def Order.integers : Order → Int → Int → Bool
  | .greater, a, b => b < a
  | .less, a, b => a < b
  | .atLeast, a, b => b ≤ a
  | .atMost, a, b => a ≤ b

/-- Compares two floats.  What is not a number is in no order to anything. -/
def Order.floats : Order → Float → Float → Bool
  | .greater, x, y => y < x
  | .less, x, y => x < y
  | .atLeast, x, y => y ≤ x
  | .atMost, x, y => x ≤ y

/-- Compares two texts by their code points. -/
def Order.texts : Order → Text → Text → Bool
  | .greater, s, t => t < s
  | .less, s, t => s < t
  | .atLeast, s, t => !decide (s < t)
  | .atMost, s, t => !decide (t < s)

/-- Compares two numbers or two texts. -/
def Order.apply (order : Order) (v w : Value) : Except Fault Value := do
  v.checkScalar
  w.checkScalar
  match v, w with
  | .text s, .text t => return .truth (order.texts s t)
  | .integer a, .integer b => return .truth (order.integers a b)
  | v, w =>
      let (x, y) ← numbers v w
      return .truth (order.floats x y)

/-! ## Nodes -/

/-- The result of an operator for two arguments. -/
def Binary.apply (b : Binary) (v w : Value) : Except Fault Value :=
  match b with
  | .arithmetic .add => sum v w
  | .arithmetic op => op.apply v w
  | .power => (numbers v w).map fun (x, y) => .float (Float.pow x y)
  | .equal => .ok (.truth (v.same w))
  | .unequal => .ok (.truth !(v.same w))
  | .greater => Order.greater.apply v w
  | .less => Order.less.apply v w
  | .atLeast => Order.atLeast.apply v w
  | .atMost => Order.atMost.apply v w
  | .conjunction => do
      let p ← v.condition
      let q ← w.condition
      return .truth (p && q)
  | .disjunction => do
      let p ← v.condition
      let q ← w.condition
      return .truth (p || q)

/-- The numbers a function is given: the elements of a tuple, none for an empty list, or one. -/
def arguments : Value → Except Fault (List Float)
  | .empty => .ok []
  | .tuple vs => vs.mapM Value.number
  | v => v.number.map ([·])

/-- The result of the function with a name. -/
def callFunction (name : Text) (v : Value) : Except Fault Value :=
  match Function.ofName? name with
  | none => .error (.unknownFunction name)
  | some f => do
      let xs ← arguments v
      let x ← f.apply xs
      return .float x

/-- The value of a constant. -/
def readConstant (lookup : Text → Option Float) (name : Text) : Except Fault Value :=
  match lookup name with
  | some x => .ok (.float x)
  | none => .error (.unknownSymbol name)

/-- The result of an operator for its arguments, in order. -/
def Operator.apply (lookup : Text → Option Float) : Operator → List Value → Except Fault Value
  | .group, vs => .ok (vs.head?.getD .empty)
  | .tuple, vs => .ok (.tuple vs)
  | .chain, vs =>
      match vs.getLast? with
      | some v => .ok v
      | none => .error (.argumentCount 1 0)
  | .literal v, [] => .ok v
  | .literal _, vs => .error (.argumentCount 0 vs.length)
  | .read name, [] => readConstant lookup name
  | .read _, vs => .error (.argumentCount 0 vs.length)
  | .write name, [] => .ok (.text name)
  | .write _, vs => .error (.argumentCount 0 vs.length)
  | .call name, [v] => callFunction name v
  | .call _, vs => .error (.argumentCount 1 vs.length)
  | .negate, [v] => opposite v
  | .negate, vs => .error (.argumentCount 1 vs.length)
  | .not, [v] => v.condition.map fun b => .truth !b
  | .not, vs => .error (.argumentCount 1 vs.length)
  | .binary b, [v, w] => b.apply v w
  | .binary _, vs => .error (.argumentCount 2 vs.length)
  | .assign _, _ => .error .assignment

mutual

/-- The value of a tree. -/
def Tree.value (lookup : Text → Option Float) : Tree → Except Fault Value
  | .node op kids => do
      let vs ← Tree.values lookup kids
      op.apply lookup vs.reverse

/-- The values of the arguments of a node.  They are listed, like the arguments, from the latest
on, and the earliest is evaluated first. -/
def Tree.values (lookup : Text → Option Float) : List Tree → Except Fault (List Value)
  | [] => .ok []
  | kid :: earlier => do
      let vs ← Tree.values lookup earlier
      let v ← kid.value lookup
      return v :: vs

end

end Reckoner.Formula
