import Reckoner.Formula.Value

/-!
# Operators

What a node of a formula's tree does with its arguments.  Every operator has a precedence and,
but for the two sequences, a greatest number of arguments.

* A leaf takes no argument: a literal, a constant that is read, a name that is assigned to.
* A unary operator takes exactly one: negation, `!` and a function call.
* A pair of parentheses, like the whole formula, is a plain group.  It takes one argument too,
  but it is closed by its parenthesis and not by precedence.
* A sequence takes any number: a tuple between commas, and a chain between semicolons.
* All other operators take two.

Of two operators of one precedence the left one binds first, but for plain assignments and
function calls.
-/

namespace Reckoner.Formula

/-- The operations on two numbers that keep integers integers. -/
inductive Arithmetic
  | add | subtract | multiply | divide | modulo
deriving DecidableEq, Repr

/-- The operators between two arguments, assignments apart. -/
inductive Binary
  /-- An operation on two numbers. -/
  | arithmetic (a : Arithmetic)
  /-- Raising to a power. -/
  | power
  | equal | unequal | greater | less | atLeast | atMost
  | conjunction | disjunction
deriving DecidableEq, Repr

/-- What a node does. -/
inductive Operator
  /-- A pair of parentheses, or the whole formula. -/
  | group
  /-- Values between commas. -/
  | tuple
  /-- Expressions between semicolons; the last one counts. -/
  | chain
  /-- A literal. -/
  | literal (v : Value)
  /-- The value of a constant. -/
  | read (name : Text)
  /-- A name on the left of an assignment. -/
  | write (name : Text)
  /-- A call of a function. -/
  | call (name : Text)
  /-- The minus before a number. -/
  | negate
  /-- The `!` before a truth value. -/
  | not
  /-- An operator between two arguments. -/
  | binary (b : Binary)
  /-- An assignment, `plain` for `=` itself. -/
  | assign (plain : Bool)

namespace Operator

/-- How strongly an operator binds. -/
def precedence : Operator → Nat
  | .group | .literal _ | .read _ | .write _ => 200
  | .call _ => 190
  | .binary .power => 120
  | .negate | .not => 110
  | .binary (.arithmetic .add) | .binary (.arithmetic .subtract) => 95
  | .binary (.arithmetic _) => 100
  | .binary .conjunction => 75
  | .binary .disjunction => 70
  | .binary _ => 80
  | .assign _ => 50
  | .tuple => 40
  | .chain => 0

/-- The greatest number of arguments; none for a sequence. -/
def arity : Operator → Option Nat
  | .tuple | .chain => none
  | .literal _ | .read _ | .write _ => some 0
  | .group | .call _ | .negate | .not => some 1
  | .binary _ | .assign _ => some 2

/-- Whether an operator takes no argument. -/
def isLeaf (op : Operator) : Bool := op.arity = some 0

/-- Whether an operator is a pair of parentheses or the whole formula. -/
def isGroup : Operator → Bool
  | .group => true
  | _ => false

/-- Whether an operator stands before its only argument. -/
def isUnary (op : Operator) : Bool := op.arity = some 1 && !op.isGroup

/-- Whether an operator takes any number of arguments. -/
def isSequence (op : Operator) : Bool := op.arity = none

/-- Whether two operators are sequences of the same kind. -/
def sameSequence : Operator → Operator → Bool
  | .tuple, .tuple => true
  | .chain, .chain => true
  | _, _ => false

/-- Whether of two such operators the left one binds first. -/
def bindsLeft : Operator → Bool
  | .assign plain => !plain
  | .call _ => false
  | _ => true

/-- Whether a node with the operator `outer` takes a later node with the operator `inner` into
its last argument. -/
def takes (outer inner : Operator) : Bool :=
  outer.precedence < inner.precedence || inner.isUnary ||
    outer.precedence = inner.precedence && !outer.bindsLeft && !inner.bindsLeft

end Operator

example : (Operator.binary (.arithmetic .add)).takes (.binary (.arithmetic .multiply)) = true := by
  decide

example : (Operator.binary .power).takes .negate = true := by decide

end Reckoner.Formula
