import Reckoner.Formula.Operator
import Reckoner.Formula.Piece

/-!
# Faults

Why a formula has no value, and the message for each cause.  A fault is found at one of four
stages: when the text is cut into pieces, when the pieces become tokens, when the tree is built,
or when the tree is evaluated.
-/

namespace Reckoner.Formula

/-- Why a formula has no value. -/
inductive Fault
  /-- The text cannot be cut into pieces. -/
  | cut (f : CutFault)
  /-- A single `&` or `|` stands before another piece, or at the end. -/
  | halfSign (s : Sign) (next : Option Piece)
  /-- An opening parenthesis is not closed. -/
  | unmatchedOpening
  /-- A closing parenthesis closes nothing. -/
  | unmatchedClosing
  /-- An operator cannot be put under one that binds more strongly. -/
  | precedence
  /-- Something stands after a literal or a name that takes no argument. -/
  | leaf
  /-- There is no operator between a parenthesis and what is next to it. -/
  | missingOperator
  /-- An operator has the wrong number of arguments. -/
  | argumentCount (expected actual : Nat)
  /-- A truth value is needed. -/
  | notTruth (v : Value)
  /-- A number is needed. -/
  | notNumber (v : Value)
  /-- A number or a text is needed. -/
  | notNumberOrText (v : Value)
  /-- A text is added to a number. -/
  | mixedSum (left right : Value)
  /-- The result is no integer of 64 bits, or the divisor is zero. -/
  | integerOverflow (a : Arithmetic) (left right : Int)
  /-- The least integer is negated. -/
  | negationOverflow (n : Int)
  /-- Names cannot be assigned to. -/
  | assignment
  /-- No constant has this name. -/
  | unknownSymbol (name : Text)
  /-- No function has this name. -/
  | unknownFunction (name : Text)
  /-- The function takes one argument. -/
  | oneArgument (function : Text) (given : Nat)
  /-- The function takes at least one argument. -/
  | someArgument (function : Text)
  /-- The formula is worth a tuple. -/
  | tupleResult
  /-- The formula is worth nothing. -/
  | emptyResult

/-- The participle that names an operation on integers. -/
def Arithmetic.participle : Arithmetic → String
  | .add => "adding"
  | .subtract => "subtracting"
  | .multiply => "multiplying"
  | .divide => "dividing"
  | .modulo => "modulating"

/-- The sign of an operation on integers. -/
def Arithmetic.sign : Arithmetic → String
  | .add => "+"
  | .subtract => "-"
  | .multiply => "*"
  | .divide => "/"
  | .modulo => "%"

/-- The message for a text that cannot be cut into pieces. -/
def CutFault.message : CutFault → String
  | .unmatchedQuote => "Found an unmatched double quote '\"'"
  | .illegalEscape none => "Illegal escape sequence: \\"
  | .illegalEscape (some c) => "Illegal escape sequence: \\" ++ String.singleton c
  | .unmatchedComment => "Error: unmatched inline comment"

/-- The message for a single `&` or `|`. -/
def halfSignMessage (s : Sign) (next : Option Piece) : String :=
  let start := "Found a partial token '" ++ String.singleton s.char ++ "' that should "
  match next with
  | some p => start ++ "not be followed by '" ++ String.ofList p.shown ++ "'."
  | none => start ++ "be followed by another partial token."

/-- The message for a value of the wrong kind. -/
def wrongKindMessage (expected : String) (v : Value) : String :=
  "Expected a " ++ expected ++ ", but got " ++ String.ofList v.shown ++ "."

/-- The message for a fault. -/
def Fault.message : Fault → String
  | .cut f => f.message
  | .halfSign s next => halfSignMessage s next
  | .unmatchedOpening => "Found an unmatched opening parenthesis '('."
  | .unmatchedClosing => "Found an unmatched closing parenthesis ')'."
  | .precedence => "Tried to append a node to another node with higher precedence."
  | .leaf => "Tried to append a node to a leaf node."
  | .missingOperator =>
      "Found an opening parenthesis that is preceded by something that does not take any " ++
      "arguments on the right, or found a closing parenthesis that is succeeded by something " ++
      "that does not take any arguments on the left."
  | .argumentCount expected actual =>
      "An operator expected " ++ toString expected ++ " arguments, but got " ++ toString actual ++
      "."
  | .notTruth v => wrongKindMessage "Value::Boolean" v
  | .notNumber v => wrongKindMessage "Value::Float or Value::Int" v
  | .notNumberOrText v => wrongKindMessage "Value::Number or a Value::String" v
  | .mixedSum left right =>
      "The operator Add was called with a wrong combination of types: [" ++
      String.ofList left.kind ++ ", " ++ String.ofList right.kind ++ "]"
  | .integerOverflow a left right =>
      "Error " ++ a.participle ++ " " ++ String.ofList (integerText left) ++ " " ++ a.sign ++ " " ++
      String.ofList (integerText right)
  | .negationOverflow n => "Error negating -" ++ String.ofList (integerText n)
  | .assignment => "Cannot manipulate context"
  | .unknownSymbol name => "unknown symbol: " ++ String.ofList name
  | .unknownFunction name => "unknown function: " ++ String.ofList name
  | .oneArgument function given =>
      "Error: " ++ String.ofList function ++ " takes exactly one argument, got " ++ toString given
  | .someArgument function =>
      "Error: " ++ String.ofList function ++ " needs at least one argument"
  | .tupleResult => "unsupported result: tuple"
  | .emptyResult => "unsupported result: empty"

end Reckoner.Formula
