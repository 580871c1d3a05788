import Reckoner.Formula.Fault
import Reckoner.Number.Numeral

/-!
# Tokens

The second cut of a formula: pieces join to tokens.

* A sign may join with an `=` right after it, and `&` and `|` have to be doubled first.
* A literal is an integer if it is a decimal or, after `0x`, a hexadecimal number of 64 bits,
  else a float if it is a numeral, else `true` or `false`, else a name.
* The sign of an exponent cuts a numeral into three pieces.  So a literal that is none of the
  first three joins with a sign and another literal, if the three together are a numeral.
* Blanks keep their neighbours apart and are dropped.
-/

namespace Reckoner.Formula

/-- A token of a formula. -/
inductive Token
  /-- An operator that always stands between two arguments. -/
  | binary (b : Binary)
  /-- A minus, between two arguments or before one. -/
  | minus
  /-- The `!` before an argument. -/
  | not
  /-- An assignment, `plain` for `=` itself. -/
  | assign (plain : Bool)
  | openParen
  | closeParen
  | comma
  | semicolon
  /-- A name. -/
  | name (t : Text)
  /-- A literal or quoted text. -/
  | value (v : Value)

/-! ## Signs -/

/-- The token a sign forms with an `=` right after it. -/
def Sign.withEqual? : Sign → Option Token
  | .plus | .minus | .star | .slash | .percent | .hat => some (.assign false)
  | .equal => some (.binary .equal)
  | .bang => some (.binary .unequal)
  | .greater => some (.binary .atLeast)
  | .less => some (.binary .atMost)
  | _ => none

/-- The token of a sign on its own.  A single `&` or `|` is none. -/
def Sign.alone? : Sign → Option Token
  | .plus => some (.binary (.arithmetic .add))
  | .minus => some .minus
  | .star => some (.binary (.arithmetic .multiply))
  | .slash => some (.binary (.arithmetic .divide))
  | .percent => some (.binary (.arithmetic .modulo))
  | .hat => some (.binary .power)
  | .openParen => some .openParen
  | .closeParen => some .closeParen
  | .comma => some .comma
  | .semicolon => some .semicolon
  | .equal => some (.assign true)
  | .bang => some .not
  | .greater => some (.binary .greater)
  | .less => some (.binary .less)
  | .ampersand | .bar => none

/-! ## Literals -/

/-- The value of a hexadecimal digit. -/
def hexDigit? (c : Char) : Option Nat :=
  if '0' ≤ c ∧ c ≤ '9' then some (c.toNat - '0'.toNat)
  else if 'a' ≤ c ∧ c ≤ 'f' then some (c.toNat - 'a'.toNat + 10)
  else if 'A' ≤ c ∧ c ≤ 'F' then some (c.toNat - 'A'.toNat + 10)
  else none

/-- The number written with hexadecimal digits, at least one. -/
def hexadecimal? (t : Text) : Option Nat :=
  if t = [] then none
  else t.foldlM (fun n c => (hexDigit? c).map (16 * n + ·)) 0

/-- The number written with decimal digits, at least one. -/
def decimalInteger? (t : Text) : Option Nat :=
  if t = [] ∨ ¬ t.all Text.isAsciiDigit then none else some (Number.ofDigits t)

/-- The least number above the integers of 64 bits, `2^63`. -/
def integerBound : Nat := 0x8000000000000000

/-- The integer that a literal writes, if it is one of 64 bits. -/
def integer? (t : Text) : Option Int :=
  let magnitude :=
    match t with
    | '0' :: 'x' :: digits => hexadecimal? digits
    | _ => decimalInteger? t
  match magnitude with
  | some n => if n < integerBound then some n else none
  | none => none

/-- The value that a literal writes on its own. -/
def literalValue? (t : Text) : Option Value :=
  match integer? t with
  | some n => some (.integer n)
  | none =>
      match Number.numeral? t with
      | some x => some (.float x)
      | none =>
          if t = "true".toList then some (.truth true)
          else if t = "false".toList then some (.truth false)
          else none

/-- The float that a literal writes together with a sign and the literal after it. -/
def splitNumeral? (t : Text) (s : Sign) (next : Text) : Option Float :=
  if s = .plus ∨ s = .minus then Number.numeral? (t ++ s.char :: next) else none

/-! ## From pieces to tokens -/

/-- The tokens of a list of pieces. -/
def tokens : List Piece → Except Fault (List Token)
  | [] => .ok []
  | .blank :: ps => tokens ps
  | .quoted t :: ps => (tokens ps).map (.value (.text t) :: ·)
  | .literal t :: .sign s :: .literal u :: ps =>
      match literalValue? t with
      | some v => (tokens (.sign s :: .literal u :: ps)).map (.value v :: ·)
      | none =>
          match splitNumeral? t s u with
          | some x => (tokens ps).map (.value (.float x) :: ·)
          | none => (tokens (.sign s :: .literal u :: ps)).map (.name t :: ·)
  | .literal t :: ps =>
      match literalValue? t with
      | some v => (tokens ps).map (.value v :: ·)
      | none => (tokens ps).map (.name t :: ·)
  | .sign .ampersand :: .sign .ampersand :: .sign .equal :: ps
  | .sign .bar :: .sign .bar :: .sign .equal :: ps => (tokens ps).map (.assign false :: ·)
  | .sign .ampersand :: .sign .ampersand :: ps => (tokens ps).map (.binary .conjunction :: ·)
  | .sign .bar :: .sign .bar :: ps => (tokens ps).map (.binary .disjunction :: ·)
  | .sign s :: .sign .equal :: ps =>
      match s.withEqual? with
      | some token => (tokens ps).map (token :: ·)
      | none =>
          match s.alone? with
          | some token => (tokens (.sign .equal :: ps)).map (token :: ·)
          | none => .error (.halfSign s (some (.sign .equal)))
  | .sign s :: ps =>
      match s.alone? with
      | some token => (tokens ps).map (token :: ·)
      | none => .error (.halfSign s ps.head?)

end Reckoner.Formula
