import Reckoner.Number.Shortest

/-!
# Formats of written numbers

A format says how the shortest digits of a float are laid out.

* Between two decimal exponents of the leading digit, if they are given, the number is written
  positionally.  Outside it is written with an exponent.
* A whole number in positional form may carry `.0`.
* A positive exponent may carry a plus sign.
* Zero keeps its sign.
* The infinities and what is not a number have words of their own.
-/

namespace Reckoner.Number

/-- The choices of one format. -/
structure Format where
  /-- Which of two equally near shortest decimals is written. -/
  tie : Tie
  /-- The least decimal exponent written positionally; without one, every smaller one is. -/
  least : Option Int
  /-- The greatest decimal exponent written positionally; without one, every greater one is. -/
  greatest : Option Int
  /-- Whether a whole number in positional form ends in `.0`. -/
  pointZero : Bool
  /-- Whether a positive exponent has a plus sign. -/
  plus : Bool
  /-- The word for infinity. -/
  infinity : Text
  /-- The word for negative infinity. -/
  negativeInfinity : Text
  /-- The word for what is not a number. -/
  nan : Text

namespace Format

/-- The decimal digits of a number, most significant first. -/
def digitsOf (n : Nat) : Text := Nat.toDigits 10 n

/-- A decimal without an exponent, with `.0` after a whole number if it is asked for. -/
def positional (pointZero : Bool) (d : Decimal) : Text :=
  let digits := digitsOf d.digits
  if 0 ≤ d.exponent then
    digits ++ List.replicate d.exponent.toNat '0' ++ if pointZero then ['.', '0'] else []
  else
    let places := (-d.exponent).toNat
    let padded := List.replicate (places + 1 - digits.length) '0' ++ digits
    let whole := padded.length - places
    padded.take whole ++ '.' :: padded.drop whole

/-- An exponent after its letter. -/
def exponent (plus : Bool) (e : Int) : Text :=
  'e' :: (if e < 0 then ['-'] else if plus then ['+'] else []) ++ digitsOf e.natAbs

/-- A decimal with one digit before the point, and its exponent. -/
def scientific (plus : Bool) (d : Decimal) : Text :=
  let lead : Int := d.top - 1
  match digitsOf d.digits with
  | [] => exponent plus lead
  | [c] => c :: exponent plus lead
  | c :: rest => c :: '.' :: rest ++ exponent plus lead

/-- Whether a decimal is written positionally. -/
def isPositional (f : Format) (d : Decimal) : Bool :=
  d.digits = 0 || (f.least.all (· ≤ d.top - 1) && f.greatest.all (d.top - 1 ≤ ·))

/-- The magnitude of a finite float. -/
def magnitude (f : Format) (b : Nat) : Text :=
  let d := shortest f.tie b
  if f.isPositional d then positional f.pointZero d else scientific f.plus d

/-- A float in a format. -/
def write (f : Format) (x : Float) : Text :=
  if isNaN x then f.nan
  else if isInfinite x then if isNegative x then f.negativeInfinity else f.infinity
  else if isNegative x then '-' :: f.magnitude (magnitudeBits x)
  else f.magnitude (magnitudeBits x)

end Format

end Reckoner.Number
