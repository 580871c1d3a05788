import Reckoner.Number.Decimal
import Reckoner.Text.Class

/-!
# Numerals

The text of a float: an optional sign, then one of the words `inf`, `infinity` and `nan` in any
case, or ASCII digits with an optional point, at least one digit among them, and an optional
exponent.  A numeral is read as the float nearest to the number it writes, and one that is too
large as infinity.
-/

namespace Reckoner.Number

open Text (isAsciiDigit)

/-- Splits a sign off a text; without one the sign is positive. -/
def signed : Text → Bool × Text
  | '-' :: t => (true, t)
  | '+' :: t => (false, t)
  | t => (false, t)

/-- The exponent after its letter: an optional sign and at least one digit, to the end of the
text. -/
def exponent? (t : Text) : Option Int :=
  let (negative, digits) := signed t
  if digits = [] ∨ ¬ digits.all isAsciiDigit then none
  else if negative then some (-(ofDigits digits : Int)) else some (ofDigits digits)

/-- The decimal that a text without a sign writes. -/
def decimal? (t : Text) : Option Decimal :=
  let whole := t.takeWhile isAsciiDigit
  let rest := t.dropWhile isAsciiDigit
  let (places, rest) :=
    match rest with
    | '.' :: r => (r.takeWhile isAsciiDigit, r.dropWhile isAsciiDigit)
    | _ => ([], rest)
  if whole = [] ∧ places = [] then none
  else
    match rest with
    | [] => some ⟨ofDigits (whole ++ places), -places.length⟩
    | c :: r =>
        if c = 'e' ∨ c = 'E' then
          (exponent? r).map fun e => ⟨ofDigits (whole ++ places), e - places.length⟩
        else none

/-- The float of a numeral without a sign, to be given the sign `negative`. -/
def unsigned? (negative : Bool) (t : Text) : Option Float :=
  let word := t.map Char.toLower
  if word = ['n', 'a', 'n'] then some (Float.ofBits 0x7FF8000000000000)
  else if word = ['i', 'n', 'f'] ∨ word = ['i', 'n', 'f', 'i', 'n', 'i', 't', 'y'] then
    some (ofMagnitude negative infinityBits)
  else (decimal? t).map (Decimal.toFloat negative)

/-- The float a numeral writes; none if the text is not a numeral. -/
def numeral? (t : Text) : Option Float :=
  let (negative, rest) := signed t
  unsigned? negative rest

example : numeral? "2.50e1".toList = some 25 ∧ numeral? ".5".toList = some 0.5 := by decide +kernel

example : numeral? "1.".toList = some 1 ∧ numeral? ".".toList = none := by decide +kernel

example : numeral? "1e".toList = none ∧ numeral? "+-1".toList = none := by decide +kernel

end Reckoner.Number
