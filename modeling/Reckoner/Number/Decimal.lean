import Reckoner.Basic
import Reckoner.Number.Units

/-!
# Decimals and the float nearest to one

A decimal is a whole number of digits times a power of ten.  It is read as the nearest float, a
half going to the even one, for any number of digits and any exponent.

The power of ten is only computed where it can matter.  A decimal that is not zero lies in the
decade that its number of digits and its exponent give.  From `10^310` on, every float is
passed, and below `10^-330` every number is nearest to zero.
-/

namespace Reckoner.Number

/-- The number `digits * 10^exponent`. -/
structure Decimal where
  /-- The digits, as a whole number. -/
  digits : Nat
  /-- The power of ten they are multiplied with. -/
  exponent : Int
deriving DecidableEq, Repr

/-- A power of ten. -/
def tenTo (n : Nat) : Nat := Nat.pow 10 n

/-- How many decimal digits a number is written with; zero has one. -/
def digitCount (n : Nat) : Nat := (Nat.toDigits 10 n).length

/-- The decade of a decimal other than zero: it is below `10^top` and not below a tenth of that.
-/
def Decimal.top (d : Decimal) : Int := digitCount d.digits + d.exponent

/-- The bits of the float nearest to a decimal. -/
def Decimal.bits (d : Decimal) : Nat :=
  if d.digits = 0 then 0
  else if 310 < d.top then infinityBits
  else if d.top < -330 then 0
  else bitsOfUnits (d.digits * tenTo d.exponent.toNat * one) (tenTo (-d.exponent).toNat)

/-- The float nearest to a decimal, with the given sign. -/
def Decimal.toFloat (negative : Bool) (d : Decimal) : Float := ofMagnitude negative d.bits

/-- The value of an ASCII digit. -/
def digitValue (c : Char) : Nat := c.toNat - '0'.toNat

/-- The number written with the given digits, most significant first. -/
def ofDigits (t : Text) : Nat := t.foldl (fun n c => 10 * n + digitValue c) 0

example : ofDigits "0120".toList = 120 := by decide

example : (⟨3, -1⟩ : Decimal).toFloat false = 0.3 ∧ (⟨1, 400⟩ : Decimal).bits = infinityBits := by
  decide +kernel

end Reckoner.Number
