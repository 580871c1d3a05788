import Reckoner.Number.Decimal

/-!
# The shortest decimal of a float

A float is written with the fewest digits that are read back as the same float.  For one digit,
two digits and so on, the float lies between two neighbours on the grid of decimals with that
many digits.  The first grid with a neighbour that reads back decides.  If both do, the nearer
is taken.  If they are equally near, the caller's rule for ties decides.  Seventeen digits are
always enough.  Before the grid of one digit comes the one above it, which offers nothing but
the next power of ten.

`bits_onGrid` says that what is offered reads back: nothing else is accepted.
-/

namespace Reckoner.Number

/-- Which of two equally near decimals is written. -/
inductive Tie
  /-- The one with the even last digit. -/
  | even
  /-- The one farther from zero. -/
  | away
deriving DecidableEq, Repr

/-- The decimal exponent of the leading digit of `u` units, for `u` other than zero. -/
def leadingExponent (u : Nat) : Int :=
  if one ≤ u then digitCount (u / one) - 1
  else
    let places := digitCount (one / u)
    if one ≤ u * tenTo (places - 1) then 1 - places else -places

/-- The neighbour of the float with the bits `b` that reads back on the grid of step `10^k`, if
there is one. -/
def onGrid (tie : Tie) (b : Nat) (k : Int) : Option Decimal :=
  let num := unitsOfBits b * tenTo (-k).toNat
  let den := one * tenTo k.toNat
  let below : Decimal := ⟨num / den, k⟩
  let above : Decimal := ⟨num / den + 1, k⟩
  let twice := 2 * (num % den)
  if below.bits = b then
    if above.bits = b then
      if twice < den then some below
      else if den < twice then some above
      else if tie = .even ∧ below.digits % 2 = 0 then some below
      else some above
    else some below
  else if above.bits = b then some above
  else none

/-- The exact value of the float with the bits `b`. -/
def exactDecimal (b : Nat) : Decimal := ⟨unitsOfBits b * Nat.pow 5 1074, -1074⟩

/-- The shortest decimal that reads back as the finite float with the bits `b`. -/
def shortest (tie : Tie) (b : Nat) : Decimal :=
  if b = 0 then ⟨0, 0⟩
  else
    let lead := leadingExponent (unitsOfBits b)
    ((List.range 18).findSome? fun (places : Nat) => onGrid tie b (lead + 1 - places)).getD
      (exactDecimal b)

/-- What a grid offers reads back. -/
theorem bits_onGrid {tie : Tie} {b : Nat} {k : Int} {d : Decimal} (h : onGrid tie b k = some d) :
    d.bits = b := by
  simp only [onGrid] at h
  split at h
  · next hbelow =>
    split at h
    · next habove =>
      split at h
      · cases h
        exact hbelow
      · split at h
        · cases h
          exact habove
        · split at h
          · cases h
            exact hbelow
          · cases h
            exact habove
    · cases h
      exact hbelow
  · split at h
    · next habove =>
      cases h
      exact habove
    · cases h

example : shortest .even (0.1 : Float).toBits.toNat = ⟨1, -1⟩ := by decide +kernel

example : shortest .even (1e23 : Float).toBits.toNat = ⟨1, 23⟩ := by decide +kernel

example : shortest .even 1 = ⟨5, -324⟩ := by decide +kernel

end Reckoner.Number
