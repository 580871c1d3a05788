import Reckoner.Json.Basic

/-!
# JSON numbers

A number has an optional minus, an integer part without needless zeros, an optional fraction and
an optional exponent.

It is read with a significand of 64 bits.  Digits are added to it, those of the fraction after
those of the integer part, while it stays below `2^64`.  In each part the digits from the first
that does not fit are dropped; a dropped one of the integer part still counts as a place.  Then
the float nearest to the significand is multiplied with, or divided by, the float nearest to a
power of ten.  The result may therefore differ from the float nearest to the number.  A result
beyond the floats is an error.

Below `10^-308` the division is done in steps.
-/

namespace Reckoner.Json

open Number (ofRatio ofDigits isInfinite digitValue tenTo)
open Text (isAsciiDigit)

/-! ## The parts of a number -/

/-- A number as it is written. -/
structure Numeral where
  /-- Whether it has a minus. -/
  negative : Bool
  /-- The digits of the integer part. -/
  whole : Text
  /-- The digits of the fraction. -/
  places : Text
  /-- The exponent, zero if there is none. -/
  exponent : Int

/-- The digits a text starts with, of which there has to be one. -/
def someDigits (atEnd : Fault) (t : Text) : Except Fault (Text × Text) :=
  if t = [] then .error atEnd
  else if t.takeWhile isAsciiDigit = [] then .error .malformed
  else .ok (t.takeWhile isAsciiDigit, t.dropWhile isAsciiDigit)

/-- The integer part, which starts with zero only if it is zero. -/
def wholePart (atEnd : Fault) (t : Text) : Except Fault (Text × Text) :=
  match someDigits atEnd t with
  | .error fault => .error fault
  | .ok (digits, r) =>
      if digits.head? = some '0' ∧ 1 < digits.length then .error .malformed else .ok (digits, r)

/-- The fraction, if there is one. -/
def fraction (atEnd : Fault) (t : Text) : Except Fault (Text × Text) :=
  match t with
  | '.' :: r => someDigits atEnd r
  | t => .ok ([], t)

/-- The sign of an exponent, if there is one. -/
def exponentSign : Text → Bool × Text
  | '-' :: r => (true, r)
  | '+' :: r => (false, r)
  | t => (false, t)

/-- Whether a text starts with the letter of an exponent. -/
def startsExponent : Text → Bool
  | c :: _ => c = 'e' || c = 'E'
  | [] => false

/-- The exponent, zero if there is none. -/
def exponent (atEnd : Fault) (t : Text) : Except Fault (Int × Text) :=
  if startsExponent t then
    let (negative, r) := exponentSign (t.drop 1)
    match someDigits atEnd r with
    | .error fault => .error fault
    | .ok (digits, r) => .ok (if negative then -(ofDigits digits : Int) else ofDigits digits, r)
  else .ok (0, t)

/-- A number without its minus.  A text that ends inside it has the fault `atEnd`. -/
def unsignedNumeral (atEnd : Fault) (negative : Bool) (t : Text) :
    Except Fault (Numeral × Text) := do
  let (whole, t) ← wholePart atEnd t
  let (places, t) ← fraction atEnd t
  let (e, t) ← exponent atEnd t
  return (⟨negative, whole, places, e⟩, t)

/-- A number with its optional minus. -/
def numeral (atEnd : Fault) (t : Text) : Except Fault (Numeral × Text) :=
  match t with
  | '-' :: r => unsignedNumeral atEnd true r
  | t => unsignedNumeral atEnd false t

/-! ## Reading goes forward -/

theorem length_lt_of_someDigits {atEnd : Fault} {t s r : Text}
    (h : someDigits atEnd t = .ok (s, r)) : r.length < t.length := by
  unfold someDigits at h
  split at h
  · simp at h
  · split at h
    · simp at h
    · next hne =>
      simp only [Except.ok.injEq, Prod.mk.injEq] at h
      have hpos := List.length_pos_iff.2 hne
      have happ : (t.takeWhile isAsciiDigit ++ t.dropWhile isAsciiDigit).length = t.length := by
        rw [List.takeWhile_append_dropWhile]
      rw [List.length_append] at happ
      rw [← h.2]
      omega

theorem length_lt_of_wholePart {atEnd : Fault} {t s r : Text}
    (h : wholePart atEnd t = .ok (s, r)) : r.length < t.length := by
  unfold wholePart at h
  split at h
  · simp at h
  · next digits q hq =>
    split at h
    · simp at h
    · simp only [Except.ok.injEq, Prod.mk.injEq] at h
      exact h.2 ▸ length_lt_of_someDigits hq

theorem length_le_of_fraction {atEnd : Fault} {t s r : Text}
    (h : fraction atEnd t = .ok (s, r)) : r.length ≤ t.length := by
  unfold fraction at h
  split at h
  · have := length_lt_of_someDigits h
    simp only [List.length_cons]
    omega
  · simp only [Except.ok.injEq, Prod.mk.injEq] at h
    simp [h.2]

theorem length_exponentSign_le (t : Text) : (exponentSign t).2.length ≤ t.length := by
  unfold exponentSign
  split <;> simp

theorem length_le_of_exponent {atEnd : Fault} {t r : Text} {e : Int}
    (h : exponent atEnd t = .ok (e, r)) : r.length ≤ t.length := by
  unfold exponent at h
  split at h
  · have hsign := length_exponentSign_le (t.drop 1)
    simp only at h
    split at h
    · simp at h
    · next digits q hq =>
      have := length_lt_of_someDigits hq
      simp only [Except.ok.injEq, Prod.mk.injEq] at h
      rw [List.length_drop] at hsign
      rw [← h.2]
      omega
  · simp only [Except.ok.injEq, Prod.mk.injEq] at h
    simp [h.2]

theorem length_lt_of_unsignedNumeral {atEnd : Fault} {negative : Bool} {t r : Text} {n : Numeral}
    (h : unsignedNumeral atEnd negative t = .ok (n, r)) : r.length < t.length := by
  unfold unsignedNumeral at h
  cases hw : wholePart atEnd t with
  | error fault => simp [hw, bind, Except.bind] at h
  | ok w =>
    cases hf : fraction atEnd w.2 with
    | error fault => simp [hw, hf, bind, Except.bind] at h
    | ok f =>
      cases he : exponent atEnd f.2 with
      | error fault => simp [hw, hf, he, bind, Except.bind] at h
      | ok e =>
        simp only [hw, hf, he, bind, Except.bind, pure, Except.pure, Except.ok.injEq,
          Prod.mk.injEq] at h
        have h1 := length_lt_of_wholePart (s := w.1) (r := w.2) hw
        have h2 := length_le_of_fraction (s := f.1) (r := f.2) hf
        have h3 := length_le_of_exponent (e := e.1) (r := e.2) he
        rw [← h.2]
        omega

theorem length_lt_of_numeral {atEnd : Fault} {t r : Text} {n : Numeral}
    (h : numeral atEnd t = .ok (n, r)) : r.length < t.length := by
  unfold numeral at h
  split at h
  · have := length_lt_of_unsignedNumeral h
    simp only [List.length_cons]
    omega
  · exact length_lt_of_unsignedNumeral h

/-! ## The value of a number -/

/-- What a significand stays below, `2^64`. -/
def significandBound : Nat := 0x10000000000000000

/-- Adds digits to a significand while it stays below the bound, and gives the digits left. -/
def absorb : Nat → Text → Nat × Text
  | n, [] => (n, [])
  | n, c :: t =>
      if 10 * n + digitValue c < significandBound then absorb (10 * n + digitValue c) t
      else (n, c :: t)

/-- The float nearest to a power of ten. -/
def powerOfTen (n : Nat) : Float := ofRatio false (tenTo n) 1

/-- The greatest power of ten that is a float. -/
def greatestPower : Nat := 308

/-- A float times `10^e`; none if that is beyond the floats. -/
def scale (x : Float) (e : Int) : Option Float :=
  if e.natAbs ≤ greatestPower then
    if 0 ≤ e then
      let y := x * powerOfTen e.natAbs
      if isInfinite y then none else some y
    else some (x / powerOfTen e.natAbs)
  else if x == 0 then some x
  else if 0 ≤ e then none
  else scale (x / powerOfTen greatestPower) (e + greatestPower)
termination_by (-e).toNat
decreasing_by
  simp only [greatestPower] at *
  omega

/-- The float that a number is read as; none if it is beyond the floats. -/
def Numeral.value? (n : Numeral) : Option Float :=
  let (significand, dropped) := absorb 0 n.whole
  let (significand, left) := absorb significand n.places
  let shift : Int := dropped.length - (n.places.length - left.length)
  (scale (ofRatio false significand 1) (shift + n.exponent)).map fun x =>
    if n.negative then -x else x

/-- The float that a number at the start of a text is read as. -/
def number (t : Text) : Except Fault (Float × Text) :=
  match numeral .ended t with
  | .error fault => .error fault
  | .ok (n, r) =>
      match n.value? with
      | some x => .ok (x, r)
      | none => .error .malformed

theorem length_lt_of_number {t r : Text} {x : Float} (h : number t = .ok (x, r)) :
    r.length < t.length := by
  unfold number at h
  split at h
  · simp at h
  · next n q hq =>
    split at h
    · simp only [Except.ok.injEq, Prod.mk.injEq] at h
      exact h.2 ▸ length_lt_of_numeral hq
    · simp at h

end Reckoner.Json
