import Reckoner.Proofs.Scaling
import Reckoner.Proofs.Shortest
import Reckoner.Proofs.Strings
import Reckoner.Settings.Writer

/-!
# A number that is written is read

A finite float is written in one of three ways: as a whole number with one place, with a point
among its digits, or with an exponent.  From each of them the same decimal is read
(`writes_magnitude`), which is the shortest one but for the place behind a whole number.  Its
digits fit into the significand, so none is dropped (`Numeral.value?_eq`).

What the number is read back as (`reread`) is the approach to this decimal.  It is finite, has the
same sign, and is near (`units_reread`) or exact (`reread_of_exact`).
-/

namespace Reckoner.Json

open Number (Decimal Format ofDigits ofRatio tenTo digitValue)
open Number.Format (digitsOf)
open Text (isAsciiDigit)

/-! ## The parts of a number in front of other text -/

/-- A text that is not the rest of a number. -/
def EndsNumber (r : Text) : Prop :=
  ∀ c ∈ r.head?, isAsciiDigit c = false ∧ c ≠ '.' ∧ c ≠ 'e' ∧ c ≠ 'E'

variable {atEnd : Fault} {s t r : Text}

/-- Digits are read up to the first other character. -/
theorem someDigits_append (hne : s ≠ []) (hs : ∀ c ∈ s, isAsciiDigit c = true)
    (hr : ∀ c ∈ r.head?, isAsciiDigit c = false) : someDigits atEnd (s ++ r) = .ok (s, r) := by
  obtain ⟨htake, hdrop⟩ := Number.run_append hs hr
  rw [someDigits, if_neg (by simp [hne]), htake, hdrop, if_neg hne]

/-- The integer part is not followed by a digit, and starts with zero only if it is zero. -/
theorem wholePart_append (hne : s ≠ []) (hs : ∀ c ∈ s, isAsciiDigit c = true)
    (hzero : s.head? = some '0' → s.length = 1) (hr : ∀ c ∈ r.head?, isAsciiDigit c = false) :
    wholePart atEnd (s ++ r) = .ok (s, r) := by
  rw [wholePart, someDigits_append hne hs hr]
  refine if_neg fun h => ?_
  have := hzero h.1
  omega

theorem fraction_append (hne : s ≠ []) (hs : ∀ c ∈ s, isAsciiDigit c = true)
    (hr : ∀ c ∈ r.head?, isAsciiDigit c = false) :
    fraction atEnd ('.' :: (s ++ r)) = .ok (s, r) :=
  someDigits_append hne hs hr

theorem fraction_none (hr : ∀ c ∈ r.head?, c ≠ '.') : fraction atEnd r = .ok ([], r) := by
  unfold fraction
  split
  · next q => exact absurd rfl (hr '.' rfl)
  · rfl

theorem exponent_none (hr : EndsNumber r) : exponent atEnd r = .ok (0, r) := by
  have hstart : startsExponent r = false := by
    cases r with
    | nil => rfl
    | cons c r => simp [startsExponent, (hr c rfl).2.2]
  rw [exponent, hstart]
  rfl

theorem exponent_signed {q : Text} {negative : Bool} {n : Nat}
    (hsign : exponentSign q = (negative, digitsOf n ++ r))
    (hr : ∀ c ∈ r.head?, isAsciiDigit c = false) :
    exponent atEnd ('e' :: q) = .ok (if negative then -(n : Int) else n, r) := by
  have hdigits : someDigits atEnd (digitsOf n ++ r) = .ok (digitsOf n, r) :=
    someDigits_append (Number.digitsOf_ne_nil n)
      (fun c hc => Number.isAsciiDigit_of_mem_digitsOf hc) hr
  rw [exponent, if_pos (show startsExponent ('e' :: q) = true from rfl)]
  simp only [List.drop_succ_cons, List.drop_zero, hsign, hdigits, Number.ofDigits_digitsOf]

/-- An exponent is read with its sign. -/
theorem exponent_append (e : Int) (hr : ∀ c ∈ r.head?, isAsciiDigit c = false) :
    exponent atEnd (Format.exponent true e ++ r) = .ok (e, r) := by
  by_cases he : e < 0
  · have htext : Format.exponent true e ++ r = 'e' :: '-' :: (digitsOf e.natAbs ++ r) := by
      simp [Format.exponent, he]
    have hsign : exponentSign ('-' :: (digitsOf e.natAbs ++ r)) =
        (true, digitsOf e.natAbs ++ r) := rfl
    rw [htext, exponent_signed hsign hr, if_pos rfl,
      show -(e.natAbs : Int) = e by omega]
  · have htext : Format.exponent true e ++ r = 'e' :: '+' :: (digitsOf e.natAbs ++ r) := by
      simp [Format.exponent, he]
    have hsign : exponentSign ('+' :: (digitsOf e.natAbs ++ r)) =
        (false, digitsOf e.natAbs ++ r) := rfl
    rw [htext, exponent_signed hsign hr, if_neg Bool.false_ne_true,
      show (e.natAbs : Int) = e by omega]

/-- The parts of a number are read one after the other. -/
theorem unsignedNumeral_of_parts {negative : Bool} {t₀ t₁ t₂ whole places : Text} {e : Int}
    (hwhole : wholePart atEnd t₀ = .ok (whole, t₁)) (hplaces : fraction atEnd t₁ = .ok (places, t₂))
    (he : exponent atEnd t₂ = .ok (e, r)) :
    unsignedNumeral atEnd negative t₀ = .ok (⟨negative, whole, places, e⟩, r) := by
  rw [unsignedNumeral, hwhole]
  show (fraction atEnd t₁ >>= _) = _
  rw [hplaces]
  show (exponent atEnd t₂ >>= _) = _
  rw [he]
  rfl

/-! ## The value of a number -/

theorem le_mul_tenTo_add (n k m : Nat) : n ≤ n * tenTo k + m :=
  Nat.le_trans (Nat.le_mul_of_pos_right _ (Number.tenTo_pos _)) (Nat.le_add_right _ _)

/-- Digits that fit are all added to a significand. -/
theorem absorb_eq {n : Nat} (h : n * tenTo t.length + ofDigits t < significandBound) :
    absorb n t = (n * tenTo t.length + ofDigits t, []) := by
  induction t generalizing n with
  | nil => simp [absorb, tenTo, ofDigits]
  | cons c t ih =>
    rw [Number.mul_tenTo_cons] at h ⊢
    have hle : 10 * n + digitValue c < significandBound :=
      Nat.lt_of_le_of_lt (le_mul_tenTo_add _ _ _) h
    rw [absorb, if_pos hle, ih h]

/-- The decimal that a number writes. -/
def Numeral.decimal (n : Numeral) : Decimal :=
  ⟨ofDigits (n.whole ++ n.places), n.exponent - n.places.length⟩

/-- A number whose digits fit is read from all of them. -/
theorem Numeral.value?_eq {n : Numeral} (h : n.decimal.digits < significandBound) :
    n.value? = (scale (ofRatio false n.decimal.digits 1) n.decimal.exponent).map fun x =>
      if n.negative then -x else x := by
  have hdigits : ofDigits (n.whole ++ n.places) < significandBound := h
  rw [Number.ofDigits_append] at hdigits
  have hwhole : absorb 0 n.whole = (ofDigits n.whole, []) := by
    have hle : ofDigits n.whole < significandBound :=
      Nat.lt_of_le_of_lt (le_mul_tenTo_add _ _ _) hdigits
    have heq := absorb_eq (n := 0) (t := n.whole) (by rwa [Nat.zero_mul, Nat.zero_add])
    rwa [Nat.zero_mul, Nat.zero_add] at heq
  have hshift : ((0 : Nat) - (n.places.length - (0 : Nat)) + n.exponent : Int) =
      n.decimal.exponent := by
    show _ = n.exponent - n.places.length
    omega
  rw [Numeral.value?, hwhole]
  simp only [absorb_eq hdigits, List.length_nil, hshift]
  rw [← Number.ofDigits_append]
  rfl

end Reckoner.Json

namespace Reckoner.Settings

open Number (Decimal Format Tie shortest infinityBits digitCount tenTo magnitudeBits isNegative
  isFinite ofDigits ofMagnitude)
open Number.Format (digitsOf positional scientific)
open Json (EndsNumber Fault Numeral unsignedNumeral approach)
open Text (isAsciiDigit)

/-! ## Written numbers -/

/-- The decimal that a written number is read as before it is rounded: the shortest one, with one
place more if it is whole. -/
def written (b : Nat) : Decimal :=
  let d := shortest .even b
  if jsonFormat.isPositional d ∧ 0 ≤ d.exponent then
    ⟨d.digits * tenTo (d.exponent.toNat + 1), -1⟩
  else d

variable {r : Text}

/-- A text that a decimal is read from, whatever stands behind it. -/
structure Writes (t : Text) (d : Decimal) : Prop where
  /-- It starts with a digit. -/
  digit : ∃ c q, t = c :: q ∧ isAsciiDigit c = true
  /-- The decimal is read from it. -/
  read : ∀ (atEnd : Fault) (negative : Bool) (r : Text), EndsNumber r → ∃ n : Numeral,
    unsignedNumeral atEnd negative (t ++ r) = .ok (n, r) ∧ n.negative = negative ∧ n.decimal = d

/-- A decimal with a point. -/
theorem writes_point {whole places : Text} (hne : whole ≠ []) (hne' : places ≠ [])
    (hwhole : ∀ c ∈ whole, isAsciiDigit c = true) (hplaces : ∀ c ∈ places, isAsciiDigit c = true)
    (hzero : whole.head? = some '0' → whole.length = 1) :
    Writes (whole ++ '.' :: places) ⟨ofDigits (whole ++ places), -places.length⟩ := by
  constructor
  · cases whole with
    | nil => exact absurd rfl hne
    | cons c whole => exact ⟨c, _, rfl, hwhole c List.mem_cons_self⟩
  · intro atEnd negative r hr
    refine ⟨⟨negative, whole, places, 0⟩, ?_, rfl, ?_⟩
    · rw [List.append_assoc, List.cons_append]
      refine Json.unsignedNumeral_of_parts (Json.wholePart_append hne hwhole hzero ?_)
        (Json.fraction_append hne' hplaces fun c hc => (hr c hc).1) (Json.exponent_none hr)
      intro c hc
      cases hc
      rfl
    · rw [Numeral.decimal, Int.zero_sub]

/-- A whole number with one place. -/
theorem writes_whole {n k : Nat} (h : n = 0 → k = 0) :
    Writes (positional true ⟨n, k⟩) ⟨n * tenTo (k + 1), -1⟩ := by
  obtain ⟨hdigits, -⟩ := Number.digits_extended n k
  have htext : positional true ⟨n, k⟩ = digitsOf n ++ List.replicate k '0' ++ '.' :: ['0'] := by
    simp [positional]
  have hvalue : (⟨n * tenTo (k + 1), -1⟩ : Decimal) =
      ⟨ofDigits (digitsOf n ++ List.replicate k '0' ++ ['0']), -(['0'] : Text).length⟩ := by
    rw [List.append_assoc, ← List.replicate_succ', (Number.digits_extended n (k + 1)).2]
    rfl
  rw [htext, hvalue]
  refine writes_point ?_ (List.cons_ne_nil _ _) hdigits ?_ ?_
  · simp [Number.digitsOf_ne_nil]
  · intro c hc
    rw [List.mem_singleton.1 hc]
    rfl
  · intro hhead
    have hn : n = 0 := by
      refine Decidable.by_contra fun hn => ?_
      rw [List.head?_append_of_ne_nil _ (Number.digitsOf_ne_nil n)] at hhead
      exact Number.head_digitsOf_ne hn hhead
    rw [hn, h hn]
    rfl

/-- A number with places. -/
theorem writes_places (pointZero : Bool) (n : Nat) {p : Nat} (hp : ¬ (0 : Int) ≤ -p) :
    Writes (positional pointZero ⟨n, -p⟩) ⟨n, -p⟩ := by
  obtain ⟨whole, places, htext, hne, hwhole, hplaces, hvalue, hlength, hhead⟩ :=
    Number.positional_point pointZero n hp
  rw [htext, ← hvalue, ← hlength]
  refine writes_point hne (fun hnil => ?_) hwhole hplaces hhead
  rw [hnil] at hlength
  exact hp (by rw [← hlength]; exact Int.le_refl 0)

/-- A decimal with an exponent. -/
theorem writes_scientific (d : Decimal) : Writes (scientific true d) d := by
  obtain ⟨c, rest, hdigits⟩ := List.exists_cons_of_ne_nil (Number.digitsOf_ne_nil d.digits)
  have hall : ∀ x ∈ c :: rest, isAsciiDigit x = true := fun x hx =>
    Number.isAsciiDigit_of_mem_digitsOf (n := d.digits) (hdigits ▸ hx)
  have hcount : digitCount d.digits = rest.length + 1 := congrArg List.length hdigits
  have hc : ∀ x ∈ [c], isAsciiDigit x = true := fun x hx =>
    hall x (List.mem_singleton.1 hx ▸ List.mem_cons_self)
  have hzero : ([c] : Text).head? = some '0' → ([c] : Text).length = 1 := fun _ => rfl
  have hvalue : (⟨ofDigits ([c] ++ rest), d.top - 1 - rest.length⟩ : Decimal) = d := by
    rw [List.singleton_append, ← hdigits, Number.ofDigits_digitsOf,
      show (d.top - 1 : Int) - rest.length = d.exponent by rw [Decimal.top, hcount]; omega]
  have hexponent {r : Text} : ∀ x ∈ (Format.exponent true (d.top - 1) ++ r).head?,
      isAsciiDigit x = false ∧ x ≠ '.' := by
    intro x hx
    cases hx
    decide
  cases rest with
  | nil =>
    have htext : scientific true d = [c] ++ Format.exponent true (d.top - 1) := by
      rw [scientific, hdigits]
      rfl
    rw [htext]
    refine ⟨⟨c, _, rfl, hall c List.mem_cons_self⟩, fun atEnd negative r hr =>
      ⟨⟨negative, [c], [], d.top - 1⟩, ?_, rfl, hvalue⟩⟩
    rw [List.append_assoc]
    exact Json.unsignedNumeral_of_parts
      (Json.wholePart_append (List.cons_ne_nil c []) hc hzero fun x hx => (hexponent x hx).1)
      (Json.fraction_none fun x hx => (hexponent x hx).2)
      (Json.exponent_append _ fun x hx => (hr x hx).1)
  | cons p places =>
    have htext : scientific true d =
        [c] ++ '.' :: (p :: places ++ Format.exponent true (d.top - 1)) := by
      rw [scientific, hdigits]
      rfl
    rw [htext]
    refine ⟨⟨c, _, rfl, hall c List.mem_cons_self⟩, fun atEnd negative r hr =>
      ⟨⟨negative, [c], p :: places, d.top - 1⟩, ?_, rfl, hvalue⟩⟩
    have hassoc : [c] ++ '.' :: (p :: places ++ Format.exponent true (d.top - 1)) ++ r =
        [c] ++ '.' :: (p :: places ++ (Format.exponent true (d.top - 1) ++ r)) := by simp
    rw [hassoc]
    refine Json.unsignedNumeral_of_parts
      (Json.wholePart_append (List.cons_ne_nil c []) hc hzero ?_)
      (Json.fraction_append (List.cons_ne_nil p places)
        (fun x hx => hall x (List.mem_cons_of_mem c hx)) fun x hx => (hexponent x hx).1)
      (Json.exponent_append _ fun x hx => (hr x hx).1)
    intro x hx
    cases hx
    rfl

/-- Only zero is written with the digit zero alone. -/
theorem shortest_of_digits {b : Nat} (hb : b ≤ infinityBits)
    (h : (shortest .even b).digits = 0) : b = 0 := by
  rw [← Number.bits_shortest .even hb, Decimal.bits, if_pos h]

/-- A magnitude writes its shortest decimal. -/
theorem writes_magnitude {b : Nat} (hb : b ≤ infinityBits) :
    Writes (jsonFormat.magnitude b) (written b) := by
  have hzero := shortest_of_digits hb
  have hshortest : b = 0 → shortest .even b = ⟨0, 0⟩ := fun h => by rw [h]; rfl
  rw [Format.magnitude, written, show jsonFormat.tie = .even from rfl]
  generalize shortest .even b = d at *
  by_cases hpositional : jsonFormat.isPositional d = true
  · obtain ⟨n, e⟩ := d
    rw [if_pos hpositional]
    by_cases he : 0 ≤ e
    · obtain ⟨k, rfl⟩ := Int.eq_ofNat_of_zero_le he
      rw [if_pos ⟨hpositional, he⟩]
      exact writes_whole fun hn => Int.ofNat.inj (congrArg Decimal.exponent (hshortest (hzero hn)))
    · obtain ⟨p, rfl⟩ : ∃ p : Nat, e = -p := ⟨(-e).toNat, by omega⟩
      rw [if_neg fun h => he h.2]
      exact writes_places jsonFormat.pointZero n he
  · rw [if_neg hpositional, if_neg fun h => hpositional h.1]
    exact writes_scientific d

theorem written_cases (b : Nat) :
    jsonFormat.isPositional (shortest .even b) = true ∧ 0 ≤ (shortest .even b).exponent ∧
        written b =
          ⟨(shortest .even b).digits * tenTo ((shortest .even b).exponent.toNat + 1), -1⟩ ∨
      written b = shortest .even b := by
  by_cases h : jsonFormat.isPositional (shortest .even b) = true ∧ 0 ≤ (shortest .even b).exponent
  · exact .inl ⟨h.1, h.2, if_pos h⟩
  · exact .inr (if_neg h)

/-- The float nearest to what is written is the one that was written. -/
theorem bits_written {b : Nat} (hb : b ≤ infinityBits) : (written b).bits = b := by
  have hshortest := Number.bits_shortest .even hb
  rcases written_cases b with ⟨-, he, hwritten⟩ | hwritten
  · rw [hwritten, Number.Decimal.bits_mul_tenTo,
      show (-1 + ((shortest .even b).exponent.toNat + 1 : Nat) : Int) =
        (shortest .even b).exponent by omega]
    exact hshortest
  · rw [hwritten]
    exact hshortest

/-- A whole number has at most 16 digits without an exponent. -/
theorem digits_positional_le {d : Decimal} (h : jsonFormat.isPositional d = true)
    (he : 0 ≤ d.exponent) : d.digits * tenTo (d.exponent.toNat + 1) ≤ tenTo 17 := by
  by_cases hzero : d.digits = 0
  · rw [hzero, Nat.zero_mul]
    exact Nat.zero_le _
  · have htop : d.top - 1 ≤ 15 := by
      simp only [Format.isPositional, hzero, jsonFormat, Option.all_some, decide_false,
        Bool.false_or, Bool.and_eq_true, decide_eq_true_eq] at h
      exact h.2
    rw [Decimal.top] at htop
    have hdigits := Nat.le_of_lt (Number.lt_tenTo_digitCount d.digits)
    refine Nat.le_trans (Nat.mul_le_mul_right _ hdigits) ?_
    rw [← Number.tenTo_add]
    exact Number.tenTo_mono (by omega)

theorem written_written {b : Nat} (hb : b < infinityBits) : (written b).Written := by
  have hle := Nat.le_of_lt hb
  refine ⟨(bits_written hle).symm ▸ hb, ?_, fun hzero => ?_, fun h => ?_⟩
  · rcases written_cases b with ⟨hpositional, he, hwritten⟩ | hwritten
    · rw [hwritten]
      exact digits_positional_le hpositional he
    · rw [hwritten]
      exact Number.digits_shortest_le .even hle
  · rw [bits_written hle] at hzero
    rw [hzero]
    rfl
  · -- Both decimals read back as the greatest float, which is written with the other one.
    have hmax : b = infinityBits - 1 := by
      rw [← bits_written hle, h]
      decide +kernel
    rw [hmax] at h
    revert h
    decide +kernel

/-! ## Numbers -/

/-- The float that a written number is read as. -/
def reread (x : Float) : Float :=
  if isNegative x then -approach (written (magnitudeBits x))
  else approach (written (magnitudeBits x))

theorem isFinite_iff (x : Float) : isFinite x = true ↔ magnitudeBits x < infinityBits :=
  decide_eq_true_iff

/-- The value of the decimal that is written. -/
theorem number_of_numeral {t : Text} {n : Numeral} {b : Nat} (hb : b < infinityBits)
    (h : Json.numeral .ended t = .ok (n, r)) (hn : n.decimal = written b) :
    Json.number t =
      .ok (if n.negative then -approach (written b) else approach (written b), r) := by
  have hwritten := written_written hb
  have hfits : n.decimal.digits < Json.significandBound := by
    rw [hn]
    exact Nat.lt_of_le_of_lt hwritten.digits_le (by decide)
  rw [Json.number, h]
  simp only [Numeral.value?_eq hfits, hn, Json.scale_written hwritten, Option.map_some]

theorem isSpace_of_digit {c : Char} (h : isAsciiDigit c = true) : Json.isSpace c = false := by
  refine Bool.eq_false_iff.2 fun hspace => ?_
  simp only [Json.isSpace, Bool.or_eq_true, decide_eq_true_eq] at hspace
  rcases hspace with ((rfl | rfl) | rfl) | rfl <;> exact absurd h (by decide)

/-- A number that starts with a digit has no minus. -/
theorem numeral_of_digit {atEnd : Fault} {c : Char} {t : Text} {n : Numeral}
    (h : isAsciiDigit c = true) (hn : unsignedNumeral atEnd false (c :: t) = .ok (n, r)) :
    Json.numeral atEnd (c :: t) = .ok (n, r) := by
  rw [Json.numeral]
  · exact hn
  · rintro q heq
    rw [(List.cons.inj heq).1] at h
    exact absurd h (by decide)

/-- A number that is written is read as one, and the text behind it is left. -/
theorem readNumber_write {x : Float} (hx : isFinite x = true) (hr : EndsNumber r) :
    readNumber (jsonFormat.write x ++ r) = .ok (reread x, r) := by
  have hlt := (isFinite_iff x).1 hx
  obtain ⟨⟨c, q, hq, hc⟩, hread⟩ := writes_magnitude (Nat.le_of_lt hlt)
  obtain ⟨n, hn, hsign, hdecimal⟩ := hread .ended (isNegative x) r hr
  have hnan : Number.isNaN x = false := decide_eq_false (Nat.not_lt.2 (Nat.le_of_lt hlt))
  have hinfinite : Number.isInfinite x = false := decide_eq_false (Nat.ne_of_lt hlt)
  rw [Format.write, hnan, hinfinite, if_neg Bool.false_ne_true, if_neg Bool.false_ne_true, reread]
  by_cases hnegative : isNegative x = true
  · rw [hnegative] at hn
    have hnumber := number_of_numeral (t := '-' :: (jsonFormat.magnitude (magnitudeBits x) ++ r))
      hlt hn hdecimal
    rw [hsign, if_pos hnegative] at hnumber
    rw [if_pos hnegative, if_pos hnegative, List.cons_append, readNumber, Json.skipSpace_cons rfl]
    exact (if_pos (.inl rfl)).trans hnumber
  · rw [Bool.eq_false_iff.2 hnegative, hq, List.cons_append] at hn
    have hnumber := number_of_numeral hlt (numeral_of_digit hc hn) hdecimal
    rw [hsign, if_neg hnegative] at hnumber
    rw [if_neg hnegative, if_neg hnegative, hq, List.cons_append, readNumber,
      Json.skipSpace_cons (isSpace_of_digit hc)]
    exact (if_pos (.inr hc)).trans hnumber

/-! ## What a number is read back as -/

theorem reread_eq {x : Float} (hx : isFinite x = true) :
    reread x = ofMagnitude (isNegative x) (Number.approachBits (written (magnitudeBits x))) := by
  have hwritten := written_written ((isFinite_iff x).1 hx)
  rw [reread, Json.approach_eq hwritten,
    Number.neg_ofMagnitude false (Nat.le_of_lt hwritten.approachBits_lt)]
  cases isNegative x <;> rfl

theorem magnitudeBits_reread {x : Float} (hx : isFinite x = true) :
    magnitudeBits (reread x) = Number.approachBits (written (magnitudeBits x)) := by
  have hlt := (written_written ((isFinite_iff x).1 hx)).approachBits_lt
  rw [reread_eq hx, Number.magnitudeBits_ofMagnitude _ (Nat.le_of_lt hlt)]

theorem isFinite_reread {x : Float} (hx : isFinite x = true) : isFinite (reread x) = true := by
  rw [isFinite_iff, magnitudeBits_reread hx]
  exact (written_written ((isFinite_iff x).1 hx)).approachBits_lt

/-- The sign is kept, also the one of zero. -/
theorem isNegative_reread {x : Float} (hx : isFinite x = true) :
    isNegative (reread x) = isNegative x := by
  have hlt := (written_written ((isFinite_iff x).1 hx)).approachBits_lt
  rw [reread_eq hx, Number.isNegative_ofMagnitude _ (Nat.le_of_lt hlt)]

/-- A number is read back up to one part in `2^50` and one unit. -/
theorem units_reread {x : Float} (hx : isFinite x = true) :
    ((Number.units (reread x) : Int) - Number.units x).natAbs <<< 50 ≤
      Number.units x + 1 <<< 50 := by
  have hlt := (isFinite_iff x).1 hx
  have hnear := (written_written hlt).near_approach
  rwa [bits_written (Nat.le_of_lt hlt), ← magnitudeBits_reread hx] at hnear

/-- Neither the digits of a number nor its power of ten are rounded when it is read: the digits
have at most 53 binary digits before their zeros, and the power of ten is at most `10^22`. -/
def IsExact (x : Float) : Prop :=
  ∃ m k, (written (magnitudeBits x)).digits = m <<< k ∧ m ≤ 2 * Number.octave ∧
    (written (magnitudeBits x)).exponent.natAbs ≤ 22

/-- Such a number is read back exactly. -/
theorem reread_of_exact {x : Float} (hx : isFinite x = true) (h : IsExact x) : reread x = x := by
  obtain ⟨m, k, hdigits, hm, hexponent⟩ := h
  have hlt := (isFinite_iff x).1 hx
  have hle := (written_written hlt).digits_le
  have hexact := Number.approachBits_of_exact
    (by rw [hdigits] at hle ⊢; exact Number.wholeUnits_shiftLeft hm hle) hexponent
  rw [bits_written (Nat.le_of_lt hlt)] at hexact
  have hnan : Number.isNaN x = false := decide_eq_false (Nat.not_lt.2 (Nat.le_of_lt hlt))
  rw [reread_eq hx, hexact, Number.ofMagnitude_magnitudeBits hnan]

end Reckoner.Settings
