import Reckoner.Number.Units

/-!
# Floats and their bits

A float is its word of 64 bits: a sign bit over the bits that count the floats from zero upwards.
The operations on floats are given on another form, a sign with a mantissa and an exponent, which
is unpacked from the word and packed into one again.

`unpack_eq` says what is unpacked, case by case on the bits without the sign.  From it follow the
laws that everything else uses.

* A float is determined by its sign and its other bits (`ofMagnitude_magnitudeBits`), and there is
  one float that is not a number (`eq_of_isNaN`).
* The two are what a float was made from (`magnitudeBits_ofMagnitude`, `isNegative_ofMagnitude`).
* Negation changes the sign bit (`neg_ofMagnitude`).
-/

namespace Reckoner.Number

open Float.Model (UnpackedFloat)
open Float.Model.Format (binary64)
open Float.Model.UnpackedFloat (Sign unpackMantissa unpackExponent unpackSign packComponents)

/-! ## The unpacked form -/

/-- The sign of a float, by whether it is negative. -/
def signOf (negative : Bool) : Sign := if negative then .negative else .positive

/-- The mantissa of the finite float with the bits `b`. -/
def mantissaOf (b : Nat) : Nat := if b < octave then b else octave + b % octave

/-- Its exponent. -/
def exponentOf (b : Nat) : Int := if b < octave then -1074 else (b / octave : Nat) - 1075

/-- The unpacked form of the float with the given sign and magnitude bits. -/
def unpacked (negative : Bool) (b : Nat) : UnpackedFloat :=
  if infinityBits < b then .notANumber
  else if b = infinityBits then .infinity (signOf negative)
  else if h : 0 < mantissaOf b then .finite (signOf negative) (mantissaOf b) (exponentOf b) h
  else .zero (signOf negative)

theorem mantissaOf_pos {b : Nat} (h : b ≠ 0) : 0 < mantissaOf b := by
  unfold mantissaOf
  split
  · omega
  · simp only [octave]
    omega

theorem unpacked_finite (negative : Bool) {b : Nat} (h : b < infinityBits) (h0 : b ≠ 0) :
    unpacked negative b =
      .finite (signOf negative) (mantissaOf b) (exponentOf b) (mantissaOf_pos h0) := by
  rw [unpacked, if_neg (by omega), if_neg (by omega), dif_pos (mantissaOf_pos h0)]

theorem unpacked_zero (negative : Bool) : unpacked negative 0 = .zero (signOf negative) := rfl

theorem unpacked_infinity (negative : Bool) :
    unpacked negative infinityBits = .infinity (signOf negative) := rfl

/-! ## The parts of a word -/

theorem toNat_unpackMantissa (w : BitVec 64) :
    (@unpackMantissa binary64 w).toNat = w.toNat % octave := by
  simp [unpackMantissa, octave]

theorem toNat_unpackExponent (w : BitVec 64) :
    (@unpackExponent binary64 w).toNat = w.toNat / octave % 2048 := by
  simp [unpackExponent, octave, Nat.shiftRight_eq_div_pow]

theorem ofBitVec_unpackSign (w : BitVec 64) :
    Sign.ofBitVec (@unpackSign binary64 w) = signOf (signBit ≤ w.toNat) := by
  have hw := w.isLt
  have hsign : @unpackSign binary64 w = 0#1 ↔ ¬ signBit ≤ w.toNat := by
    have htoNat : (@unpackSign binary64 w).toNat = w.toNat / signBit % 2 := by
      show w.toNat >>> 63 % 2 = _
      rw [Nat.shiftRight_eq_div_pow]
      rfl
    rw [← BitVec.toNat_inj, htoNat, signBit, BitVec.toNat_ofNat]
    omega
  simp only [Sign.ofBitVec, hsign, signOf]
  split <;> simp_all

theorem toNat_packComponents (s : Sign) (e : BitVec 11) (m : BitVec 52) :
    (packComponents binary64 s e m).toNat =
      s.toBitVec.toNat * signBit + e.toNat * octave + m.toNat := by
  have he := e.isLt
  have hm := m.isLt
  show ((s.toBitVec ++ e) ++ m).toNat = _
  rw [BitVec.toNat_append, ← Nat.shiftLeft_add_eq_or_of_lt hm, BitVec.toNat_append,
    ← Nat.shiftLeft_add_eq_or_of_lt he, Nat.shiftLeft_eq, Nat.shiftLeft_eq]
  simp only [signBit, octave]
  omega

/-! ## Unpacking and packing -/

theorem exponent_eq_ones_iff (w : BitVec 64) :
    @unpackExponent binary64 w = -1#_ ↔ infinityBits ≤ w.toNat % signBit := by
  rw [← BitVec.toNat_inj, toNat_unpackExponent]
  show _ = 2047 ↔ _
  simp only [infinityBits, octave, signBit]
  omega

theorem exponent_eq_zero_iff (w : BitVec 64) :
    @unpackExponent binary64 w = 0#_ ↔ w.toNat % signBit < octave := by
  rw [← BitVec.toNat_inj, toNat_unpackExponent]
  show _ = 0 ↔ _
  simp only [octave, signBit]
  omega

theorem mantissa_eq_zero_iff (w : BitVec 64) :
    @unpackMantissa binary64 w = 0#_ ↔ w.toNat % signBit % octave = 0 := by
  rw [← BitVec.toNat_inj, toNat_unpackMantissa]
  show _ = 0 ↔ _
  simp only [octave, signBit]
  omega

theorem finite_congr {s : Sign} {m m' : Nat} {e e' : Int} {hm : 0 < m} (h : m = m') (he : e = e') :
    UnpackedFloat.finite s m e hm = .finite s m' e' (h ▸ hm) := by
  subst h he
  rfl

/-- What a word unpacks to, by its sign bit and its other bits. -/
theorem unpack_eq (w : BitVec 64) :
    UnpackedFloat.unpack binary64 w = unpacked (signBit ≤ w.toNat) (w.toNat % signBit) := by
  have hmantissa : (@unpackMantissa binary64 w).toNat = w.toNat % signBit % octave := by
    rw [toNat_unpackMantissa]
    simp only [octave, signBit]
    omega
  have hexponent : (@unpackExponent binary64 w).toNat = w.toNat % signBit / octave := by
    rw [toNat_unpackExponent]
    simp only [octave, signBit]
    omega
  unfold UnpackedFloat.unpack
  dsimp only
  rw [ofBitVec_unpackSign]
  generalize hb : w.toNat % signBit = b at *
  by_cases hfinite : infinityBits ≤ b
  · rw [if_pos ((exponent_eq_ones_iff w).2 (hb ▸ hfinite))]
    by_cases hzero : b % octave = 0
    · have heq : b = infinityBits := by
        have hlt : b < signBit := hb ▸ Nat.mod_lt _ (by decide)
        simp only [infinityBits, octave, signBit] at *
        omega
      rw [if_pos ((mantissa_eq_zero_iff w).2 (hb ▸ hzero)), heq]
      rfl
    · have hlt : infinityBits < b := by
        simp only [infinityBits, octave] at *
        omega
      rw [if_neg (fun h => hzero (hb ▸ (mantissa_eq_zero_iff w).1 h)), unpacked, if_pos hlt]
  · rw [if_neg (fun h => hfinite (hb ▸ (exponent_eq_ones_iff w).1 h))]
    by_cases hsmall : b < octave
    · rw [if_pos ((exponent_eq_zero_iff w).2 (hb ▸ hsmall))]
      by_cases hzero : b = 0
      · rw [dif_pos ((mantissa_eq_zero_iff w).2 (by rw [hb, hzero]; rfl)), hzero]
        rfl
      · have hne : ¬ @unpackMantissa binary64 w = 0#_ := by
          intro h
          have := hb ▸ (mantissa_eq_zero_iff w).1 h
          simp only [octave] at *
          omega
        rw [dif_neg hne, unpacked_finite _ (Nat.lt_of_not_le hfinite) hzero]
        refine finite_congr ?_ ?_
        · rw [hmantissa, mantissaOf, if_pos hsmall, Nat.mod_eq_of_lt hsmall]
        · rw [hexponent, exponentOf, if_pos hsmall, Nat.div_eq_of_lt hsmall]
          rfl
    · have hzero : b ≠ 0 := by
        simp only [octave] at *
        omega
      rw [if_neg (fun h => hsmall (hb ▸ (exponent_eq_zero_iff w).1 h)),
        unpacked_finite _ (Nat.lt_of_not_le hfinite) hzero]
      refine finite_congr ?_ ?_
      · rw [BitVec.toNat_append, ← Nat.shiftLeft_add_eq_or_of_lt (BitVec.isLt _), hmantissa,
          mantissaOf, if_neg hsmall]
        rfl
      · rw [hexponent, exponentOf, if_neg hsmall]
        rfl

/-- The word of a sign over the other bits. -/
def word (negative : Bool) (b : Nat) : Nat := if negative then signBit + b else b

theorem toNat_pack_components (negative : Bool) (e : BitVec 11) (m : BitVec 52) :
    (packComponents binary64 (signOf negative) e m).toNat =
      word negative (e.toNat * octave + m.toNat) := by
  rw [toNat_packComponents]
  cases negative with
  | false => simp [signOf, Sign.toBitVec, word]
  | true => simp [signOf, Sign.toBitVec, word, Nat.add_assoc]

/-- A mantissa and an exponent as they stand in a word: 53 binary digits, or fewer at the least
exponent. -/
structure Fits (m : Nat) (e : Int) : Prop where
  /-- There are no more digits than a float has. -/
  lt : m < 2 * octave
  /-- The exponent is not below the least one. -/
  le : -1074 ≤ e
  /-- Only at the least exponent there are fewer digits. -/
  full : octave ≤ m ∨ e = -1074

theorem log2_eq_iff {m : Nat} (h : 0 < m) (hlt : m < 2 * octave) :
    m.log2 + 1 = binary64.mantissaBits ↔ octave ≤ m := by
  have hlow : 52 ≤ m.log2 ↔ octave ≤ m := Nat.le_log2 (Nat.pos_iff_ne_zero.1 h)
  have hhigh : m.log2 < 53 := (Nat.log2_lt (Nat.pos_iff_ne_zero.1 h)).2 hlt
  rw [← hlow]
  show m.log2 + 1 = 53 ↔ _
  omega

theorem toNat_pack_infinity (negative : Bool) :
    (UnpackedFloat.packedInfinity binary64 (signOf negative)).toNat = word negative infinityBits :=
  toNat_pack_components negative (-1#11) 0#52

/-- What stands in a word counts the floats.  Beyond the greatest float it is infinity. -/
theorem toNat_pack_finite (negative : Bool) {m : Nat} {e : Int} (hm : 0 < m) (h : Fits m e) :
    (UnpackedFloat.pack binary64 (.finite (signOf negative) m e hm)).toNat =
      word negative (min infinityBits ((e + 1074).toNat * octave + m)) := by
  obtain ⟨hlt, hle, hfull⟩ := h
  unfold UnpackedFloat.pack
  dsimp only
  have hbias : (e + binary64.exponentBias + binary64.mantissaBitsWithoutImplicit).toNat =
      (e + 1074).toNat + 1 := by
    show (e + 1023 + 52).toNat = _
    omega
  rw [hbias]
  split
  · next hbig =>
    have hbig : 2048 ≤ (e + 1074).toNat + 1 + 1 := hbig
    have hmin : min infinityBits ((e + 1074).toNat * octave + m) = infinityBits := by
      simp only [infinityBits, octave] at *
      omega
    rw [hmin]
    exact toNat_pack_infinity negative
  · next hsmall =>
    have hsmall : ¬ 2048 ≤ (e + 1074).toNat + 1 + 1 := hsmall
    have hmin : min infinityBits ((e + 1074).toNat * octave + m) =
        (e + 1074).toNat * octave + m := by
      simp only [infinityBits, octave] at *
      omega
    rw [hmin]
    split
    · next hnormal =>
      rw [log2_eq_iff hm hlt] at hnormal
      refine (toNat_pack_components negative (BitVec.ofNat 11 _) (BitVec.ofNat 52 m)).trans
        (congrArg (word negative) ?_)
      simp only [BitVec.toNat_ofNat, octave] at *
      omega
    · next hsubnormal =>
      rw [log2_eq_iff hm hlt] at hsubnormal
      refine (toNat_pack_components negative 0#11 (BitVec.ofNat 52 m)).trans
        (congrArg (word negative) ?_)
      simp only [BitVec.toNat_ofNat, octave] at *
      omega

theorem fits_bits (b : Nat) : Fits (mantissaOf b) (exponentOf b) := by
  unfold mantissaOf exponentOf
  split
  · exact ⟨by omega, by omega, .inr rfl⟩
  · refine ⟨?_, ?_, .inl ?_⟩
    · simp only [octave]
      omega
    · simp only [octave] at *
      omega
    · omega

theorem exponentOf_add (b : Nat) : (exponentOf b + 1074).toNat = b / octave - 1 := by
  unfold exponentOf
  split
  · next h => simp [Nat.div_eq_of_lt h]
  · omega

theorem bits_eq (b : Nat) : (exponentOf b + 1074).toNat * octave + mantissaOf b = b := by
  rw [exponentOf_add, mantissaOf]
  split
  · next h => simp [Nat.div_eq_of_lt h]
  · next h =>
    simp only [octave] at *
    omega

/-- Packing undoes unpacking. -/
theorem toNat_pack_unpacked (negative : Bool) {b : Nat} (h : b ≤ infinityBits) :
    (UnpackedFloat.pack binary64 (unpacked negative b)).toNat = word negative b := by
  rcases Nat.eq_or_lt_of_le h with rfl | hlt
  · exact toNat_pack_infinity negative
  · by_cases hzero : b = 0
    · subst hzero
      exact toNat_pack_components negative 0#11 0#52
    · rw [unpacked_finite negative hlt hzero, toNat_pack_finite _ _ (fits_bits b), bits_eq,
        Nat.min_eq_right h]

/-! ## Floats -/

theorem eq_of_toBits {x y : Float} (h : x.toBits.toNat = y.toBits.toNat) : x = y := by
  obtain ⟨⟨v, _⟩⟩ := x
  obtain ⟨⟨w, _⟩⟩ := y
  have hvw : v = w := UInt64.toNat_inj.1 h
  subst hvw
  rfl

theorem unpack_float (x : Float) :
    x.toModel.unpack = unpacked (isNegative x) (magnitudeBits x) :=
  unpack_eq x.toModel.toBits.toBitVec

theorem word_parts (negative : Bool) {b : Nat} (h : b ≤ infinityBits) :
    decide (signBit ≤ word negative b) = negative ∧ word negative b % signBit = b := by
  simp only [word, infinityBits, octave, signBit] at *
  cases negative <;> simp <;> omega

theorem toBits_ofMagnitude (negative : Bool) {b : Nat} (h : b ≤ infinityBits) :
    (ofMagnitude negative b).toBits.toNat = word negative b := by
  obtain ⟨hsign, hrest⟩ := word_parts negative h
  have hlt : word negative b < 18446744073709551616 := by
    simp only [word, infinityBits, octave, signBit] at *
    split <;> omega
  have hnat : (UInt64.ofNat (word negative b)).toBitVec.toNat = word negative b :=
    Nat.mod_eq_of_lt hlt
  show (UnpackedFloat.pack binary64
    (UnpackedFloat.unpack binary64 (UInt64.ofNat (word negative b)).toBitVec)).toNat = _
  rw [unpack_eq, hnat, hsign, hrest, toNat_pack_unpacked negative h]

theorem isNegative_ofMagnitude (negative : Bool) {b : Nat} (h : b ≤ infinityBits) :
    isNegative (ofMagnitude negative b) = negative := by
  rw [isNegative, toBits_ofMagnitude negative h]
  exact (word_parts negative h).1

theorem magnitudeBits_ofMagnitude (negative : Bool) {b : Nat} (h : b ≤ infinityBits) :
    magnitudeBits (ofMagnitude negative b) = b := by
  rw [magnitudeBits, toBits_ofMagnitude negative h]
  exact (word_parts negative h).2

theorem isFinite_ofMagnitude (negative : Bool) {b : Nat} (h : b < infinityBits) :
    isFinite (ofMagnitude negative b) = true := by
  rw [isFinite, magnitudeBits_ofMagnitude negative (Nat.le_of_lt h)]
  exact decide_eq_true h

theorem isInfinite_ofMagnitude (negative : Bool) {b : Nat} (h : b ≤ infinityBits) :
    isInfinite (ofMagnitude negative b) = decide (b = infinityBits) := by
  rw [isInfinite, magnitudeBits_ofMagnitude negative h]

/-- A float is determined by its sign and its other bits. -/
theorem ofMagnitude_magnitudeBits {x : Float} (h : isNaN x = false) :
    ofMagnitude (isNegative x) (magnitudeBits x) = x := by
  have hle : magnitudeBits x ≤ infinityBits := by simpa [isNaN] using h
  refine eq_of_toBits ?_
  rw [toBits_ofMagnitude _ hle]
  have hlt := x.toBits.toNat_lt
  have hsign : isNegative x = true ↔ signBit ≤ x.toBits.toNat := decide_eq_true_iff
  simp only [word, hsign, magnitudeBits, signBit]
  split <;> omega

/-- There is one float that is not a number. -/
theorem eq_of_isNaN {x y : Float} (hx : isNaN x = true) (hy : isNaN y = true) : x = y := by
  have hword {x : Float} (h : isNaN x = true) :
      x.toBits.toBitVec = UnpackedFloat.packedNaN binary64 := by
    have hlt : infinityBits < x.toBits.toBitVec.toNat % signBit := of_decide_eq_true h
    refine x.toModel.valid.eq_packedNaN ((exponent_eq_ones_iff _).2 (Nat.le_of_lt hlt)) fun h0 => ?_
    have hzero := (mantissa_eq_zero_iff _).1 h0
    have hmod : x.toBits.toBitVec.toNat % signBit < signBit := Nat.mod_lt _ (by decide)
    have hzero : x.toBits.toBitVec.toNat % signBit % octave = 0 := hzero
    simp only [infinityBits, octave, signBit] at *
    omega
  refine eq_of_toBits ?_
  show x.toBits.toBitVec.toNat = y.toBits.toBitVec.toNat
  rw [hword hx, hword hy]

/-- What is packed to a word is the float with the sign and the other bits of that word. -/
theorem ofModel_pack {u : UnpackedFloat} {negative : Bool} {b : Nat} (hb : b ≤ infinityBits)
    (h : (UnpackedFloat.pack binary64 u).toNat = word negative b) :
    Float.ofModel (.pack u) = ofMagnitude negative b :=
  eq_of_toBits ((show _ = word negative b from h).trans (toBits_ofMagnitude negative hb).symm)

theorem unpack_ofMagnitude (negative : Bool) {b : Nat} (h : b ≤ infinityBits) :
    (ofMagnitude negative b).toModel.unpack = unpacked negative b := by
  rw [unpack_float, isNegative_ofMagnitude negative h, magnitudeBits_ofMagnitude negative h]

/-- Negation changes the sign bit. -/
theorem neg_ofMagnitude (negative : Bool) {b : Nat} (h : b ≤ infinityBits) :
    -ofMagnitude negative b = ofMagnitude (!negative) b := by
  have hneg : (unpacked negative b).neg = unpacked (!negative) b := by
    have hsign : -signOf negative = signOf !negative := by cases negative <;> rfl
    rcases Nat.eq_or_lt_of_le h with rfl | hlt
    · rw [unpacked_infinity, unpacked_infinity, ← hsign]
      rfl
    · by_cases hzero : b = 0
      · subst hzero
        rw [unpacked_zero, unpacked_zero, ← hsign]
        rfl
      · rw [unpacked_finite _ hlt hzero, unpacked_finite _ hlt hzero, ← hsign]
        rfl
  refine ofModel_pack h ?_
  show (UnpackedFloat.pack binary64 (ofMagnitude negative b).toModel.unpack.neg).toNat = _
  rw [unpack_ofMagnitude negative h, hneg, toNat_pack_unpacked _ h]

end Reckoner.Number
