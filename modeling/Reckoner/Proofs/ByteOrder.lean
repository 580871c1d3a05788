import Mathlib.Tactic.SplitIfs
import Reckoner.Text.Offset

/-!
# The order of bytes

Names are kept in the order of their code points.  A map that keeps them as UTF-8 compares bytes,
and the two orders are the same (`lt_iff_precedes`).

A character is a first byte, which tells how many bytes follow, and then the lower bits of the
code point in groups of six.  The first byte never gets smaller for a greater code point
(`firstByte_mono`).  If it stays the same, the two code points differ in their groups, and the
first group that differs decides (`continuation_lt`).  So what stands behind two different
characters has no influence on their order (`encode_lt`), and the rest is induction on the texts.
-/

namespace Reckoner.Text

open String (utf8EncodeChar)

/-! ## The bytes of a character -/

/-- The number of bytes behind the first one. -/
def followers (n : Nat) : Nat :=
  if n ≤ 0x7F then 0 else if n ≤ 0x7FF then 1 else if n ≤ 0xFFFF then 2 else 3

/-- The first byte: the bits above the groups, with a mark for the number of groups. -/
def firstByte (n : Nat) : Nat :=
  if n ≤ 0x7F then n else if n ≤ 0x7FF then n / 64 + 0xC0
  else if n ≤ 0xFFFF then n / 4096 + 0xE0 else n / 262144 + 0xF0

/-- The bytes behind the first one: the last `k` groups of six bits. -/
def continuation : Nat → Nat → List UInt8
  | 0, _ => []
  | k + 1, n => UInt8.ofNat (n >>> (6 * k) % 64 + 0x80) :: continuation k n

theorem toNat_lt (c : Char) : c.toNat < 0x110000 := by
  rcases c.valid with h | h
  · exact Nat.lt_trans h (by decide)
  · exact h.2

theorem firstByte_lt {n : Nat} (h : n < 0x110000) : firstByte n < 256 := by
  unfold firstByte
  split_ifs <;> omega

theorem encode_eq (c : Char) :
    utf8EncodeChar c =
      UInt8.ofNat (firstByte c.toNat) :: continuation (followers c.toNat) c.toNat := by
  have hlt := toNat_lt c
  have hval : c.val.toNat = c.toNat := rfl
  unfold utf8EncodeChar firstByte followers
  simp only [hval]
  split_ifs
  · rfl
  all_goals
    simp only [continuation, Nat.shiftRight_eq_div_pow, Nat.reduceMul, Nat.reducePow, Nat.div_one]
  · rw [Nat.mod_eq_of_lt (a := c.toNat / 64) (by omega)]
  · rw [Nat.mod_eq_of_lt (a := c.toNat / 4096) (by omega)]
  · rw [Nat.mod_eq_of_lt (a := c.toNat / 262144) (by omega)]

/-! ## Different characters -/

theorem firstByte_mono {m n : Nat} (h : m ≤ n) (hn : n < 0x110000) :
    firstByte m ≤ firstByte n := by
  unfold firstByte
  split_ifs <;> omega

/-- What the same first byte says about the rest. -/
theorem eq_of_firstByte {m n : Nat} (hm : m < 0x110000) (hn : n < 0x110000)
    (h : firstByte m = firstByte n) :
    followers m = followers n ∧ m >>> (6 * followers m) = n >>> (6 * followers n) := by
  unfold firstByte at h
  unfold followers
  simp only [Nat.shiftRight_eq_div_pow]
  split_ifs at h ⊢ <;> simp only [Nat.reduceMul, Nat.reducePow, true_and] <;> omega

theorem cons_lt {a b : Nat} (ha : a < 256) (hb : b < 256) {s t : List UInt8}
    (h : a < b ∨ a = b ∧ s < t) : UInt8.ofNat a :: s < UInt8.ofNat b :: t := by
  rw [List.cons_lt_cons_iff, UInt8.lt_iff_toNat_lt, ← UInt8.toNat_inj, UInt8.toNat_ofNat',
    UInt8.toNat_ofNat', Nat.mod_eq_of_lt ha, Nat.mod_eq_of_lt hb]
  exact h

theorem shiftRight_succ (n k : Nat) : n >>> (6 * (k + 1)) = n >>> (6 * k) / 64 := by
  rw [Nat.mul_succ, Nat.shiftRight_add, Nat.shiftRight_eq_div_pow (n >>> (6 * k))]

/-- Two code points with the same bits above the groups. -/
theorem continuation_lt {m n : Nat} (h : m < n) (s t : List UInt8) (k : Nat)
    (heq : m >>> (6 * k) = n >>> (6 * k)) : continuation k m ++ s < continuation k n ++ t := by
  induction k with
  | zero => exact absurd heq (Nat.ne_of_lt h)
  | succ k ih =>
    rw [shiftRight_succ, shiftRight_succ] at heq
    have hle : m >>> (6 * k) ≤ n >>> (6 * k) := by
      rw [Nat.shiftRight_eq_div_pow, Nat.shiftRight_eq_div_pow]
      exact Nat.div_le_div_right (Nat.le_of_lt h)
    refine cons_lt (by omega) (by omega) ?_
    rcases Nat.lt_or_eq_of_le hle with hlt | heq
    · exact .inl (by omega)
    · exact .inr ⟨by rw [heq], ih heq⟩

/-- Two different characters are in the order of their bytes, whatever stands behind them. -/
theorem encode_lt {c d : Char} (h : c < d) (s t : List UInt8) :
    utf8EncodeChar c ++ s < utf8EncodeChar d ++ t := by
  have hlt : c.toNat < d.toNat := h
  have hc := toNat_lt c
  have hd := toNat_lt d
  rw [encode_eq, encode_eq, List.cons_append, List.cons_append]
  refine cons_lt (firstByte_lt hc) (firstByte_lt hd) ?_
  rcases Nat.lt_or_eq_of_le (firstByte_mono (Nat.le_of_lt hlt) hd) with hfirst | hfirst
  · exact .inl hfirst
  · obtain ⟨hk, hupper⟩ := eq_of_firstByte hc hd hfirst
    rw [hk] at hupper ⊢
    exact .inr ⟨hfirst, continuation_lt hlt s t _ hupper⟩

/-! ## Texts -/

/-- Whether the bytes of a text come before those of another one. -/
def Precedes (s t : Text) : Prop := (bytes s).data.toList < (bytes t).data.toList

theorem toList_bytes_cons (c : Char) (t : Text) :
    (bytes (c :: t)).data.toList = utf8EncodeChar c ++ (bytes t).data.toList := by
  simp only [bytes, String.toByteArray_ofList, List.utf8Encode, List.flatMap_cons,
    List.toList_data_toByteArray]

theorem precedes_of_lt {s t : Text} (h : s < t) : Precedes s t := by
  induction s generalizing t with
  | nil =>
    cases t with
    | nil => exact absurd h (List.lt_irrefl _)
    | cons d t =>
      rw [Precedes, toList_bytes_cons, encode_eq]
      exact List.nil_lt_cons _ _
  | cons c s ih =>
    cases t with
    | nil => cases h
    | cons d t =>
      rw [Precedes, toList_bytes_cons, toList_bytes_cons]
      rcases List.cons_lt_cons_iff.1 h with hlt | ⟨rfl, hlt⟩
      · exact encode_lt hlt _ _
      · exact List.append_left_lt (ih hlt)

/-- The order of code points is that of the bytes. -/
theorem lt_iff_precedes {s t : Text} : s < t ↔ Precedes s t := by
  refine ⟨precedes_of_lt, fun h => ?_⟩
  apply Classical.byContradiction
  intro hnot
  rcases List.le_iff_lt_or_eq.1 (List.not_lt.1 hnot) with hlt | rfl
  · exact List.lt_asymm h (precedes_of_lt hlt)
  · exact List.lt_irrefl _ h

end Reckoner.Text
