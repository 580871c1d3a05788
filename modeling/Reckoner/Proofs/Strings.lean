import Reckoner.Settings.Reader

/-!
# A string that is written is read back

A string may hold any characters.  What stands for a character is read as this character alone
(`stringBody_encodeChar`), so the quote mark that ends a string is the first one that is not
behind a backslash, and the text after it is left (`stringBody_encode`).
-/

namespace Reckoner.Json

/-- A character behind a backslash. -/
theorem stringBody_escaped {t r : Text} {c : Char} (h : escaped t = .ok (c, r)) :
    stringBody ('\\' :: t) = (stringBody r).map fun s => (c :: s.1, s.2) := by
  rw [stringBody]
  split
  · next fault hfault =>
    rw [h] at hfault
    cases hfault
  · next d q hd =>
    rw [h] at hd
    cases hd
    rfl

/-- A character that stands for itself. -/
theorem stringBody_plain {c : Char} (hquote : c ≠ '"') (hslash : c ≠ '\\') (hcontrol : ¬ c < ' ')
    (r : Text) : stringBody (c :: r) = (stringBody r).map fun s => (c :: s.1, s.2) := by
  rw [stringBody, if_neg hcontrol]
  · exact fun h => hquote h
  · exact fun h => hslash h

/-- The four digits of a control character. -/
theorem controlEscape_eq : ∀ n < 32,
    controlEscape (Char.ofNat n) =
        ['\\', 'u', '0', '0', Nat.digitChar (n / 16), Nat.digitChar (n % 16)] ∧
      unit? '0' '0' (Nat.digitChar (n / 16)) (Nat.digitChar (n % 16)) = some n := by
  decide

/-- What stands for a character is read as this character. -/
theorem stringBody_encodeChar (c : Char) (r : Text) :
    stringBody (encodeChar c ++ r) = (stringBody r).map fun s => (c :: s.1, s.2) := by
  unfold encodeChar
  split
  all_goals try exact stringBody_escaped rfl
  next hquote hslash _ _ _ _ _ =>
    split
    · next hcontrol =>
      have hlt : c.toNat < 32 := hcontrol
      obtain ⟨hdigits, hunit⟩ := controlEscape_eq c.toNat hlt
      rw [Char.ofNat_toNat] at hdigits
      rw [hdigits]
      refine stringBody_escaped ?_
      show unicodeEscape ('0' :: '0' :: _ :: _ :: r) = _
      have hsingle : isTrailing c.toNat = false ∧ isLeading c.toNat = false := by
        simp only [isTrailing, isLeading, Bool.and_eq_false_iff, decide_eq_false_iff_not]
        omega
      rw [unicodeEscape, hexUnit, hunit]
      dsimp only
      rw [if_neg (by simp [hsingle.1]), if_neg (by simp [hsingle.2]), Char.ofNat_toNat]
    · next hcontrol => exact stringBody_plain hquote hslash hcontrol r

/-- The contents of a string end at its last quote mark. -/
theorem stringBody_encode (t r : Text) :
    stringBody (t.flatMap encodeChar ++ '"' :: r) = .ok (t, r) := by
  induction t with
  | nil => rw [List.flatMap_nil, List.nil_append, stringBody]
  | cons c t ih =>
    rw [List.flatMap_cons, List.append_assoc, stringBody_encodeChar, ih]
    rfl

theorem encode_append (t r : Text) :
    encode t ++ r = '"' :: (t.flatMap encodeChar ++ '"' :: r) := by
  show '"' :: (t.flatMap encodeChar ++ ['"'] ++ r) = _
  rw [List.append_assoc, List.singleton_append]

/-- Where there is no white space none is skipped. -/
theorem skipSpace_cons {c : Char} (h : isSpace c = false) (t : Text) :
    skipSpace (c :: t) = c :: t := by
  rw [skipSpace, List.dropWhile_cons_of_neg (by simp [h])]

end Reckoner.Json

namespace Reckoner.Settings

open Json (encode)

/-- A string that is written is read back, whatever stands behind it. -/
theorem readText_encode (t r : Text) : readText (encode t ++ r) = .ok (t, r) := by
  rw [Json.encode_append, readText, Json.skipSpace_cons rfl]
  exact Json.stringBody_encode t r

/-- So is a key. -/
theorem readKeyText_encode (t r : Text) : readKeyText (encode t ++ r) = .ok (t, r) := by
  rw [Json.encode_append, readKeyText, Json.skipSpace_cons rfl]
  exact Json.stringBody_encode t r

end Reckoner.Settings
