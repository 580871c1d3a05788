/-!
# Texts, classes of characters and results

A text is a list of characters, and a character is one Unicode scalar value.  Columns count
characters, so a column of a line is an index into its list, and the part of a line before a
column is a `take`.

A class of characters is given by the ranges of its code points, first and last included, in
ascending order and apart from each other.  The search stops at the first range that starts
above the code point.

A result may be a fault in its place.  A result that is made from another one comes from a result
of that one, and so does one that is made in two steps.
-/

namespace Reckoner

/-! ## Texts -/

/-- A text: the list of its characters. -/
abbrev Text := List Char

/-! ## Classes of characters -/

namespace Text

/-- Whether `n` lies in one of the ranges. -/
def inRanges : List (Nat × Nat) → Nat → Bool
  | [], _ => false
  | (low, high) :: rest, n => if n < low then false else n ≤ high || inRanges rest n

@[simp] theorem inRanges_nil (n : Nat) : inRanges [] n = false := rfl

/-- What the search finds is in one of the ranges. -/
theorem exists_of_inRanges {ranges : List (Nat × Nat)} {n : Nat} (h : inRanges ranges n = true) :
    ∃ r ∈ ranges, r.1 ≤ n ∧ n ≤ r.2 := by
  induction ranges with
  | nil => simp at h
  | cons r rest ih =>
    by_cases hlow : n < r.1
    · simp [inRanges, hlow] at h
    · by_cases hhigh : n ≤ r.2
      · exact ⟨r, by simp, by omega, hhigh⟩
      · obtain ⟨q, hq, hn⟩ := ih (by simpa [inRanges, hlow, hhigh] using h)
        exact ⟨q, by simp [hq], hn⟩

end Text

/-! ## Results that may be faults -/

variable {ε α β : Type} {e : Except ε α} {b : β}

theorem exists_of_map_eq_ok {f : α → β} (h : e.map f = .ok b) : ∃ a, e = .ok a ∧ f a = b := by
  cases e with
  | error _ => cases h
  | ok a => exact ⟨a, rfl, Except.ok.inj h⟩

theorem exists_of_bind_eq_ok {f : α → Except ε β} (h : e >>= f = .ok b) :
    ∃ a, e = .ok a ∧ f a = .ok b := by
  cases e with
  | error _ => cases h
  | ok a => exact ⟨a, rfl, h⟩

theorem toOption_eq_some_iff {a : α} : e.toOption = some a ↔ e = .ok a := by
  cases e <;> simp [Except.toOption]

theorem toOption_eq_none_iff : e.toOption = none ↔ ∃ fault, e = .error fault := by
  cases e <;> simp [Except.toOption]

end Reckoner
