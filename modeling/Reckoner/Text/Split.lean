import Reckoner.Basic

/-!
# Splitting and joining

A text is cut at every occurrence of one character, and joined with that character between the
parts.  Cutting gives at least one part, no part holds the separator, and joining undoes
cutting.  The other way round this holds for parts without the separator alone
(`split_join_iff`).
-/

namespace Reckoner.Text

/-- The parts of a text between the occurrences of `sep`, empty parts included. -/
def split (sep : Char) : Text → List Text
  | [] => [[]]
  | c :: t =>
      if c = sep then [] :: split sep t
      else
        match split sep t with
        | [] => [[c]]
        | part :: parts => (c :: part) :: parts

/-- The parts one after another, with `sep` between two of them. -/
def join (sep : Char) : List Text → Text
  | [] => []
  | [part] => part
  | part :: next :: parts => part ++ sep :: join sep (next :: parts)

theorem split_ne_nil (sep : Char) (t : Text) : split sep t ≠ [] := by
  cases t with
  | nil => simp [split]
  | cons c t =>
    by_cases h : c = sep
    · simp [split, h]
    · simp only [split, h, if_false]
      split <;> simp

theorem join_cons (sep : Char) (part : Text) {parts : List Text} (h : parts ≠ []) :
    join sep (part :: parts) = part ++ sep :: join sep parts := by
  cases parts with
  | nil => exact absurd rfl h
  | cons next parts => rfl

/-- Joining undoes cutting. -/
theorem join_split (sep : Char) (t : Text) : join sep (split sep t) = t := by
  induction t with
  | nil => rfl
  | cons c t ih =>
    by_cases h : c = sep
    · rw [split, if_pos h, join_cons sep _ (split_ne_nil sep t), ih, h]
      rfl
    · rw [split, if_neg h]
      cases hs : split sep t with
      | nil => exact absurd hs (split_ne_nil sep t)
      | cons part parts =>
        rw [hs] at ih
        cases parts with
        | nil => simpa [join] using ih
        | cons next parts => simpa [join] using ih

theorem mem_join {sep c : Char} {parts : List Text} (h : c ∈ join sep parts) :
    c = sep ∨ ∃ part ∈ parts, c ∈ part := by
  induction parts with
  | nil => cases h
  | cons part parts ih =>
    cases parts with
    | nil => exact .inr ⟨part, List.mem_cons_self, h⟩
    | cons next parts =>
      rw [join_cons sep part (List.cons_ne_nil _ _), List.mem_append, List.mem_cons] at h
      rcases h with h | h | h
      · exact .inr ⟨part, List.mem_cons_self, h⟩
      · exact .inl h
      · refine (ih h).imp_right ?_
        rintro ⟨other, hother, hc⟩
        exact ⟨other, List.mem_cons_of_mem _ hother, hc⟩

theorem mem_join_of_mem {sep c : Char} {parts : List Text} {part : Text} (h : part ∈ parts)
    (hc : c ∈ part) : c ∈ join sep parts := by
  induction parts with
  | nil => cases h
  | cons first parts ih =>
    cases parts with
    | nil => rwa [← List.mem_singleton.1 h]
    | cons next parts =>
      rw [join_cons sep first (List.cons_ne_nil _ _)]
      rcases List.mem_cons.1 h with rfl | h
      · exact List.mem_append_left _ hc
      · exact List.mem_append_right _ (List.mem_cons_of_mem _ (ih h))

/-- Cutting adds no character to a part. -/
theorem mem_of_mem_split {sep c : Char} {t part : Text} (h : part ∈ split sep t)
    (hc : c ∈ part) : c ∈ t := by
  rw [← join_split sep t]
  exact mem_join_of_mem h hc

/-- A separator cuts whatever stands around it. -/
theorem split_append_cons (sep : Char) (s t : Text) :
    split sep (s ++ sep :: t) = split sep s ++ split sep t := by
  induction s with
  | nil => simp [split]
  | cons c s ih =>
    by_cases hc : c = sep
    · rw [List.cons_append, split, if_pos hc, split, if_pos hc, ih]
      rfl
    · rw [List.cons_append, split, if_neg hc, split, if_neg hc, ih]
      cases hs : split sep s with
      | nil => exact absurd hs (split_ne_nil sep s)
      | cons part parts => rfl

theorem split_of_not_mem {sep : Char} {part : Text} (h : sep ∉ part) :
    split sep part = [part] := by
  induction part with
  | nil => rfl
  | cons c part ih =>
    obtain ⟨hc, hpart⟩ : ¬ sep = c ∧ sep ∉ part := by simpa using h
    rw [split, if_neg (Ne.symm hc), ih hpart]

/-- A part without the separator comes off whole. -/
theorem split_append {sep : Char} {part : Text} (h : sep ∉ part) (t : Text) :
    split sep (part ++ sep :: t) = part :: split sep t := by
  rw [split_append_cons, split_of_not_mem h]
  rfl

/-- No part holds the separator. -/
theorem not_mem_of_mem_split {sep : Char} {t part : Text} (h : part ∈ split sep t) :
    sep ∉ part := by
  induction t generalizing part with
  | nil => simp_all [split]
  | cons c t ih =>
    by_cases hc : c = sep
    · rw [split, if_pos hc] at h
      rcases List.mem_cons.1 h with rfl | h
      · exact List.not_mem_nil
      · exact ih h
    · rw [split, if_neg hc] at h
      cases hs : split sep t with
      | nil => exact absurd hs (split_ne_nil sep t)
      | cons first rest =>
        rw [hs] at h ih
        rcases List.mem_cons.1 h with rfl | h
        · simpa [Ne.symm hc] using ih List.mem_cons_self
        · exact ih (List.mem_cons_of_mem _ h)

/-- Cutting undoes joining of one or more parts exactly if no part holds the separator. -/
theorem split_join_iff {sep : Char} {parts : List Text} (hne : parts ≠ []) :
    split sep (join sep parts) = parts ↔ ∀ part ∈ parts, sep ∉ part := by
  constructor
  · intro h part hpart
    rw [← h] at hpart
    exact not_mem_of_mem_split hpart
  · intro h
    induction parts with
    | nil => exact absurd rfl hne
    | cons part parts ih =>
      obtain ⟨hpart, hparts⟩ := List.forall_mem_cons.1 h
      cases parts with
      | nil => exact split_of_not_mem hpart
      | cons next parts => rw [join, split_append hpart, ih (by simp) hparts]

example : split ' ' "a  b".toList = ["a".toList, [], "b".toList] := by decide

example : join ' ' ["a".toList, "b".toList] = "a b".toList := by decide

end Reckoner.Text
