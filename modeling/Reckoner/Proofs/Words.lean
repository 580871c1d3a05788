import Reckoner.Proofs.Symbols
import Reckoner.Query

/-!
# Words

A query is looked at word by word, and in upper case.

*Spaces.*  The words of two texts with a space between them are those of the one in front of those
of the other (`words_append`), and the candidates of the second text end those of both
(`candidatesOf_append`).  What is left of a query in its words is everything but the lengths of its
runs of spaces (`respaced_iff`).

*Upper case.*  It neither makes nor takes a character below the letter `A`, and so no space
(`mem_upper_iff`), and it leaves no character without a successor.  So it commutes with cutting
(`words_upper`) and with joining (`upper_join`), and the candidates of a query in upper case are
those of the query in upper case (`candidates_upper`).
-/

namespace Reckoner

open Text (join)

/-! ## Upper case -/

namespace Text

theorem capitals_ge : ∀ n ∈ capitals, 'A'.toNat ≤ (Char.ofNat n).toNat := by
  decide +kernel

theorem upperChar_of_lt {c : Char} (h : c.toNat < 0x61) : upperChar c = [c] := by
  have hexpansion : expansion? caseExpansions c.toNat = none := if_pos (by omega)
  have hrun : runUpper caseRuns c.toNat = c.toNat := if_pos h
  rw [upperChar, hexpansion]
  simp only [hrun, Char.ofNat_toNat]

theorem upper_of_lt {t : Text} (h : ∀ c ∈ t, c.toNat < 0x61) : upper t = t :=
  upper_eq_self fun c hc => upperChar_of_lt (h c hc)

theorem upperChar_ne_nil (c : Char) : upperChar c ≠ [] := by
  have hexpansions : ∀ p ∈ caseExpansions, p.2 ≠ [] := by decide
  unfold upperChar
  split
  · next ms hms =>
    have hne : ms ≠ [] := hexpansions _ (Formula.mem_of_expansion? hms)
    exact fun h => hne (List.map_eq_nil_iff.1 h)
  · exact List.cons_ne_nil _ _

theorem upper_eq_nil_iff {t : Text} : upper t = [] ↔ t = [] := by
  cases t with
  | nil => simp
  | cons c t => simp [upper_cons, upperChar_ne_nil]

/-- A character below the letters comes from itself alone. -/
theorem eq_of_mem_upperChar {c d : Char} (h : d ∈ upperChar c) (hd : d.toNat < 'A'.toNat) :
    d = c := by
  rcases upperChar_cases c with hsame | hcapitals
  · rw [hsame] at h
    exact List.mem_singleton.1 h
  · obtain ⟨n, hn, rfl⟩ := hcapitals d h
    exact absurd (capitals_ge n hn) (Nat.not_le.2 hd)

/-- Upper case neither makes nor takes a character below the letters. -/
theorem mem_upper_iff {t : Text} {c : Char} (hc : c.toNat < 'A'.toNat) :
    c ∈ upper t ↔ c ∈ t := by
  constructor
  · intro h
    obtain ⟨d, hd, hmem⟩ := List.mem_flatMap.1 h
    rwa [eq_of_mem_upperChar hmem hc]
  · intro h
    refine List.mem_flatMap.2 ⟨c, h, ?_⟩
    rw [upperChar_of_lt (Nat.lt_trans hc (by decide))]
    exact List.mem_singleton_self c

theorem upper_join (parts : List Text) :
    upper (join ' ' parts) = join ' ' (parts.map upper) := by
  induction parts with
  | nil => rfl
  | cons part parts ih =>
    cases parts with
    | nil => rfl
    | cons next parts =>
      rw [join_cons ' ' part (List.cons_ne_nil _ _), upper_append, upper_cons,
        upperChar_of_lt (by decide), ih]
      rfl

theorem split_upper (t : Text) : split ' ' (upper t) = (split ' ' t).map upper := by
  have hspace : ∀ part ∈ (split ' ' t).map upper, ' ' ∉ part := by
    intro part hpart
    obtain ⟨p, hp, rfl⟩ := List.mem_map.1 hpart
    exact fun h => not_mem_of_mem_split hp ((mem_upper_iff (by decide)).1 h)
  have hne : (split ' ' t).map upper ≠ [] := by simp [split_ne_nil]
  have hjoin := (split_join_iff hne).2 hspace
  rwa [← upper_join, join_split] at hjoin

end Text

/-! ## Words -/

theorem mem_of_mem_words {query w : Text} (h : w ∈ words query) {c : Char} (hc : c ∈ w) :
    c ∈ query :=
  Text.mem_of_mem_split (List.mem_filter.1 h).1 hc

/-- The words of a query are what it was joined from. -/
theorem words_join {parts : List Text} (h : ∀ part ∈ parts, part ≠ [] ∧ ' ' ∉ part) :
    words (join ' ' parts) = parts := by
  cases parts with
  | nil => rfl
  | cons part parts =>
    rw [words, (Text.split_join_iff (List.cons_ne_nil _ _)).2 fun p hp => (h p hp).2]
    exact List.filter_eq_self.2 fun p hp => decide_eq_true (h p hp).1

/-- A space cuts whatever stands around it. -/
theorem words_append (s t : Text) : words (s ++ ' ' :: t) = words s ++ words t := by
  rw [words, Text.split_append_cons, List.filter_append]
  rfl

theorem words_space (t : Text) : words (' ' :: t) = words t := words_append [] t

theorem words_spaces (n : Nat) (t : Text) : words (List.replicate n ' ' ++ t) = words t := by
  induction n with
  | zero => rfl
  | succ n ih => rw [List.replicate_succ, List.cons_append, words_space, ih]

/-- Spaces around a word leave it alone. -/
theorem words_padded {t : Text} (hne : t ≠ []) (hspace : ' ' ∉ t) (m n : Nat) :
    words (List.replicate m ' ' ++ t ++ List.replicate n ' ') = [t] := by
  have hword : words (join ' ' [t]) = [t] := words_join (by simp [hne, hspace])
  rw [join] at hword
  rw [List.append_assoc, words_spaces]
  cases n with
  | zero => rw [List.replicate_zero, List.append_nil, hword]
  | succ n =>
    have hrest := words_spaces n []
    rw [List.append_nil] at hrest
    rw [List.replicate_succ, words_append, hword, hrest]
    rfl

theorem words_upper (query : Text) : words (Text.upper query) = (words query).map Text.upper := by
  rw [words, words, Text.split_upper, List.filter_map]
  refine congrArg _ (List.filter_congr fun part _ => ?_)
  simp [Text.upper_eq_nil_iff]

/-! ## Runs of spaces -/

/-- Texts that differ in the lengths of their runs of spaces, and in the spaces they start and end
with. -/
inductive Respaced : Text → Text → Prop
  | refl (t : Text) : Respaced t t
  | symm {s t : Text} : Respaced s t → Respaced t s
  | trans {s t u : Text} : Respaced s t → Respaced t u → Respaced s u
  | run (s t : Text) : Respaced (s ++ ' ' :: ' ' :: t) (s ++ ' ' :: t)
  | leading (t : Text) : Respaced (' ' :: t) t
  | trailing (t : Text) : Respaced (t ++ [' ']) t

theorem Respaced.words_eq {s t : Text} (h : Respaced s t) : words s = words t := by
  induction h with
  | refl t => rfl
  | symm _ ih => exact ih.symm
  | trans _ _ ih ih' => exact ih.trans ih'
  | run s t => rw [words_append, words_append, words_space]
  | leading t => exact words_space t
  | trailing t => exact (words_append t []).trans (List.append_nil _)

theorem Respaced.behind (p : Text) {s t : Text} (h : Respaced s t) :
    Respaced (p ++ ' ' :: s) (p ++ ' ' :: t) := by
  induction h with
  | refl t => exact .refl _
  | symm _ ih => exact ih.symm
  | trans _ _ ih ih' => exact ih.trans ih'
  | run s t =>
    have h := Respaced.run (p ++ ' ' :: s) t
    rwa [List.append_assoc, List.append_assoc] at h
  | leading t => exact .run p t
  | trailing t =>
    have h := Respaced.trailing (p ++ ' ' :: t)
    rwa [List.append_assoc] at h

/-- Parts without characters add spaces alone. -/
theorem respaced_join (parts : List Text) :
    Respaced (join ' ' parts) (join ' ' (parts.filter (· ≠ []))) := by
  induction parts with
  | nil => exact .refl _
  | cons part parts ih =>
    cases parts with
    | nil => by_cases hpart : part = [] <;> simp [hpart, join, Respaced.refl]
    | cons next parts =>
      rw [Text.join_cons ' ' part (List.cons_ne_nil _ _)]
      by_cases hpart : part = []
      · rw [List.filter_cons_of_neg (by simp [hpart]), hpart]
        exact .trans (.leading _) ih
      · rw [List.filter_cons_of_pos (by simp [hpart])]
        refine .trans (ih.behind part) ?_
        cases (next :: parts).filter (· ≠ []) with
        | nil => exact .trailing part
        | cons first rest => exact .refl _

theorem respaced_words (t : Text) : Respaced t (join ' ' (words t)) := by
  have h := respaced_join (Text.split ' ' t)
  rwa [Text.join_split] at h

/-- Texts differ in the lengths of their runs of spaces exactly if they have the same words. -/
theorem respaced_iff {s t : Text} : Respaced s t ↔ words s = words t := by
  constructor
  · exact Respaced.words_eq
  · intro h
    exact .trans (respaced_words s) (h ▸ (respaced_words t).symm)

/-! ## Candidates -/

theorem candidatesOf_cons (w : Text) (ws : List Text) :
    candidatesOf (w :: ws) = join ' ' (w :: ws) :: candidatesOf ws := by
  obtain ⟨rest, hrest⟩ :=
    List.head?_eq_some_iff.1 (head?_candidatesOf (w :: ws) (List.cons_ne_nil w ws))
  rw [← tail_candidatesOf w ws, hrest]
  rfl

/-- The candidates of words in front of others: the ends that reach into the words in front, and
then the candidates of the others. -/
theorem candidatesOf_append (ws vs : List Text) :
    candidatesOf (ws ++ vs) =
      (List.range ws.length).map (fun i => join ' ' (ws.drop i ++ vs)) ++ candidatesOf vs := by
  induction ws with
  | nil => rfl
  | cons w ws ih =>
    rw [List.cons_append, candidatesOf_cons, ih, List.length_cons, List.range_succ_eq_map,
      List.map_cons, List.map_map]
    rfl

theorem candidatesOf_upper (ws : List Text) :
    candidatesOf (ws.map Text.upper) = (candidatesOf ws).map Text.upper := by
  induction ws with
  | nil => rfl
  | cons w ws ih =>
    rw [List.map_cons, candidatesOf_cons, candidatesOf_cons, ih, List.map_cons, Text.upper_join]
    rfl

/-- The characters of a candidate are spaces and characters of the query. -/
theorem mem_of_mem_candidates {query candidate : Text} (h : candidate ∈ candidates query)
    {c : Char} (hc : c ∈ candidate) : c = ' ' ∨ c ∈ query := by
  have hwords : ∀ w ∈ words query, ∀ c ∈ w, c ∈ query := fun w hw c => mem_of_mem_words hw
  rw [candidates] at h
  generalize words query = ws at h hwords
  induction ws with
  | nil => cases h
  | cons w ws ih =>
    rw [candidatesOf_cons] at h
    rcases List.mem_cons.1 h with rfl | h
    · rcases Text.mem_join hc with rfl | ⟨part, hpart, hmem⟩
      · exact .inl rfl
      · exact .inr (hwords part hpart c hmem)
    · exact ih h (List.forall_mem_cons.1 hwords).2

/-- The candidates of a query in upper case are those of the query, in upper case. -/
theorem candidates_upper (query : Text) :
    candidates (Text.upper query) = (candidates query).map Text.upper := by
  rw [candidates, words_upper, candidatesOf_upper]
  rfl

end Reckoner
