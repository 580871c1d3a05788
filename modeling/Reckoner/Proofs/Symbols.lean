import Reckoner.Proofs.Names
import Reckoner.Settings.Basic

/-!
# Looking names up

A name is put into upper case when it is added to the symbols and again when it is looked up.

*Upper case.*  What upper case leads to, it leaves alone (`upper_upper`).  The tables have close to
1,500 entries, too many to compare each with each, so the code points that change and those they
change into are two sets of bits of one number each (`mask`).

*Lookup.*  After an insertion a name finds what was inserted if the two agree in upper case
(`find?_insert`).  After several it finds the latest that agrees (`find?_insertAll`), so a constant
of the settings is found if no other agrees with it (`find?_symbols`).
-/

namespace Reckoner

namespace Text

open Formula

/-! ## Upper case -/

/-- The number whose bits are set at the given places. -/
def mask : List Nat → Nat
  | [] => 0
  | n :: ns => mask ns ||| 1 <<< n

theorem testBit_mask {ns : List Nat} {n : Nat} : (mask ns).testBit n = true ↔ n ∈ ns := by
  induction ns with
  | nil => simp [mask]
  | cons m ns ih =>
    rw [mask, Nat.testBit_or, Bool.or_eq_true, ih, Nat.one_shiftLeft, Nat.testBit_two_pow,
      decide_eq_true_iff, List.mem_cons, or_comm, eq_comm]

theorem not_mem_of_mask {ms ns : List Nat} (h : mask ms &&& mask ns = 0) {n : Nat} (hn : n ∈ ns) :
    n ∉ ms := by
  intro hm
  have hbit : (mask ms &&& mask ns).testBit n = true := by
    rw [Nat.testBit_and, testBit_mask.2 hm, testBit_mask.2 hn]
    rfl
  rw [h, Nat.zero_testBit] at hbit
  cases hbit

/-- The code points that upper case changes. -/
def changing : List Nat :=
  (caseRuns.flatMap members).map Prod.fst ++ caseExpansions.map Prod.fst

/-- The code points that it changes them into. -/
def capitals : List Nat :=
  (caseRuns.flatMap members).map Prod.snd ++ caseExpansions.flatMap Prod.snd

theorem mask_changing_capitals : mask changing &&& mask capitals = 0 := by
  decide +kernel

theorem upperChar_of_not_mem {c : Char} (h : c.toNat ∉ changing) : upperChar c = [c] := by
  have hexpansion : expansion? caseExpansions c.toNat = none := by
    cases he : expansion? caseExpansions c.toNat with
    | none => rfl
    | some ms =>
      exact absurd (List.mem_append_right _ (List.mem_map_of_mem (mem_of_expansion? he))) h
  have hrun : runUpper caseRuns c.toNat = c.toNat := by
    rcases runUpper_cases caseRuns c.toNat with heq | ⟨r, hr, hlow, hhigh, hstride, -⟩
    · exact heq
    · have hmember := List.mem_flatMap.2 ⟨r, hr, mem_members hlow hhigh hstride⟩
      exact absurd (List.mem_append_left _ (List.mem_map_of_mem hmember)) h
  rw [upperChar, hexpansion, hrun, Char.ofNat_toNat]

theorem upperChar_ofNat {n : Nat} (h : n ∈ capitals) :
    upperChar (Char.ofNat n) = [Char.ofNat n] := by
  rcases toNat_ofNat n with heq | heq
  · refine upperChar_of_not_mem ?_
    rw [heq]
    exact not_mem_of_mask mask_changing_capitals h
  · -- a number that is no code point stands for the null character
    rw [heq]
    decide

/-- Upper case leaves a character alone, or makes capitals of it. -/
theorem upperChar_cases (c : Char) :
    upperChar c = [c] ∨ ∀ d ∈ upperChar c, ∃ n ∈ capitals, d = Char.ofNat n := by
  unfold upperChar
  split
  · next ms hms =>
    refine .inr fun d hd => ?_
    obtain ⟨m, hm, rfl⟩ := List.mem_map.1 hd
    have hcapital : m ∈ caseExpansions.flatMap Prod.snd :=
      List.mem_flatMap.2 ⟨_, mem_of_expansion? hms, hm⟩
    exact ⟨m, List.mem_append_right _ hcapital, rfl⟩
  · rcases runUpper_cases caseRuns c.toNat with heq | ⟨r, hr, hlow, hhigh, hstride, heq⟩
    · rw [heq, Char.ofNat_toNat]
      exact .inl rfl
    · refine .inr fun d hd => ?_
      obtain rfl := List.mem_singleton.1 hd
      have hmember := List.mem_flatMap.2 ⟨r, hr, mem_members hlow hhigh hstride⟩
      exact ⟨_, List.mem_append_left _ (List.mem_map_of_mem hmember), by rw [heq]⟩

/-- A character of some upper case is its own upper case. -/
theorem upperChar_of_mem_upperChar {c d : Char} (h : d ∈ upperChar c) : upperChar d = [d] := by
  rcases upperChar_cases c with hsame | hcapitals
  · rw [hsame] at h
    rwa [List.mem_singleton.1 h]
  · obtain ⟨n, hn, rfl⟩ := hcapitals d h
    exact upperChar_ofNat hn

theorem upperChar_of_mem_upper {t : Text} {c : Char} (h : c ∈ upper t) : upperChar c = [c] := by
  obtain ⟨d, -, hc⟩ := List.mem_flatMap.1 h
  exact upperChar_of_mem_upperChar hc

/-- Upper case leaves upper case alone. -/
theorem upper_upper (t : Text) : upper (upper t) = upper t :=
  upper_eq_self fun _ hc => upperChar_of_mem_upper hc

end Text

/-! ## Lookup -/

theorem eq_of_ascending {entries : List (Text × Float)} (h : Ascending entries)
    {p q : Text × Float} (hp : p ∈ entries) (hq : q ∈ entries) (hname : p.1 = q.1) : p = q := by
  have hlt := List.pairwise_iff_getElem.1 h
  obtain ⟨i, hi, rfl⟩ := List.getElem_of_mem hp
  obtain ⟨j, hj, rfl⟩ := List.getElem_of_mem hq
  rcases Nat.lt_trichotomy i j with hij | rfl | hji
  · exact absurd (hname ▸ hlt i j hi hj hij) (List.lt_irrefl _)
  · rfl
  · exact absurd (hname ▸ hlt j i hj hi hji) (List.lt_irrefl _)

theorem lookup_cons_eq (first name : Text) (x : Float) (entries : List (Text × Float)) :
    ((first, x) :: entries).lookup name = if name = first then some x else entries.lookup name := by
  by_cases h : name = first
  · simp [h]
  · rw [List.lookup_cons, beq_false_of_ne h, if_neg h]

theorem lookup_insertEntry (name other : Text) (x : Float) (entries : List (Text × Float)) :
    (NameMap.insertEntry name x entries).lookup other =
      if other = name then some x else entries.lookup other := by
  induction entries with
  | nil => exact lookup_cons_eq name other x []
  | cons p rest ih =>
    obtain ⟨first, y⟩ := p
    rw [NameMap.insertEntry]
    split
    · exact lookup_cons_eq name other x _
    · split
      · next heq =>
        rw [heq, lookup_cons_eq, lookup_cons_eq]
        split <;> rfl
      · next hne =>
        rw [lookup_cons_eq, lookup_cons_eq, ih]
        split
        · next heq => rw [if_neg fun h => hne (h.symm.trans heq)]
        · rfl

namespace Symbols

theorem find?_insert (s : Symbols) (name other : Text) (x : Float) :
    (s.insert name x).find? other =
      if Text.upper other = Text.upper name then some x else s.find? other :=
  lookup_insertEntry _ _ _ _

/-- What a name finds after constants were added in order: the latest that agrees with it in upper
case, or what it found before. -/
theorem find?_insertAll (s : Symbols) (pairs : List (Text × Float)) (name : Text) :
    (s.insertAll pairs).find? name =
      ((pairs.reverse.find? fun p => Text.upper name = Text.upper p.1).map Prod.snd).or
        (s.find? name) := by
  induction pairs generalizing s with
  | nil => rfl
  | cons p pairs ih =>
    rw [show s.insertAll (p :: pairs) = (s.insert p.1 p.2).insertAll pairs from rfl, ih,
      List.reverse_cons, List.find?_append, find?_insert]
    by_cases h : Text.upper name = Text.upper p.1
    · cases pairs.reverse.find? fun p => Text.upper name = Text.upper p.1 <;> simp [h]
    · cases pairs.reverse.find? fun p => Text.upper name = Text.upper p.1 <;> simp [h]

end Symbols

namespace Settings

/-- A constant is found by its name if no other agrees with it in upper case. -/
theorem find?_symbols (s : Settings) {name : Text} {x : Float}
    (h : (name, x) ∈ s.constants.entries)
    (hunique : ∀ p ∈ s.constants.entries, Text.upper p.1 = Text.upper name → p.1 = name) :
    s.symbols.find? name = some x := by
  rw [symbols, Symbols.find?_insertAll]
  cases hfind : s.constants.entries.reverse.find? fun p => Text.upper name = Text.upper p.1 with
  | none =>
    have hnone := List.find?_eq_none.1 hfind (name, x) (List.mem_reverse.2 h)
    simp at hnone
  | some p =>
    have hmem : p ∈ s.constants.entries := List.mem_reverse.1 (List.mem_of_find?_eq_some hfind)
    have hupper : Text.upper name = Text.upper p.1 := by simpa using List.find?_some hfind
    rw [eq_of_ascending s.constants.ascending hmem h (hunique p hmem hupper.symm)]
    rfl

/-- A name that agrees with no constant of the settings finds what is built in. -/
theorem find?_symbols_of_ne (s : Settings) {name : Text}
    (h : ∀ p ∈ s.constants.entries, Text.upper name ≠ Text.upper p.1) :
    s.symbols.find? name = Symbols.builtIn.find? name := by
  have hnone : s.constants.entries.reverse.find? (fun p => Text.upper name = Text.upper p.1) =
      none := List.find?_eq_none.2 fun p hp => by simpa using h p (List.mem_reverse.1 hp)
  rw [symbols, Symbols.find?_insertAll, hnone]
  rfl

end Settings

end Reckoner
