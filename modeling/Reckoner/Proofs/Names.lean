import Reckoner.Formula.Piece
import Reckoner.Formula.Widening
import Reckoner.Text.Uppercase

/-!
# Names and the classes of characters

What the scan of `widen` and the first cut of a formula have to agree on.  A character that may
continue a name, and so every digit, stands in a literal: it is no sign, no blank and no quote
mark (`plain_of_continuesName`).  A digit continues a name and starts none.

Names are looked up in upper case, and a text that is no name may become one there.  One
character alone brings this about: U+0345, a combining mark whose upper case is the letter Ι
(`isName_of_upper`).
-/

namespace Reckoner.Text

/-! ## Tables of ranges -/

/-- Whether ranges start at `bound` or later, ascend and do not overlap. -/
def ascends : Nat → List (Nat × Nat) → Bool
  | _, [] => true
  | bound, (low, high) :: rest => decide (bound ≤ low ∧ low ≤ high) && ascends (high + 1) rest

/-- The elements whose span lies in none of the ranges.  It is one pass if both lists ascend. -/
def outside {α : Type} (span : α → Nat × Nat) : List α → List (Nat × Nat) → List α
  | [], _ => []
  | a :: rest, ranges =>
      let further := ranges.dropWhile fun q => q.2 < (span a).1
      if further.head?.any fun q => q.1 ≤ (span a).1 ∧ (span a).2 ≤ q.2 then
        outside span rest further
      else a :: outside span rest further

/-- Whether no range of the first table overlaps one of the second. -/
def apart : List (Nat × Nat) → List (Nat × Nat) → Bool
  | [], _ => true
  | (low, high) :: rest, others =>
      match others.dropWhile (fun q => q.2 < low) with
      | [] => true
      | q :: others => decide (high < q.1) && apart rest (q :: others)

theorem ascends_cons {bound low high : Nat} {rest : List (Nat × Nat)}
    (h : ascends bound ((low, high) :: rest) = true) :
    bound ≤ low ∧ low ≤ high ∧ ascends (high + 1) rest = true := by
  simpa [ascends, and_assoc] using h

theorem ascends_mono {bound bound' : Nat} {ranges : List (Nat × Nat)} (hle : bound' ≤ bound)
    (h : ascends bound ranges = true) : ascends bound' ranges = true := by
  cases ranges with
  | nil => rfl
  | cons r rest =>
    obtain ⟨hlow, hhigh, hrest⟩ := ascends_cons h
    simp only [ascends, hrest, Bool.and_true, decide_eq_true_eq]
    exact ⟨Nat.le_trans hle hlow, hhigh⟩

theorem le_of_ascends {bound : Nat} {ranges : List (Nat × Nat)} (h : ascends bound ranges = true)
    {r : Nat × Nat} (hr : r ∈ ranges) : bound ≤ r.1 := by
  induction ranges generalizing bound with
  | nil => cases hr
  | cons p rest ih =>
    obtain ⟨hlow, hhigh, hrest⟩ := ascends_cons h
    rcases List.mem_cons.1 hr with rfl | hr
    · exact hlow
    · have := ih hrest hr
      omega

/-- The search in an ascending table misses nothing. -/
theorem inRanges_of_mem {bound : Nat} {ranges : List (Nat × Nat)}
    (h : ascends bound ranges = true) {r : Nat × Nat} (hr : r ∈ ranges) {n : Nat}
    (hn : r.1 ≤ n ∧ n ≤ r.2) : inRanges ranges n = true := by
  induction ranges generalizing bound with
  | nil => cases hr
  | cons p rest ih =>
    obtain ⟨hlow, hhigh, hrest⟩ := ascends_cons h
    rcases List.mem_cons.1 hr with rfl | hr
    · simp [inRanges, hn.2, Nat.not_lt.2 hn.1]
    · have hle := le_of_ascends hrest hr
      simp [inRanges, ih hrest hr, show ¬ n < p.1 by omega]

theorem inRanges_dropWhile {bound low n : Nat} {ranges : List (Nat × Nat)}
    (h : ascends bound ranges = true) (hn : low ≤ n) :
    inRanges (ranges.dropWhile fun q => q.2 < low) n = inRanges ranges n ∧
      ascends bound (ranges.dropWhile fun q => q.2 < low) = true := by
  induction ranges generalizing bound with
  | nil => exact ⟨rfl, rfl⟩
  | cons p rest ih =>
    obtain ⟨hlow, hhigh, hrest⟩ := ascends_cons h
    by_cases hp : p.2 < low
    · obtain ⟨heq, hasc⟩ := ih hrest
      simp only [List.dropWhile_cons, hp, decide_true, if_true]
      refine ⟨?_, ascends_mono (by omega) hasc⟩
      rw [heq, inRanges, if_neg (by omega), decide_eq_false (by omega), Bool.false_or]
    · simp only [List.dropWhile_cons, hp, decide_false]
      exact ⟨rfl, h⟩

theorem inRanges_eq_false_of_apart {bound bound' : Nat} {ranges others : List (Nat × Nat)}
    (hapart : apart ranges others = true) (hr : ascends bound ranges = true)
    (ho : ascends bound' others = true) {n : Nat} (hn : inRanges ranges n = true) :
    inRanges others n = false := by
  induction ranges generalizing bound others with
  | nil => cases hn
  | cons r rest ih =>
    obtain ⟨low, high⟩ := r
    obtain ⟨-, -, hrest⟩ := ascends_cons hr
    have hlow : low ≤ n := by
      by_cases hlt : n < low
      · rw [inRanges, if_pos hlt] at hn
        cases hn
      · exact Nat.not_lt.1 hlt
    obtain ⟨heq, hasc⟩ := inRanges_dropWhile ho hlow
    rw [apart] at hapart
    cases hd : others.dropWhile (fun q => q.2 < low) with
    | nil =>
      rw [hd] at heq
      exact heq.symm
    | cons q others =>
      rw [hd] at heq hasc hapart
      simp only [Bool.and_eq_true, decide_eq_true_eq] at hapart
      rw [← heq]
      by_cases hhigh : n ≤ high
      · rw [inRanges, if_pos (by omega)]
      · refine ih hapart.2 hrest hasc ?_
        rwa [inRanges, if_neg (by omega), decide_eq_false hhigh, Bool.false_or] at hn

theorem mem_outside {α : Type} (span : α → Nat × Nat) {as : List α} {ranges : List (Nat × Nat)}
    {a : α} (ha : a ∈ as) (h : ∀ q ∈ ranges, ¬ (q.1 ≤ (span a).1 ∧ (span a).2 ≤ q.2)) :
    a ∈ outside span as ranges := by
  induction as generalizing ranges with
  | nil => cases ha
  | cons b rest ih =>
    have hfurther : ∀ q ∈ ranges.dropWhile fun q => q.2 < (span b).1,
        ¬ (q.1 ≤ (span a).1 ∧ (span a).2 ≤ q.2) :=
      fun q hq => h q ((List.dropWhile_sublist _).mem hq)
    rw [outside]
    rcases List.mem_cons.1 ha with rfl | ha
    · split
      · next hany =>
        obtain ⟨q, hq, hcover⟩ := (Option.any_eq_true _ _).1 hany
        exact absurd (by simpa using hcover) (hfurther q (List.mem_of_mem_head? hq))
      · exact List.mem_cons_self
    · split
      · exact ih ha hfurther
      · exact List.mem_cons_of_mem _ (ih ha hfurther)

/-- The tables ascend.  Digits and blanks are no letters, blanks are not numeric, and digits are.
One evaluation serves all parts. -/
theorem tables :
    (ascends 0 letterRanges = true ∧ ascends 0 numericRanges = true ∧
      ascends 0 decimalDigitRanges = true ∧ ascends 0 blankRanges = true) ∧
    apart decimalDigitRanges letterRanges = true ∧ apart blankRanges letterRanges = true ∧
    apart blankRanges numericRanges = true ∧ outside id decimalDigitRanges numericRanges = [] := by
  decide +kernel

theorem ascends_letterRanges : ascends 0 letterRanges = true := tables.1.1

theorem ascends_numericRanges : ascends 0 numericRanges = true := tables.1.2.1

theorem ascends_decimalDigitRanges : ascends 0 decimalDigitRanges = true := tables.1.2.2.1

theorem ascends_blankRanges : ascends 0 blankRanges = true := tables.1.2.2.2

/-! ## Digits -/

theorem toNat_of_isAsciiDigit {c : Char} (h : isAsciiDigit c = true) :
    '0'.toNat ≤ c.toNat ∧ c.toNat ≤ '9'.toNat := by
  simp only [isAsciiDigit, Bool.and_eq_true, decide_eq_true_eq, Char.le_def,
    UInt32.le_iff_toNat_le] at h
  exact h

theorem isDecimalDigit_of_isAsciiDigit {c : Char} (h : isAsciiDigit c = true) :
    isDecimalDigit c = true := by
  have hmem : (0x30, 0x39) ∈ decimalDigitRanges := by simp [decimalDigitRanges]
  exact inRanges_of_mem ascends_decimalDigitRanges hmem (toNat_of_isAsciiDigit h)

theorem isNumeric_of_isDecimalDigit {c : Char} (h : isDecimalDigit c = true) :
    isNumeric c = true := by
  obtain ⟨-, -, -, -, hcovered⟩ := tables
  obtain ⟨r, hr, hlow, hhigh⟩ := exists_of_inRanges h
  by_cases hq : ∃ q ∈ numericRanges, q.1 ≤ r.1 ∧ r.2 ≤ q.2
  · obtain ⟨q, hq, hle⟩ := hq
    exact inRanges_of_mem ascends_numericRanges hq ⟨by omega, by omega⟩
  · have hmem := mem_outside id hr fun q hq' hle => hq ⟨q, hq', hle⟩
    rw [hcovered] at hmem
    cases hmem

theorem isLetter_eq_false_of_isDecimalDigit {c : Char} (h : isDecimalDigit c = true) :
    isLetter c = false :=
  inRanges_eq_false_of_apart tables.2.1 ascends_decimalDigitRanges ascends_letterRanges h

end Reckoner.Text

namespace Reckoner.Formula

open Text

/-! ## Characters of literals -/

/-- A character that is a part of a literal wherever it stands outside quoted texts. -/
def Plain (c : Char) : Prop := Sign.ofChar? c = none ∧ isBlank c = false ∧ c ≠ '"'

instance (c : Char) : Decidable (Plain c) := inferInstanceAs (Decidable (_ ∧ _))

theorem continuesName_of_startsName {c : Char} (h : startsName c = true) :
    continuesName c = true := by
  simp only [startsName, Bool.or_eq_true] at h
  rcases h with h | h <;> simp [continuesName, h]

theorem continuesName_of_isDecimalDigit {c : Char} (h : isDecimalDigit c = true) :
    continuesName c = true := by
  simp [continuesName, isNumeric_of_isDecimalDigit h]

theorem startsName_eq_false_of_isDecimalDigit {c : Char} (h : isDecimalDigit c = true) :
    startsName c = false := by
  have hne : c ≠ '_' := by
    rintro rfl
    exact absurd h (by decide)
  simp [startsName, isLetter_eq_false_of_isDecimalDigit h, hne]

theorem isBlank_eq_false_of_continuesName {c : Char} (h : continuesName c = true) :
    isBlank c = false := by
  by_cases hb : isBlank c = true
  · have hletter : isLetter c = false :=
      inRanges_eq_false_of_apart tables.2.2.1 ascends_blankRanges ascends_letterRanges hb
    have hnumeric : isNumeric c = false :=
      inRanges_eq_false_of_apart tables.2.2.2.1 ascends_blankRanges ascends_numericRanges hb
    simp only [continuesName, hletter, hnumeric, Bool.false_or, Bool.or_eq_true,
      decide_eq_true_eq] at h
    rcases h with rfl | rfl <;> exact absurd hb (by decide)
  · exact Bool.eq_false_iff.2 hb

theorem plain_of_continuesName {c : Char} (h : continuesName c = true) : Plain c := by
  refine ⟨?_, isBlank_eq_false_of_continuesName h, ?_⟩
  · cases hs : Sign.ofChar? c with
    | none => rfl
    | some s =>
      rw [← char_of_ofChar? hs] at h
      cases s <;> exact absurd h (by decide)
  · rintro rfl
    exact absurd h (by decide)

theorem plain_of_isDecimalDigit {c : Char} (h : isDecimalDigit c = true) : Plain c :=
  plain_of_continuesName (continuesName_of_isDecimalDigit h)

theorem plain_point : Plain '.' := ⟨by decide, by decide, by decide⟩

/-! ## Names -/

/-- A letter or underscore, then letters, numeric characters, underscores and colons. -/
def IsName : Text → Prop
  | [] => False
  | c :: t => startsName c = true ∧ ∀ d ∈ t, continuesName d = true

instance : (t : Text) → Decidable (IsName t)
  | [] => inferInstanceAs (Decidable False)
  | c :: t =>
      decidable_of_iff (startsName c = true ∧ t.all continuesName = true) (by simp [IsName])

theorem IsName.continuesName {t : Text} (h : IsName t) : ∀ c ∈ t, continuesName c = true := by
  cases t with
  | nil => exact h.elim
  | cons c t =>
    intro d hd
    rcases List.mem_cons.1 hd with rfl | hd
    · exact continuesName_of_startsName h.1
    · exact h.2 d hd

/-! ## Upper case -/

theorem runUpper_cases (runs : List CaseRun) (n : Nat) :
    runUpper runs n = n ∨ ∃ r ∈ runs, r.first ≤ n ∧ n ≤ r.last ∧ (n - r.first) % r.stride = 0 ∧
      runUpper runs n = r.target + (n - r.first) := by
  induction runs with
  | nil => exact .inl rfl
  | cons r rest ih =>
    rw [runUpper]
    split
    · exact .inl rfl
    · split
      · next hlow hmember =>
        exact .inr ⟨r, by simp, Nat.not_lt.1 hlow, hmember.1, hmember.2, rfl⟩
      · rcases ih with heq | ⟨q, hq, hmember⟩
        · exact .inl heq
        · exact .inr ⟨q, by simp [hq], hmember⟩

/-- The members of a run with what they become. -/
def members (r : CaseRun) : List (Nat × Nat) :=
  (List.range ((r.last - r.first) / r.stride + 1)).map fun k =>
    (r.first + k * r.stride, r.target + k * r.stride)

theorem mem_members {r : CaseRun} {n : Nat} (hlow : r.first ≤ n) (hhigh : n ≤ r.last)
    (hstride : (n - r.first) % r.stride = 0) : (n, r.target + (n - r.first)) ∈ members r := by
  have hcancel : (n - r.first) / r.stride * r.stride = n - r.first :=
    Nat.div_mul_cancel (Nat.dvd_of_mod_eq_zero hstride)
  have hle : (n - r.first) / r.stride ≤ (r.last - r.first) / r.stride :=
    Nat.div_le_div_right (by omega)
  refine List.mem_map.2 ⟨(n - r.first) / r.stride, List.mem_range.2 (by omega), ?_⟩
  rw [hcancel, Nat.add_sub_cancel' hlow]

/-- The code points other than letters and U+0345 that become another one, with what they
become: Roman numerals, letters in circles, and letters of later editions. -/
def strays : List (Nat × Nat) :=
  (outside (fun p => (p.1, p.1)) (caseRuns.flatMap members) letterRanges).filter (·.1 ≠ 0x345)

/-- The code points of a list of pairs, each as a range of its own. -/
def targets (pairs : List (Nat × Nat)) : List (Nat × Nat) := pairs.map fun p => (p.2, p.2)

theorem not_inRanges_of_mem_targets {pairs ranges : List (Nat × Nat)} {bound : Nat}
    (hpairs : ascends 0 (targets pairs) = true) (hranges : ascends bound ranges = true)
    (hapart : apart (targets pairs) ranges = true) {p : Nat × Nat} (hp : p ∈ pairs) :
    inRanges ranges p.2 = false := by
  have hmem : (p.2, p.2) ∈ targets pairs := List.mem_map.2 ⟨p, hp, rfl⟩
  have hin := inRanges_of_mem hpairs hmem ⟨Nat.le_refl p.2, Nat.le_refl p.2⟩
  exact inRanges_eq_false_of_apart hapart hpairs hranges hin

/-- The strays that are not numeric. -/
def lesserStrays : List (Nat × Nat) := outside (fun p => (p.1, p.1)) strays numericRanges

/-- What strays become, and that all characters with several capitals are letters. -/
theorem strays_tables :
    outside (fun p => (p.1, p.1)) caseExpansions letterRanges = [] ∧
    (ascends 0 (targets strays) = true ∧ apart (targets strays) letterRanges = true) ∧
    (ascends 0 (targets lesserStrays) = true ∧
      apart (targets lesserStrays) numericRanges = true) ∧
    ∀ p ∈ strays, p.2 ≠ '_'.toNat ∧ p.2 ≠ ':'.toNat := by
  decide +kernel

/-- What a stray becomes is no letter either. -/
theorem not_letter_of_mem_strays {p : Nat × Nat} (h : p ∈ strays) :
    inRanges letterRanges p.2 = false :=
  not_inRanges_of_mem_targets strays_tables.2.1.1 ascends_letterRanges strays_tables.2.1.2 h

/-- What a stray becomes is numeric only if the stray is. -/
theorem numeric_of_mem_strays {p : Nat × Nat} (h : p ∈ strays)
    (htarget : inRanges numericRanges p.2 = true) : inRanges numericRanges p.1 = true := by
  obtain ⟨-, -, ⟨hascends, hapart⟩, -⟩ := strays_tables
  by_cases hp : ∃ q ∈ numericRanges, q.1 ≤ p.1 ∧ p.1 ≤ q.2
  · obtain ⟨q, hq, hle⟩ := hp
    exact inRanges_of_mem ascends_numericRanges hq hle
  · have hmem : p ∈ lesserStrays := mem_outside _ h fun q hq hle => hp ⟨q, hq, hle⟩
    have hfalse := not_inRanges_of_mem_targets hascends ascends_numericRanges hapart hmem
    rw [hfalse] at htarget
    cases htarget

theorem mem_of_expansion? {table : List (Nat × List Nat)} {n : Nat} {ms : List Nat}
    (h : expansion? table n = some ms) : (n, ms) ∈ table := by
  induction table with
  | nil => cases h
  | cons p rest ih =>
    rw [expansion?] at h
    split at h
    · cases h
    · split at h
      · next heq => cases h; simp [heq]
      · exact List.mem_cons_of_mem _ (ih h)

theorem toNat_ofNat (n : Nat) : (Char.ofNat n).toNat = n ∨ Char.ofNat n = '\x00' := by
  by_cases hvalid : n.isValidChar
  · left
    rw [Char.ofNat, dif_pos hvalid]
    rfl
  · right
    rw [Char.ofNat, dif_neg hvalid]
    rfl

/-- What a stray becomes has no place in names that the stray does not have. -/
theorem place_of_mem_strays {c : Char} {m : Nat} (h : (c.toNat, m) ∈ strays) :
    (startsName (Char.ofNat m) = true → startsName c = true) ∧
      (continuesName (Char.ofNat m) = true → continuesName c = true) := by
  rcases toNat_ofNat m with hm | hm
  · have hletter : isLetter (Char.ofNat m) = false := by
      rw [isLetter, hm]
      exact not_letter_of_mem_strays h
    obtain ⟨hunderscore, hcolon⟩ := strays_tables.2.2.2 _ h
    have hunderscore : Char.ofNat m ≠ '_' := fun heq => hunderscore (by rw [← heq, hm])
    have hcolon : Char.ofNat m ≠ ':' := fun heq => hcolon (by rw [← heq, hm])
    refine ⟨fun hs => ?_, fun hs => ?_⟩
    · simp [startsName, hletter, hunderscore] at hs
    · have hnumeric : isNumeric (Char.ofNat m) = true := by
        simpa [continuesName, hletter, hunderscore, hcolon] using hs
      rw [isNumeric, hm] at hnumeric
      have hc : isNumeric c = true := numeric_of_mem_strays h hnumeric
      simp [continuesName, hc]
  · rw [hm]
    exact ⟨fun hs => absurd hs (by decide), fun hs => absurd hs (by decide)⟩

/-- The upper case of a character that is neither a letter nor U+0345: one character, with no
place in names that the other does not have. -/
theorem upperChar_cases {c : Char} (hletter : isLetter c = false) (hc : c ≠ '\u0345') :
    ∃ d, upperChar c = [d] ∧ (startsName d = true → startsName c = true) ∧
      (continuesName d = true → continuesName c = true) := by
  have hnone : ∀ q ∈ letterRanges, ¬ (q.1 ≤ c.toNat ∧ c.toNat ≤ q.2) := by
    intro q hq hle
    have hin : isLetter c = true := inRanges_of_mem ascends_letterRanges hq hle
    rw [hin] at hletter
    cases hletter
  have hexpansion : expansion? caseExpansions c.toNat = none := by
    cases he : expansion? caseExpansions c.toNat with
    | none => rfl
    | some ms =>
      have hmem := mem_outside (fun p => (p.1, p.1)) (mem_of_expansion? he) hnone
      rw [strays_tables.1] at hmem
      cases hmem
  refine ⟨Char.ofNat (runUpper caseRuns c.toNat), by rw [upperChar, hexpansion], ?_⟩
  rcases runUpper_cases caseRuns c.toNat with heq | ⟨r, hr, hlow, hhigh, hstride, heq⟩
  · rw [heq, Char.ofNat_toNat]
    exact ⟨id, id⟩
  · rw [heq]
    have hstray : (c.toNat, r.target + (c.toNat - r.first)) ∈ strays := by
      refine List.mem_filter.2 ⟨mem_outside _ ?_ hnone, ?_⟩
      · exact List.mem_flatMap.2 ⟨r, hr, mem_members hlow hhigh hstride⟩
      · have hne : c.toNat ≠ '\u0345'.toNat := fun h => hc (Char.toNat_inj.1 h)
        simpa using hne
    exact place_of_mem_strays hstray

theorem continuesName_of_upper {c : Char} (hc : c ≠ '\u0345')
    (h : ∀ d ∈ upperChar c, continuesName d = true) : continuesName c = true := by
  by_cases hletter : isLetter c = true
  · simp [continuesName, hletter]
  · obtain ⟨d, hd, -, hcontinues⟩ := upperChar_cases (Bool.eq_false_iff.2 hletter) hc
    rw [hd] at h
    exact hcontinues (h d (by simp))

/-- Without U+0345, a text whose upper case is a name is one itself. -/
theorem isName_of_upper {t : Text} (hmark : '\u0345' ∉ t) (h : IsName (upper t)) : IsName t := by
  cases t with
  | nil => exact h
  | cons c t =>
    obtain ⟨hc, ht⟩ : c ≠ '\u0345' ∧ '\u0345' ∉ t := by
      simpa [List.mem_cons, eq_comm] using hmark
    have hall := h.continuesName
    refine ⟨?_, fun e he => ?_⟩
    · by_cases hletter : isLetter c = true
      · simp [startsName, hletter]
      · obtain ⟨d, hd, hstarts, -⟩ := upperChar_cases (Bool.eq_false_iff.2 hletter) hc
        rw [upper_cons, hd] at h
        exact hstarts h.1
    · refine continuesName_of_upper (fun heq => ht (heq ▸ he)) fun d hd => hall d ?_
      exact List.mem_flatMap.2 ⟨e, List.mem_cons_of_mem _ he, hd⟩

end Reckoner.Formula
