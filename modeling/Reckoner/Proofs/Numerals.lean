import Mathlib.Data.List.TakeWhile
import Reckoner.Formula.Token
import Reckoner.Proofs.Names

/-!
# The shapes of numbers

Three readers of numbers meet in a formula, and each is inverted here: what an integer literal
looks like (`integer?_inv`), what a numeral looks like (`decimal?_inv`), and what the scan of
`widen` takes for a number (`numberRun_inv`).  `shape_firstLexeme` collects what is known of the
first lexeme of a text and of the text behind it.
-/

namespace Reckoner.Formula

open Text

/-! ## Integer literals -/

theorem hexDigits_of_foldlM {u : Text} {a n : Nat}
    (h : u.foldlM (fun n c => (hexDigit? c).map (16 * n + ·)) a = some n) :
    ∀ c ∈ u, hexDigit? c ≠ none := by
  induction u generalizing a with
  | nil => simp
  | cons c u ih =>
    rw [List.foldlM_cons] at h
    obtain ⟨b, hb, h⟩ := Option.bind_eq_some_iff.1 h
    obtain ⟨d, hd, -⟩ := Option.map_eq_some_iff.1 hb
    intro e he
    rcases List.mem_cons.1 he with rfl | he
    · simp [hd]
    · exact ih h e he

theorem continuesName_of_hexDigit? {c : Char} (h : hexDigit? c ≠ none) :
    continuesName c = true := by
  have hletter : ∀ {r : Nat × Nat} {low high : Char}, r ∈ letterRanges →
      r.1 ≤ low.toNat ∧ high.toNat ≤ r.2 → low ≤ c ∧ c ≤ high → continuesName c = true := by
    intro r low high hr hrange hc
    have hc : low.toNat ≤ c.toNat ∧ c.toNat ≤ high.toNat := by
      simpa [Char.le_def, UInt32.le_iff_toNat_le] using hc
    have hin : isLetter c = true :=
      inRanges_of_mem ascends_letterRanges hr
        ⟨Nat.le_trans hrange.1 hc.1, Nat.le_trans hc.2 hrange.2⟩
    simp [continuesName, hin]
  unfold hexDigit? at h
  split at h
  · next hdigit =>
    refine continuesName_of_isDecimalDigit (isDecimalDigit_of_isAsciiDigit ?_)
    simpa [isAsciiDigit] using hdigit
  · split at h
    · next hsmall => exact hletter (r := (0x61, 0x7A)) (.tail _ (.head _)) (by decide) hsmall
    · split at h
      · next hcapital => exact hletter (r := (0x41, 0x5A)) (.head _) (by decide) hcapital
      · exact absurd rfl h

/-- An integer literal consists of ASCII digits, or of `0x` and hexadecimal digits. -/
theorem integer?_inv {t : Text} {n : Int} (h : integer? t = some n) :
    (t ≠ [] ∧ ∀ c ∈ t, isAsciiDigit c = true) ∨
      ∃ u, t = '0' :: 'x' :: u ∧ ∀ c ∈ u, hexDigit? c ≠ none := by
  unfold integer? at h
  dsimp only at h
  split at h
  · next magnitude hmagnitude =>
    split at hmagnitude
    · next u =>
      unfold hexadecimal? at hmagnitude
      split at hmagnitude
      · cases hmagnitude
      · exact .inr ⟨u, rfl, hexDigits_of_foldlM hmagnitude⟩
    · unfold decimalInteger? at hmagnitude
      split at hmagnitude
      · cases hmagnitude
      · next hdigits =>
        left
        simpa using hdigits
  · cases h

/-- A text with another character than ASCII digits that does not start with `0x`. -/
theorem integer?_eq_none {t : Text} {c : Char} (hc : c ∈ t) (hdigit : isAsciiDigit c = false)
    (hhex : ∀ u, t ≠ '0' :: 'x' :: u) : integer? t = none := by
  cases hi : integer? t with
  | none => rfl
  | some n =>
    rcases integer?_inv hi with ⟨-, hall⟩ | ⟨u, heq, -⟩
    · rw [hall c hc] at hdigit
      cases hdigit
    · exact absurd heq (hhex u)

/-! ## Numerals -/

open Number

/-- An optional sign. -/
def IsSignRun (s : Text) : Prop := s = [] ∨ s = ['+'] ∨ s = ['-']

theorem signed_inv (t : Text) : ∃ s, t = s ++ (signed t).2 ∧ IsSignRun s := by
  unfold signed
  split
  · exact ⟨['-'], rfl, .inr (.inr rfl)⟩
  · exact ⟨['+'], rfl, .inr (.inl rfl)⟩
  · exact ⟨[], rfl, .inl rfl⟩

/-- An exponent with digits of the class `digit`: the letter, an optional sign, and digits. -/
def IsExponent (digit : Char → Bool) (x : Text) : Prop :=
  ∃ e s ds, x = e :: (s ++ ds) ∧ (e = 'e' ∨ e = 'E') ∧ IsSignRun s ∧ ds ≠ [] ∧
    ∀ c ∈ ds, digit c = true

/-- A mantissa and what follows it in a number with digits of the class `digit`. -/
structure NumberParts (digit : Char → Bool) (m x : Text) : Prop where
  nonempty : m ≠ []
  mantissa : ∀ c ∈ m, digit c = true ∨ c = '.'
  exponent : x = [] ∨ IsExponent digit x

theorem IsSignRun.mem {s : Text} (hs : IsSignRun s) {c : Char} (hc : c ∈ s) :
    c = '+' ∨ c = '-' := by
  rcases hs with rfl | rfl | rfl
  · cases hc
  · exact .inl (List.mem_singleton.1 hc)
  · exact .inr (List.mem_singleton.1 hc)

theorem NumberParts.mem {digit : Char → Bool} {m x : Text} (h : NumberParts digit m x) {c : Char}
    (hc : c ∈ m ++ x) : digit c = true ∨ c ∈ ['.', 'e', 'E', '+', '-'] := by
  rcases List.mem_append.1 hc with hc | hc
  · exact (h.mantissa c hc).imp_right fun heq => by simp [heq]
  · rcases h.exponent with rfl | ⟨e, s, ds, rfl, he, hs, -, hds⟩
    · cases hc
    · rcases List.mem_cons.1 hc with rfl | hc
      · exact .inr (by rcases he with rfl | rfl <;> simp)
      · rcases List.mem_append.1 hc with hc | hc
        · exact .inr (by rcases hs.mem hc with rfl | rfl <;> simp)
        · exact .inl (hds c hc)

theorem getLast?_append_right {s t : Text} (h : t ≠ []) : (s ++ t).getLast? = t.getLast? := by
  rw [List.getLast?_append, List.getLast?_eq_some_getLast h, Option.some_or]

/-- A number ends in a digit or its point. -/
theorem NumberParts.getLast? {digit : Char → Bool} {m x : Text} (h : NumberParts digit m x)
    {c : Char} (hc : (m ++ x).getLast? = some c) : digit c = true ∨ c = '.' := by
  rcases h.exponent with rfl | ⟨e, s, ds, rfl, -, -, hne, hds⟩
  · rw [List.append_nil] at hc
    exact h.mantissa c (List.mem_of_getLast? hc)
  · rw [← List.cons_append, ← List.append_assoc, getLast?_append_right hne] at hc
    exact .inl (hds c (List.mem_of_getLast? hc))

theorem NumberParts.ne_nil {digit : Char → Bool} {m x : Text} (h : NumberParts digit m x) :
    m ++ x ≠ [] := by
  simp [h.nonempty]

theorem exponent?_inv {t : Text} {e : Int} (h : exponent? t = some e) :
    ∃ s ds, t = s ++ ds ∧ IsSignRun s ∧ ds ≠ [] ∧ ∀ c ∈ ds, isAsciiDigit c = true := by
  obtain ⟨s, ht, hs⟩ := signed_inv t
  refine ⟨s, (signed t).2, ht, hs, ?_⟩
  unfold exponent? at h
  dsimp only at h
  split at h
  · cases h
  · next hds => simpa using hds

theorem decimal?_tail_inv {rest : Text} {d₀ d : Decimal} {f : Int → Decimal}
    (h : (match rest with
      | [] => some d₀
      | c :: r => if c = 'e' ∨ c = 'E' then (exponent? r).map f else none) = some d) :
    rest = [] ∨ IsExponent isAsciiDigit rest := by
  split at h
  · exact .inl rfl
  · next c r =>
    split at h
    · next hc =>
      obtain ⟨e, he, -⟩ := Option.map_eq_some_iff.1 h
      obtain ⟨s, ds, rfl, hs, hds⟩ := exponent?_inv he
      exact .inr ⟨c, s, ds, rfl, hc, hs, hds⟩
    · cases h

theorem decimal?_inv {t : Text} {d : Decimal} (h : decimal? t = some d) :
    ∃ m x, t = m ++ x ∧ NumberParts isAsciiDigit m x := by
  have hsplit : t.takeWhile isAsciiDigit ++ t.dropWhile isAsciiDigit = t :=
    List.takeWhile_append_dropWhile
  unfold decimal? at h
  dsimp only at h
  split at h
  · next r hr =>
    have hplaces : r.takeWhile isAsciiDigit ++ r.dropWhile isAsciiDigit = r :=
      List.takeWhile_append_dropWhile
    split at h
    · cases h
    · refine ⟨t.takeWhile isAsciiDigit ++ '.' :: r.takeWhile isAsciiDigit,
        r.dropWhile isAsciiDigit, ?_, by simp, fun c hc => ?_, decimal?_tail_inv h⟩
      · rw [List.append_assoc, List.cons_append, hplaces, ← hr, hsplit]
      · rcases List.mem_append.1 hc with hc | hc
        · exact .inl (List.mem_takeWhile_imp hc)
        · rcases List.mem_cons.1 hc with rfl | hc
          · exact .inr rfl
          · exact .inl (List.mem_takeWhile_imp hc)
  · split at h
    · cases h
    · next hwhole =>
      exact ⟨t.takeWhile isAsciiDigit, t.dropWhile isAsciiDigit, hsplit.symm,
        fun hnil => hwhole ⟨hnil, rfl⟩, fun c hc => .inl (List.mem_takeWhile_imp hc),
        decimal?_tail_inv h⟩

/-- A numeral has an optional sign, then a decimal or a word. -/
theorem numeral?_inv {t : Text} {x : Float} (h : numeral? t = some x) :
    ∃ s u, t = s ++ u ∧ IsSignRun s ∧
      (u.map Char.toLower ∈ ["nan".toList, "inf".toList, "infinity".toList] ∨
        ∃ d, decimal? u = some d) := by
  obtain ⟨s, ht, hs⟩ := signed_inv t
  refine ⟨s, (signed t).2, ht, hs, ?_⟩
  have h : unsigned? (signed t).1 (signed t).2 = some x := h
  unfold unsigned? at h
  dsimp only at h
  split at h
  · next hword => exact .inl (by simp [hword])
  · split at h
    · next hword => exact .inl (by rcases hword with hword | hword <;> simp [hword])
    · obtain ⟨d, hd, -⟩ := Option.map_eq_some_iff.1 h
      exact .inr ⟨d, hd⟩

/-- A numeral does not end in the letter of an exponent. -/
theorem numeral?_eq_none_of_getLast? {t : Text} {e : Char} (hlast : t.getLast? = some e)
    (he : e = 'e' ∨ e = 'E') : numeral? t = none := by
  cases hn : numeral? t with
  | none => rfl
  | some x =>
    exfalso
    obtain ⟨s, u, rfl, hs, hword | ⟨d, hd⟩⟩ := numeral?_inv hn
    · have hne : u ≠ [] := by
        rintro rfl
        simp at hword
      rw [getLast?_append_right hne] at hlast
      have hlower : (u.map Char.toLower).getLast? = some 'e' := by
        rw [List.getLast?_map, hlast]
        rcases he with rfl | rfl <;> rfl
      simp only [List.mem_cons, List.not_mem_nil, or_false] at hword
      rcases hword with hword | hword | hword <;>
        exact absurd hlower (by rw [hword]; decide)
    · obtain ⟨m, y, rfl, hparts⟩ := decimal?_inv hd
      rw [getLast?_append_right hparts.ne_nil] at hlast
      rcases hparts.getLast? hlast with hdigit | hpoint
      · rcases he with rfl | rfl <;> exact absurd hdigit (by decide)
      · rcases he with rfl | rfl <;> exact absurd hpoint (by decide)

/-- A numeral consists of ASCII characters, so the mark U+0345 is in none. -/
theorem not_mem_of_numeral? {t : Text} {x : Float} (h : numeral? t = some x) : '\u0345' ∉ t := by
  intro hmem
  obtain ⟨s, u, rfl, hs, hword | ⟨d, hd⟩⟩ := numeral?_inv h
  · rcases List.mem_append.1 hmem with hmem | hmem
    · rcases hs.mem hmem with heq | heq <;> exact absurd heq (by decide)
    · have hlower : '\u0345' ∈ u.map Char.toLower := List.mem_map.2 ⟨_, hmem, by decide⟩
      simp only [List.mem_cons, List.not_mem_nil, or_false] at hword
      rcases hword with hword | hword | hword <;> exact absurd hlower (by rw [hword]; decide)
  · obtain ⟨m, y, rfl, hparts⟩ := decimal?_inv hd
    rcases List.mem_append.1 hmem with hmem | hmem
    · rcases hs.mem hmem with heq | heq <;> exact absurd heq (by decide)
    · rcases hparts.mem hmem with hdigit | hother
      · exact absurd hdigit (by decide)
      · exact absurd hother (by decide)

theorem not_mem_of_integer? {t : Text} {n : Int} (h : integer? t = some n) : '\u0345' ∉ t := by
  intro hmem
  rcases integer?_inv h with ⟨-, hdigits⟩ | ⟨u, rfl, hu⟩
  · exact absurd (hdigits _ hmem) (by decide)
  · simp only [List.mem_cons] at hmem
    rcases hmem with heq | heq | hmem
    · exact absurd heq (by decide)
    · exact absurd heq (by decide)
    · exact hu _ hmem (by decide)

/-! ## Numbers of the scan -/

theorem signRun_inv (t : Text) :
    IsSignRun (signRun t) ∧ signRun t ++ t.drop (signRun t).length = t := by
  unfold signRun
  split
  · exact ⟨.inr (.inl rfl), rfl⟩
  · exact ⟨.inr (.inr rfl), rfl⟩
  · exact ⟨.inl rfl, rfl⟩

theorem exponentRun_inv (t : Text) :
    exponentRun t <+: t ∧ (exponentRun t = [] ∨ IsExponent isDecimalDigit (exponentRun t)) := by
  cases t with
  | nil => exact ⟨List.nil_prefix, .inl rfl⟩
  | cons c t =>
    obtain ⟨hsign, hsplit⟩ := signRun_inv t
    unfold exponentRun
    dsimp only
    split
    · next hrun =>
      refine ⟨?_, .inr ⟨c, _, _, rfl, hrun.1, hsign, hrun.2, fun d hd => List.mem_takeWhile_imp hd⟩⟩
      rw [List.cons_append, List.cons_prefix_cons]
      refine ⟨rfl, ?_⟩
      conv => rhs; rw [← hsplit]
      exact (List.prefix_append_right_inj _).2 (List.takeWhile_prefix _)
    · exact ⟨List.nil_prefix, .inl rfl⟩

theorem mantissaRun_inv (t : Text) :
    mantissaRun t <+: t ∧ ∀ c ∈ mantissaRun t, isDecimalDigit c = true ∨ c = '.' := by
  have hwhole : t.takeWhile isDecimalDigit <+: t := List.takeWhile_prefix _
  unfold mantissaRun
  dsimp only
  split
  · next rest hrest =>
    split
    · exact ⟨List.nil_prefix, by simp⟩
    · refine ⟨?_, fun c hc => ?_⟩
      · conv => rhs; rw [← List.prefix_iff_eq_append.1 hwhole, hrest]
        rw [List.prefix_append_right_inj, List.cons_prefix_cons]
        exact ⟨rfl, List.takeWhile_prefix _⟩
      · rcases List.mem_append.1 hc with hc | hc
        · exact .inl (List.mem_takeWhile_imp hc)
        · rcases List.mem_cons.1 hc with rfl | hc
          · exact .inr rfl
          · exact .inl (List.mem_takeWhile_imp hc)
  · exact ⟨hwhole, fun c hc => .inl (List.mem_takeWhile_imp hc)⟩

/-- A number of the scan stands at the start of the text, and has the parts of a number. -/
theorem numberRun_inv {t : Text} (h : numberRun t ≠ []) :
    numberRun t <+: t ∧ ∃ m x, numberRun t = m ++ x ∧ NumberParts isDecimalDigit m x := by
  obtain ⟨hmantissa, hchars⟩ := mantissaRun_inv t
  unfold numberRun at h ⊢
  dsimp only at h ⊢
  split at h
  · exact absurd rfl h
  · next hne =>
    rw [if_neg hne]
    obtain ⟨hexponent, hparts⟩ := exponentRun_inv (t.drop (mantissaRun t).length)
    refine ⟨?_, _, _, rfl, hne, hchars, hparts⟩
    conv => rhs; rw [← List.prefix_iff_eq_append.1 hmantissa]
    exact (List.prefix_append_right_inj _).2 hexponent

/-- A text whose first character is a decimal digit starts with a number. -/
theorem numberRun_ne_nil {c : Char} {t : Text} (hc : isDecimalDigit c = true) :
    numberRun (c :: t) ≠ [] := by
  have hmantissa : mantissaRun (c :: t) ≠ [] := by
    unfold mantissaRun
    dsimp only
    split
    · simp [hc]
    · simp [hc]
  unfold numberRun
  simp [hmantissa]

/-! ## The first lexeme -/

theorem quotedRun?_prefix {t run : Text} (h : quotedRun? t = some run) : run <+: t := by
  fun_induction quotedRun? t generalizing run with
  | case1 => cases h
  | case2 => cases h
  | case3 t =>
    cases h
    simp
  | case4 => cases h
  | case5 c t _ ih =>
    obtain ⟨run, hrun, rfl⟩ := Option.map_eq_some_iff.1 h
    simpa using ih hrun
  | case6 c t _ _ _ ih =>
    obtain ⟨run, hrun, rfl⟩ := Option.map_eq_some_iff.1 h
    simpa using ih hrun

/-- What is known of the first lexeme of a text and of the text behind it. -/
inductive Shape : Lexeme → Text → Prop
  | quoted {run rest : Text} : quotedRun? (run ++ rest) = some run →
      Shape (.quoted ('"' :: run)) rest
  | name {c : Char} {run rest : Text} : startsName c = true → (∀ d ∈ run, continuesName d = true) →
      (∀ d, rest.head? = some d → continuesName d = false) → Shape (.name (c :: run)) rest
  | number {m x rest : Text} : NumberParts isDecimalDigit m x → Shape (.number (m ++ x)) rest
  | other {c : Char} {rest : Text} : startsName c = false → isDecimalDigit c = false →
      (c = '"' → quotedRun? rest = none) → Shape (.other c) rest

theorem firstLexeme_cases (c : Char) (t : Text) :
    (∃ run, c = '"' ∧ quotedRun? t = some run ∧ firstLexeme c t = .quoted ('"' :: run)) ∨
    (startsName c = true ∧ firstLexeme c t = .name (c :: t.takeWhile continuesName)) ∨
    (numberRun (c :: t) ≠ [] ∧ firstLexeme c t = .number (numberRun (c :: t))) ∨
    (startsName c = false ∧ isDecimalDigit c = false ∧ (c = '"' → quotedRun? t = none) ∧
      firstLexeme c t = .other c) := by
  unfold firstLexeme
  split
  · next run hrun =>
    split at hrun
    · next hc =>
      subst hc
      exact .inl ⟨run, rfl, hrun, rfl⟩
    · cases hrun
  · next hnone =>
    have hquote : c = '"' → quotedRun? t = none := fun hc => by rwa [if_pos hc] at hnone
    dsimp only [nameRun]
    by_cases hstart : startsName c = true
    · exact .inr (.inl ⟨hstart, by simp [hstart]⟩)
    · by_cases hnumber : numberRun (c :: t) = []
      · have hdigit : isDecimalDigit c = false :=
          Bool.eq_false_iff.2 fun hdigit => numberRun_ne_nil hdigit hnumber
        exact .inr (.inr (.inr ⟨Bool.eq_false_iff.2 hstart, hdigit, hquote,
          by simp [hstart, hnumber]⟩))
      · exact .inr (.inr (.inl ⟨hnumber, by simp [hstart, hnumber]⟩))

/-- A character that starts no quoted text, no name and no number is a lexeme of its own. -/
theorem firstLexeme_other {c : Char} (hstart : startsName c = false)
    (hdigit : isDecimalDigit c = false) (hmark : c ≠ '"' ∧ c ≠ '.') (t : Text) :
    firstLexeme c t = .other c := by
  have hmantissa : mantissaRun (c :: t) = [] := by
    have hwhole : (c :: t).takeWhile isDecimalDigit = [] := by simp [hdigit]
    unfold mantissaRun
    rw [hwhole]
    dsimp only [List.length_nil, List.drop_zero]
    split
    · next heq =>
      cases heq
      exact absurd rfl hmark.2
    · rfl
  have hnumber : numberRun (c :: t) = [] := by simp [numberRun, hmantissa]
  simp [firstLexeme, nameRun, hmark.1, hstart, hnumber]

/-- The first lexeme stands at the start of the text, and has its shape there. -/
theorem shape_firstLexeme (c : Char) (t : Text) :
    let rest := t.drop ((firstLexeme c t).text.length - 1)
    c :: t = (firstLexeme c t).text ++ rest ∧ Shape (firstLexeme c t) rest := by
  intro rest
  rcases firstLexeme_cases c t with ⟨run, rfl, hrun, heq⟩ | ⟨hstart, heq⟩ | ⟨hnumber, heq⟩ |
    ⟨hstart, hdigit, hquote, heq⟩
  · have hfront := quotedRun?_prefix hrun
    have hrest : rest = t.drop run.length := by
      simp only [rest, heq, Lexeme.text, List.length_cons, Nat.add_sub_cancel]
    rw [hrest, heq]
    have hsplit : run ++ t.drop run.length = t := List.prefix_iff_eq_append.1 hfront
    exact ⟨by simp [Lexeme.text, hsplit], .quoted (by rw [hsplit, hrun])⟩
  · have hfront : t.takeWhile continuesName <+: t := List.takeWhile_prefix _
    have hrest : rest = t.drop (t.takeWhile continuesName).length := by
      simp only [rest, heq, Lexeme.text, List.length_cons, Nat.add_sub_cancel]
    rw [hrest, heq]
    have hsplit : t.takeWhile continuesName ++ t.drop (t.takeWhile continuesName).length = t :=
      List.prefix_iff_eq_append.1 hfront
    refine ⟨by simp [Lexeme.text, hsplit], .name hstart (fun d hd => List.mem_takeWhile_imp hd) ?_⟩
    intro d hd
    have hdrop : t.drop (t.takeWhile continuesName).length = t.dropWhile continuesName := by
      refine List.append_cancel_left (hsplit.trans ?_)
      exact List.takeWhile_append_dropWhile.symm
    rw [hdrop] at hd
    have hnot := List.head?_dropWhile_not continuesName t
    rw [hd] at hnot
    simpa using hnot
  · obtain ⟨hfront, m, x, hrun, hparts⟩ := numberRun_inv hnumber
    have hsplit := List.prefix_iff_eq_append.1 hfront
    have hrest : rest = (c :: t).drop (numberRun (c :: t)).length := by
      cases hn : numberRun (c :: t) with
      | nil => exact absurd hn hnumber
      | cons d run => simp [rest, heq, Lexeme.text, hn]
    rw [hrest, heq]
    refine ⟨hsplit.symm, ?_⟩
    rw [hrun]
    exact .number hparts
  · have hrest : rest = t := by simp [rest, heq, Lexeme.text]
    rw [hrest, heq]
    exact ⟨rfl, .other hstart hdigit hquote⟩

end Reckoner.Formula
