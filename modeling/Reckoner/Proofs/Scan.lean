import Reckoner.Proofs.Alignment
import Reckoner.Proofs.Decimals

/-!
# The grammar of the scan

`Scans` says what the lexemes of a text are without scanning it.  Quoted texts, names and numbers
are given by their grammars.  A lexeme is the longest text of its grammar that starts at its place
(`Longest`), and a character is a lexeme of its own where no text of a grammar starts.  No order
of preference is needed, since the first character tells which grammar it may be.

The runs that the scan takes are these longest texts (`Munches`), so a text has one list of
lexemes (`scans_iff`).  For a number it takes the longest mantissa and then looks for an exponent:
behind a shorter mantissa stands a digit or the point, and no exponent starts there.

What stands behind a number decides whether it could be longer (`longest_number_iff`).  With that
the scan of a text can be compared with the scan of another one.
-/

namespace Reckoner.Formula

open Text (isDecimalDigit isAsciiDigit)

/-! ## Grammars -/

/-- What stands behind an opening quote mark, through the closing one. -/
inductive IsQuotedRun : Text → Prop
  | close : IsQuotedRun ['"']
  | plain {c : Char} {run : Text} : c ≠ '"' → c ≠ '\\' → IsQuotedRun run → IsQuotedRun (c :: run)
  | escaped {c : Char} {run : Text} : c ≠ '\n' → IsQuotedRun run → IsQuotedRun ('\\' :: c :: run)

/-- A quote mark and what stands behind it, through the closing one. -/
def IsQuoted (q : Text) : Prop := ∃ run, q = '"' :: run ∧ IsQuotedRun run

/-- Digits with an optional point and digits, or a point and digits. -/
inductive IsMantissa : Text → Prop
  | whole {ds : Text} : ds ≠ [] → (∀ c ∈ ds, isDecimalDigit c = true) → IsMantissa ds
  | point {ws ps : Text} : ws ≠ [] ∨ ps ≠ [] → (∀ c ∈ ws, isDecimalDigit c = true) →
      (∀ c ∈ ps, isDecimalDigit c = true) → IsMantissa (ws ++ '.' :: ps)

/-- A mantissa with an optional exponent. -/
def IsNumber (n : Text) : Prop :=
  ∃ m x, n = m ++ x ∧ IsMantissa m ∧ (x = [] ∨ IsExponent isDecimalDigit x)

/-! ## Longest texts -/

/-- The text `x` is of the class `p`, and no longer one of the class starts at its place in front
of `rest`. -/
def Longest (p : Text → Prop) (x rest : Text) : Prop :=
  p x ∧ ∀ y, p y → y <+: x ++ rest → y <+: x

/-- What is of the class and goes on with a longest text adds nothing to it. -/
theorem Longest.eq_nil {p : Text → Prop} {x rest z : Text} (h : Longest p x rest)
    (hz : p (x ++ z)) (hrest : z <+: rest) : z = [] := by
  have hle := (h.2 _ hz ((List.prefix_append_right_inj x).2 hrest)).length_le
  rw [List.length_append] at hle
  exact List.length_eq_zero_iff.1 (by omega)

/-- `run` finds the longest text of the class `p` at the start of a text, and nothing where none
starts. -/
structure Munches (p : Text → Prop) (run : Text → Text) : Prop where
  not_nil : ¬ p []
  sound : ∀ t, run t ≠ [] → p (run t)
  front : ∀ t, run t <+: t
  longest : ∀ y t, p y → y <+: t → y <+: run t

namespace Munches

variable {p : Text → Prop} {run : Text → Text} (h : Munches p run)

include h

theorem longest_iff {x rest : Text} : Longest p x rest ↔ x ≠ [] ∧ run (x ++ rest) = x := by
  constructor
  · intro hx
    have hne : x ≠ [] := fun hnil => h.not_nil (hnil ▸ hx.1)
    have hfront : x <+: run (x ++ rest) := h.longest _ _ hx.1 (List.prefix_append x rest)
    have hrun : run (x ++ rest) ≠ [] := fun hnil => hne (List.prefix_nil.1 (hnil ▸ hfront))
    exact ⟨hne, (hx.2 _ (h.sound _ hrun) (h.front _)).eq_of_length_le hfront.length_le⟩
  · rintro ⟨hne, hrun⟩
    refine ⟨hrun ▸ h.sound (x ++ rest) (by rwa [hrun]), fun y hy hfront => ?_⟩
    have hle := h.longest _ _ hy hfront
    rwa [hrun] at hle

theorem eq_nil_iff {t : Text} : run t = [] ↔ ∀ y, y <+: t → ¬ p y := by
  constructor
  · intro hnil y hfront hy
    have hle := h.longest _ _ hy hfront
    rw [hnil, List.prefix_nil] at hle
    exact h.not_nil (hle ▸ hy)
  · intro hnone
    by_contra hne
    exact hnone _ (h.front t) (h.sound t hne)

end Munches

/-! ## Quoted texts -/

theorem quotedRun?_append {run : Text} (h : IsQuotedRun run) (rest : Text) :
    quotedRun? (run ++ rest) = some run := by
  induction h with
  | close => simp [quotedRun?]
  | plain hquote hescape _ ih =>
    rw [List.cons_append, quotedRun?_cons hquote hescape, ih]
    rfl
  | escaped hline _ ih => simp [quotedRun?, hline, ih]

theorem isQuotedRun_of_quotedRun? {t run : Text} (h : quotedRun? t = some run) :
    IsQuotedRun run := by
  fun_induction quotedRun? t generalizing run with
  | case1 => cases h
  | case2 => cases h
  | case3 t =>
    cases h
    exact .close
  | case4 => cases h
  | case5 c t hline ih =>
    obtain ⟨run, hrun, rfl⟩ := Option.map_eq_some_iff.1 h
    exact .escaped hline (ih hrun)
  | case6 c t hlast hquote hescape ih =>
    obtain ⟨run, hrun, rfl⟩ := Option.map_eq_some_iff.1 h
    refine .plain hquote (fun hc => ?_) (ih hrun)
    cases t with
    | nil => exact hlast hc rfl
    | cons d t => exact hescape d t hc rfl

/-- A quoted text ends at the first quote mark that is not escaped, whatever stands behind it. -/
theorem longest_quoted {q : Text} (h : IsQuoted q) (rest : Text) : Longest IsQuoted q rest := by
  refine ⟨h, fun y hy hfront => ?_⟩
  obtain ⟨run, rfl, hrun⟩ := h
  obtain ⟨run', rfl, hrun'⟩ := hy
  obtain ⟨z, hz⟩ := hfront
  obtain ⟨-, hz⟩ : '"' = '"' ∧ run' ++ z = run ++ rest := List.cons.inj hz
  have hfound : some run' = some run := by
    rw [← quotedRun?_append hrun' z, hz, quotedRun?_append hrun]
  obtain rfl : run' = run := Option.some.inj hfound
  exact List.prefix_rfl

theorem exists_isQuoted_iff {c : Char} {t : Text} :
    (∃ y, y <+: c :: t ∧ IsQuoted y) ↔ c = '"' ∧ quotedRun? t ≠ none := by
  constructor
  · rintro ⟨y, hfront, run, rfl, hrun⟩
    obtain ⟨rfl, z, rfl⟩ := List.cons_prefix_cons.1 hfront
    rw [quotedRun?_append hrun]
    exact ⟨rfl, Option.some_ne_none run⟩
  · rintro ⟨rfl, hne⟩
    obtain ⟨run, hrun⟩ := Option.ne_none_iff_exists'.1 hne
    exact ⟨'"' :: run, List.cons_prefix_cons.2 ⟨rfl, quotedRun?_prefix hrun⟩, run, rfl,
      isQuotedRun_of_quotedRun? hrun⟩

/-! ## Names -/

theorem prefix_takeWhile {p : Char → Bool} {x t : Text} (hx : ∀ c ∈ x, p c = true)
    (hfront : x <+: t) : x <+: t.takeWhile p := by
  obtain ⟨z, rfl⟩ := hfront
  rw [List.takeWhile_append_of_pos hx]
  exact List.prefix_append x _

theorem munches_nameRun : Munches IsName nameRun where
  not_nil := id
  sound := by
    intro t hne
    cases t with
    | nil => exact absurd rfl hne
    | cons c t =>
      rw [nameRun] at hne ⊢
      split at hne
      · next hstart =>
        rw [if_pos hstart]
        exact ⟨hstart, fun d hd => List.mem_takeWhile_imp hd⟩
      · exact absurd rfl hne
  front := by
    intro t
    cases t with
    | nil => exact List.nil_prefix
    | cons c t =>
      rw [nameRun]
      split
      · exact List.cons_prefix_cons.2 ⟨rfl, List.takeWhile_prefix _⟩
      · exact List.nil_prefix
  longest := by
    intro y t hy hfront
    cases y with
    | nil => exact List.nil_prefix
    | cons c y =>
      obtain ⟨z, rfl⟩ := hfront
      rw [List.cons_append, nameRun, if_pos hy.1]
      exact List.cons_prefix_cons.2 ⟨rfl, prefix_takeWhile hy.2 (List.prefix_append y z)⟩

theorem nameRun_eq_nil_iff {c : Char} {t : Text} :
    nameRun (c :: t) = [] ↔ startsName c = false := by
  rw [nameRun]
  split
  · next hstart => simp [hstart]
  · next hstart => simp [hstart]

/-- A name is a longest one if no character behind it goes on with it. -/
theorem longest_name_iff {n rest : Text} :
    Longest IsName n rest ↔
      IsName n ∧ ∀ c, rest.head? = some c → continuesName c = false := by
  cases n with
  | nil => exact ⟨fun h => h.1.elim, fun h => h.1.elim⟩
  | cons c n =>
    constructor
    · intro h
      refine ⟨h.1, fun d hd => Bool.eq_false_iff.2 fun hcontinues => ?_⟩
      obtain ⟨rest, rfl⟩ := List.head?_eq_some_iff.1 hd
      have hlonger : IsName (c :: n ++ [d]) := ⟨h.1.1, fun e he =>
        (List.mem_append.1 he).elim (h.1.2 e) fun he => List.mem_singleton.1 he ▸ hcontinues⟩
      exact absurd (h.eq_nil hlonger (List.prefix_append [d] rest)) (List.cons_ne_nil d [])
    · rintro ⟨hname, hrest⟩
      obtain ⟨hrun, -⟩ := Number.run_append hname.2 hrest
      refine munches_nameRun.longest_iff.2 ⟨List.cons_ne_nil c n, ?_⟩
      rw [List.cons_append, nameRun, if_pos hname.1, hrun]

/-! ## Mantissas -/

theorem IsMantissa.ne_nil {m : Text} (h : IsMantissa m) : m ≠ [] := by
  cases h with
  | whole hne _ => exact hne
  | point _ _ _ => simp

theorem IsMantissa.mem {m : Text} (h : IsMantissa m) {c : Char} (hc : c ∈ m) :
    isDecimalDigit c = true ∨ c = '.' := by
  cases h with
  | whole _ hds => exact .inl (hds c hc)
  | point _ hws hps =>
    rcases List.mem_append.1 hc with hc | hc
    · exact .inl (hws c hc)
    · rcases List.mem_cons.1 hc with rfl | hc
      · exact .inr rfl
      · exact .inl (hps c hc)

/-- The run of a mantissa with a point takes all digits behind the point. -/
theorem mantissaRun_point {ws : Text} (hws : ∀ c ∈ ws, isDecimalDigit c = true) (t : Text) :
    mantissaRun (ws ++ '.' :: t) =
      if ws = [] ∧ t.takeWhile isDecimalDigit = [] then []
      else ws ++ '.' :: t.takeWhile isDecimalDigit := by
  obtain ⟨htake, -⟩ := Number.run_append hws (t := '.' :: t) fun c hc => by cases hc; decide
  simp only [mantissaRun, htake, List.drop_left]

theorem isMantissa_mantissaRun {t : Text} (h : mantissaRun t ≠ []) :
    IsMantissa (mantissaRun t) := by
  unfold mantissaRun at h ⊢
  dsimp only at h ⊢
  split
  · next rest hrest =>
    simp only [hrest] at h
    split
    · next hnil => exact absurd (if_pos hnil) h
    · next hne =>
      refine .point (not_and_or.1 hne) ?_ ?_ <;> exact fun c hc => List.mem_takeWhile_imp hc
  · next hpoint =>
    split at h
    · next heq => exact absurd heq (hpoint _)
    · exact .whole h fun c hc => List.mem_takeWhile_imp hc

/-- The run of a mantissa is as long as any mantissa at its place. -/
theorem IsMantissa.prefix_mantissaRun {m t : Text} (h : IsMantissa m) (hfront : m <+: t) :
    m <+: mantissaRun t := by
  cases h with
  | whole hne hds =>
    have hwhole : m <+: t.takeWhile isDecimalDigit := prefix_takeWhile hds hfront
    have hfirst : t.takeWhile isDecimalDigit ≠ [] := fun hnil =>
      hne (List.prefix_nil.1 (hnil ▸ hwhole))
    refine hwhole.trans ?_
    unfold mantissaRun
    dsimp only
    split
    · rw [if_neg fun hnil => hfirst hnil.1]
      exact List.prefix_append _ _
    · exact List.prefix_rfl
  | @point ws ps hne hws hps =>
    obtain ⟨z, rfl⟩ := hfront
    have hplaces : ps <+: (ps ++ z).takeWhile isDecimalDigit :=
      prefix_takeWhile hps (List.prefix_append ps z)
    rw [List.append_assoc, List.cons_append, mantissaRun_point hws, if_neg]
    · exact (List.prefix_append_right_inj ws).2 (List.cons_prefix_cons.2 ⟨rfl, hplaces⟩)
    · rintro ⟨hws, hnil⟩
      rw [hnil] at hplaces
      exact hne.elim (· hws) (· (List.prefix_nil.1 hplaces))

/-- A mantissa is its own run if the text behind it starts with no digit, and with no point
where the mantissa has none. -/
theorem IsMantissa.mantissaRun_append {m rest : Text} (h : IsMantissa m)
    (hdigit : ∀ c, rest.head? = some c → isDecimalDigit c = false)
    (hpoint : (∀ c ∈ m, isDecimalDigit c = true) → rest.head? ≠ some '.') :
    mantissaRun (m ++ rest) = m := by
  cases h with
  | whole hne hds =>
    obtain ⟨htake, -⟩ := Number.run_append hds hdigit
    simp only [mantissaRun, htake, List.drop_left]
    split
    · exact absurd rfl (hpoint hds)
    · rfl
  | @point ws ps hne hws hps =>
    obtain ⟨htake, -⟩ := Number.run_append hps hdigit
    rw [List.append_assoc, List.cons_append, mantissaRun_point hws, htake,
      if_neg (not_and_or.2 hne)]

/-! ## Exponents -/

/-- The run of an exponent takes the digits behind it too. -/
theorem IsExponent.exponentRun_append {x : Text} (h : IsExponent isDecimalDigit x) (rest : Text) :
    exponentRun (x ++ rest) = x ++ rest.takeWhile isDecimalDigit := by
  obtain ⟨e, s, ds, rfl, he, hs, hne, hds⟩ := h
  have hsign : signRun (s ++ ds ++ rest) = s := by
    rcases hs with rfl | rfl | rfl
    · obtain ⟨d, ds, rfl⟩ := List.exists_cons_of_ne_nil hne
      have hd := hds d List.mem_cons_self
      rw [List.nil_append, List.cons_append]
      unfold signRun
      split
      · next heq => cases heq; exact absurd hd (by decide)
      · next heq => cases heq; exact absurd hd (by decide)
      · rfl
    · rfl
    · rfl
  rw [List.cons_append, exponentRun, hsign, List.append_assoc, List.drop_left,
    List.takeWhile_append_of_pos hds, if_pos ⟨he, by simp [hne]⟩]
  simp

theorem IsExponent.head? {digit : Char → Bool} {x : Text} (h : IsExponent digit x)
    (rest : Text) : ∃ e, (x ++ rest).head? = some e ∧ (e = 'e' ∨ e = 'E') := by
  obtain ⟨e, s, ds, rfl, he, -⟩ := h
  exact ⟨e, rfl, he⟩

/-! ## Numbers -/

theorem IsMantissa.isNumber {m : Text} (h : IsMantissa m) : IsNumber m :=
  ⟨m, [], (List.append_nil m).symm, h, .inl rfl⟩

/-- In front of an exponent the run of a mantissa is the mantissa. -/
theorem IsMantissa.mantissaRun_exponent {m x : Text} (h : IsMantissa m)
    (hx : IsExponent isDecimalDigit x) (rest : Text) : mantissaRun (m ++ (x ++ rest)) = m := by
  obtain ⟨e, hhead, he⟩ := hx.head? rest
  refine h.mantissaRun_append (fun c hc => ?_) fun _ hpoint => ?_
  · rw [hhead] at hc
    cases hc
    rcases he with rfl | rfl <;> decide
  · rw [hhead] at hpoint
    cases hpoint
    exact absurd he (by decide)

/-- A number starts with a digit, or with its point and a digit. -/
theorem IsNumber.start {n : Text} (h : IsNumber n) :
    ∃ d r, isDecimalDigit d = true ∧ (n = d :: r ∨ n = '.' :: d :: r) := by
  obtain ⟨m, x, rfl, hm, -⟩ := h
  cases hm with
  | whole hne hds =>
    obtain ⟨d, ds, rfl⟩ := List.exists_cons_of_ne_nil hne
    exact ⟨d, ds ++ x, hds d List.mem_cons_self, .inl rfl⟩
  | @point ws ps hne hws hps =>
    cases ws with
    | cons d ws => exact ⟨d, ws ++ '.' :: ps ++ x, hws d List.mem_cons_self, .inl rfl⟩
    | nil =>
      obtain ⟨d, ps, rfl⟩ := List.exists_cons_of_ne_nil (hne.resolve_left (absurd rfl))
      exact ⟨d, ps ++ x, hps d List.mem_cons_self, .inr rfl⟩

theorem IsNumber.ne_nil {n : Text} (h : IsNumber n) : n ≠ [] := by
  obtain ⟨d, r, -, rfl | rfl⟩ := h.start <;> exact List.cons_ne_nil _ _

theorem munches_numberRun : Munches IsNumber numberRun where
  not_nil := fun h => h.ne_nil rfl
  sound := by
    intro t hne
    unfold numberRun at hne ⊢
    dsimp only at hne ⊢
    split at hne
    · exact absurd rfl hne
    · next hm =>
      rw [if_neg hm]
      exact ⟨_, _, rfl, isMantissa_mantissaRun hm, (exponentRun_inv _).2⟩
  front := by
    intro t
    by_cases hnil : numberRun t = []
    · rw [hnil]
      exact List.nil_prefix
    · exact (numberRun_inv hnil).1
  longest := by
    rintro y t ⟨m, x, rfl, hm, hx⟩ ⟨z, rfl⟩
    have hfront : m <+: mantissaRun (m ++ x ++ z) :=
      hm.prefix_mantissaRun (by rw [List.append_assoc]; exact List.prefix_append _ _)
    have hne : mantissaRun (m ++ x ++ z) ≠ [] := fun hnil =>
      hm.ne_nil (List.prefix_nil.1 (hnil ▸ hfront))
    unfold numberRun
    dsimp only
    rw [if_neg hne]
    rcases hx with rfl | hx
    · rw [List.append_nil] at hfront ⊢
      exact hfront.trans (List.prefix_append _ _)
    · rw [List.append_assoc, hm.mantissaRun_exponent hx, List.drop_left, hx.exponentRun_append,
        ← List.append_assoc]
      exact List.prefix_append _ _

theorem numberRun_eq_nil_iff {c : Char} {t : Text} :
    numberRun (c :: t) = [] ↔ isDecimalDigit c = false ∧
      (c = '.' → ∀ d, t.head? = some d → isDecimalDigit d = false) := by
  rw [munches_numberRun.eq_nil_iff]
  constructor
  · intro hnone
    refine ⟨Bool.eq_false_iff.2 fun hc => ?_, ?_⟩
    · have hnumber : IsNumber [c] := (IsMantissa.whole (List.cons_ne_nil c []) (by simpa)).isNumber
      exact hnone _ (List.prefix_append [c] t) hnumber
    · rintro rfl d hd
      refine Bool.eq_false_iff.2 fun hdigit => ?_
      obtain ⟨t, rfl⟩ := List.head?_eq_some_iff.1 hd
      have hnumber : IsNumber ([] ++ '.' :: [d]) :=
        (IsMantissa.point (.inr (List.cons_ne_nil d [])) (by simp) (by simpa)).isNumber
      exact hnone _ (List.prefix_append ['.', d] t) hnumber
  · rintro ⟨hc, hpoint⟩ y hfront hy
    obtain ⟨d, r, hd, rfl | rfl⟩ := hy.start
    · obtain ⟨rfl, -⟩ := List.cons_prefix_cons.1 hfront
      rw [hd] at hc
      cases hc
    · obtain ⟨rfl, z, rfl⟩ := List.cons_prefix_cons.1 hfront
      have hdigit := hpoint rfl d rfl
      rw [hd] at hdigit
      cases hdigit

/-- Nothing at the start of `rest` goes on with the number `n`. -/
structure Ends (n rest : Text) : Prop where
  digit : ∀ c, rest.head? = some c → isDecimalDigit c = false
  point : (∀ c ∈ n, isDecimalDigit c = true) → rest.head? ≠ some '.'
  exponent : IsMantissa n → exponentRun rest = []

theorem IsNumber.append_digit {n : Text} (h : IsNumber n) {d : Char}
    (hd : isDecimalDigit d = true) : IsNumber (n ++ [d]) := by
  have hall {ds : Text} (hds : ∀ c ∈ ds, isDecimalDigit c = true) :
      ∀ c ∈ ds ++ [d], isDecimalDigit c = true := fun c hc =>
    (List.mem_append.1 hc).elim (hds c) fun hc => List.mem_singleton.1 hc ▸ hd
  obtain ⟨m, x, rfl, hm, rfl | ⟨e, s, ds, rfl, he, hs, -, hds⟩⟩ := h
  · rw [List.append_nil]
    cases hm with
    | whole _ hds => exact (IsMantissa.whole (by simp) (hall hds)).isNumber
    | @point ws ps _ hws hps =>
      rw [List.append_assoc, List.cons_append]
      exact (IsMantissa.point (.inr (by simp)) hws (hall hps)).isNumber
  · exact ⟨m, e :: (s ++ (ds ++ [d])), by simp, hm, .inr ⟨e, s, _, rfl, he, hs, by simp, hall hds⟩⟩

/-- What stands behind a number decides whether it is a longest one. -/
theorem longest_number_iff {n rest : Text} :
    Longest IsNumber n rest ↔ IsNumber n ∧ Ends n rest := by
  constructor
  · refine fun h => ⟨h.1, fun c hc => Bool.eq_false_iff.2 fun hdigit => ?_, fun hdigits hc => ?_,
      fun hm => ?_⟩
    · obtain ⟨rest, rfl⟩ := List.head?_eq_some_iff.1 hc
      have hnil := h.eq_nil (h.1.append_digit hdigit) (List.prefix_append [c] rest)
      exact List.cons_ne_nil c [] hnil
    · obtain ⟨rest, rfl⟩ := List.head?_eq_some_iff.1 hc
      have hlonger : IsNumber (n ++ ['.']) :=
        (IsMantissa.point (.inl h.1.ne_nil) hdigits (by simp)).isNumber
      exact List.cons_ne_nil '.' [] (h.eq_nil hlonger (List.prefix_append ['.'] rest))
    · obtain ⟨hfront, hnil | hx⟩ := exponentRun_inv rest
      · exact hnil
      · exact h.eq_nil ⟨n, _, rfl, hm, .inr hx⟩ hfront
  · rintro ⟨hn, hrest⟩
    refine munches_numberRun.longest_iff.2 ⟨hn.ne_nil, ?_⟩
    obtain ⟨m, x, rfl, hm, rfl | hx⟩ := hn
    · rw [List.append_nil] at hrest ⊢
      have hrun := hm.mantissaRun_append hrest.digit hrest.point
      simp only [numberRun, hrun, List.drop_left, hrest.exponent hm, List.append_nil,
        if_neg hm.ne_nil]
    · obtain ⟨hnone, -⟩ := Number.run_append (x := []) (by simp) hrest.digit
      have hrun := hm.mantissaRun_exponent hx rest
      rw [List.nil_append] at hnone
      rw [List.append_assoc]
      simp only [numberRun, hrun, List.drop_left, hx.exponentRun_append, hnone, List.append_nil,
        if_neg hm.ne_nil]

/-! ## The lexemes of a text -/

/-- The lexeme stands at the start of its text and `rest`. -/
inductive Leads : Lexeme → Text → Prop
  | quoted {q rest : Text} : Longest IsQuoted q rest → Leads (.quoted q) rest
  | name {n rest : Text} : Longest IsName n rest → Leads (.name n) rest
  | number {n rest : Text} : Longest IsNumber n rest → Leads (.number n) rest
  | other {c : Char} {rest : Text} :
      (∀ y, y <+: c :: rest → ¬ IsQuoted y ∧ ¬ IsName y ∧ ¬ IsNumber y) → Leads (.other c) rest

/-- The lexemes of a text, one behind the other. -/
inductive Scans : Text → List Lexeme → Prop
  | nil : Scans [] []
  | cons {l : Lexeme} {rest : Text} {ls : List Lexeme} : Leads l rest → Scans rest ls →
      Scans (l.text ++ rest) (l :: ls)

theorem Leads.exists_cons {l : Lexeme} {rest : Text} (h : Leads l rest) :
    ∃ c t, l.text ++ rest = c :: t := by
  cases h with
  | quoted h =>
    obtain ⟨run, rfl, -⟩ := h.1
    exact ⟨'"', run ++ rest, rfl⟩
  | @name n _ h =>
    cases n with
    | nil => exact h.1.elim
    | cons c n => exact ⟨c, n ++ rest, rfl⟩
  | @number n _ h =>
    obtain ⟨c, n, rfl⟩ := List.exists_cons_of_ne_nil h.1.ne_nil
    exact ⟨c, n ++ rest, rfl⟩
  | @other c _ _ => exact ⟨c, rest, rfl⟩

/-- A number starts with no character of a name and no quote mark. -/
theorem IsNumber.startsName_eq_false {c : Char} {n : Text} (h : IsNumber (c :: n)) :
    startsName c = false ∧ c ≠ '"' := by
  obtain ⟨d, r, hd, heq | heq⟩ := h.start
  · cases heq
    exact ⟨startsName_eq_false_of_isDecimalDigit hd, (plain_of_isDecimalDigit hd).2.2⟩
  · cases heq
    exact ⟨by decide, by decide⟩

/-- A character is a lexeme of its own where no run starts. -/
theorem leads_other_iff {c : Char} {rest : Text} :
    Leads (.other c) rest ↔ (c = '"' → quotedRun? rest = none) ∧ nameRun (c :: rest) = [] ∧
      numberRun (c :: rest) = [] := by
  constructor
  · intro h
    cases h with
    | other h =>
      refine ⟨fun hc => ?_, munches_nameRun.eq_nil_iff.2 fun y hy => (h y hy).2.1,
        munches_numberRun.eq_nil_iff.2 fun y hy => (h y hy).2.2⟩
      by_contra hne
      obtain ⟨y, hy, hquoted⟩ := exists_isQuoted_iff.2 ⟨hc, hne⟩
      exact (h y hy).1 hquoted
  · rintro ⟨hquote, hname, hnumber⟩
    refine .other fun y hy => ⟨fun hquoted => ?_, munches_nameRun.eq_nil_iff.1 hname y hy,
      munches_numberRun.eq_nil_iff.1 hnumber y hy⟩
    obtain ⟨hc, hne⟩ := exists_isQuoted_iff.1 ⟨y, hy, hquoted⟩
    exact hne (hquote hc)

theorem numberRun_of_other {c : Char} {t : Text} (h : firstLexeme c t = .other c) :
    numberRun (c :: t) = [] := by
  by_contra hne
  unfold firstLexeme at h
  dsimp only at h
  rw [if_pos hne] at h
  split at h
  · cases h
  · split at h <;> cases h

/-- The first lexeme of a text is the one that stands there. -/
theorem Leads.firstLexeme_eq {l : Lexeme} {rest : Text} (h : Leads l rest) {c : Char} {t : Text}
    (heq : l.text ++ rest = c :: t) : firstLexeme c t = l := by
  cases h with
  | quoted h =>
    obtain ⟨run, rfl, hrun⟩ := h.1
    obtain ⟨rfl, rfl⟩ : '"' = c ∧ run ++ rest = t := List.cons.inj heq
    simp [firstLexeme, quotedRun?_append hrun]
  | @name n _ h =>
    obtain ⟨hne, hrun⟩ := munches_nameRun.longest_iff.1 h
    have hstart : startsName c = true := by
      cases n with
      | nil => exact absurd rfl hne
      | cons d n =>
        obtain ⟨rfl, -⟩ : d = c ∧ n ++ rest = t := List.cons.inj heq
        exact h.1.1
    have hquote : c ≠ '"' := by
      rintro rfl
      exact absurd hstart (by decide)
    rw [show n ++ rest = c :: t from heq] at hrun
    simp [firstLexeme, hquote, hrun, hne]
  | @number n _ h =>
    obtain ⟨hne, hrun⟩ := munches_numberRun.longest_iff.1 h
    obtain ⟨hstart, hquote⟩ : startsName c = false ∧ c ≠ '"' := by
      cases n with
      | nil => exact absurd rfl hne
      | cons d n =>
        obtain ⟨rfl, -⟩ : d = c ∧ n ++ rest = t := List.cons.inj heq
        exact h.1.startsName_eq_false
    rw [show n ++ rest = c :: t from heq] at hrun
    simp [firstLexeme, nameRun, hquote, hstart, hrun, hne]
  | @other d _ h =>
    obtain ⟨rfl, rfl⟩ : d = c ∧ rest = t := List.cons.inj heq
    obtain ⟨hquote, hname, hnumber⟩ := leads_other_iff.1 (.other h)
    have hnone : (if d = '"' then quotedRun? rest else none) = none := by
      split
      · next hd => exact hquote hd
      · rfl
    simp [firstLexeme, hnone, hname, hnumber]

/-- The lexeme at the start of a text is widened, and what stands behind it. -/
theorem Leads.widen_eq {l : Lexeme} {rest : Text} (h : Leads l rest) :
    widen (l.text ++ rest) = l.widened ++ widen rest := by
  obtain ⟨c, t, heq⟩ := h.exists_cons
  rw [heq, widen_of_firstLexeme (h.firstLexeme_eq heq) heq.symm]

/-- Some lexeme stands at the start of a text that is not empty. -/
theorem leads_firstLexeme (c : Char) (t : Text) :
    ∃ rest, c :: t = (firstLexeme c t).text ++ rest ∧ Leads (firstLexeme c t) rest := by
  obtain ⟨hsplit, -⟩ := shape_firstLexeme c t
  refine ⟨_, hsplit, ?_⟩
  generalize t.drop ((firstLexeme c t).text.length - 1) = rest at hsplit
  rcases firstLexeme_cases c t with ⟨run, rfl, hrun, heq⟩ | ⟨hstart, heq⟩ | ⟨hnumber, heq⟩ |
    ⟨hstart, -, hquote, heq⟩
  · rw [heq]
    exact .quoted (longest_quoted ⟨run, rfl, isQuotedRun_of_quotedRun? hrun⟩ rest)
  · rw [heq] at hsplit ⊢
    have hrun : nameRun (c :: t) = c :: t.takeWhile continuesName := if_pos hstart
    refine .name (munches_nameRun.longest_iff.2 ⟨List.cons_ne_nil _ _, ?_⟩)
    exact (congrArg nameRun hsplit).symm.trans hrun
  · rw [heq] at hsplit ⊢
    refine .number (munches_numberRun.longest_iff.2 ⟨hnumber, ?_⟩)
    exact (congrArg numberRun hsplit).symm
  · rw [heq] at hsplit ⊢
    obtain rfl : t = rest := (List.cons.inj hsplit).2
    exact leads_other_iff.2 ⟨hquote, if_neg (Bool.eq_false_iff.1 hstart), numberRun_of_other heq⟩

/-- A text has one list of lexemes: those that the scan finds. -/
theorem scans_iff {t : Text} {ls : List Lexeme} : Scans t ls ↔ lexemes t = ls := by
  constructor
  · intro h
    induction h with
    | nil => rw [lexemes]
    | @cons l rest ls hl _ ih =>
      obtain ⟨c, t, heq⟩ := hl.exists_cons
      have hfirst := hl.firstLexeme_eq heq
      obtain ⟨hsplit, -⟩ := shape_firstLexeme c t
      rw [hfirst] at hsplit
      have hrest : rest = t.drop (l.text.length - 1) :=
        List.append_cancel_left (heq.trans hsplit)
      rw [heq, lexemes]
      simp only [hfirst, ← hrest, ih]
  · rintro rfl
    fun_induction lexemes t with
    | case1 => exact .nil
    | case2 c t first ih =>
      obtain ⟨rest, hsplit, hl⟩ := leads_firstLexeme c t
      have hrest : t.drop (first.text.length - 1) = rest :=
        List.append_cancel_left ((shape_firstLexeme c t).1.symm.trans hsplit)
      rw [hrest] at ih ⊢
      rw [hsplit]
      exact .cons hl ih

theorem Scans.text {t : Text} {ls : List Lexeme} (h : Scans t ls) :
    ls.flatMap Lexeme.text = t := by
  induction h with
  | nil => rfl
  | cons _ _ ih => rw [List.flatMap_cons, ih]

end Reckoner.Formula
