import Reckoner.Proofs.Floats
import Reckoner.Proofs.Reading

/-!
# Padded literals

`widen` puts `.0` behind the numbers of ASCII digits that the scan finds, and leaves a text alone
exactly if the scan finds none (`widen_eq_self_iff`).

To the grammar the padded text is a literal as the text itself was, but perhaps another one.  It
does not become a number: where a padded text is a decimal, the point in it is its only one, so
either nothing was put in, or it was put in behind the digits before the point
(`Pads.of_point`), and without it those digits are still a decimal (`decimal?_of_pads`).  Nor
does it become one of the words for a number or a truth value, since none holds a point.
-/

namespace Reckoner.Formula

open Number
open Text (isAsciiDigit)

/-! ## Where something is put in -/

theorem Pads.length_le {t u : Text} (h : Pads t u) : t.length ≤ u.length := by
  induction h with
  | nil => exact Nat.le_refl 0
  | cons c _ ih => exact Nat.succ_le_succ ih
  | pad _ _ ih =>
    simp only [List.length_cons]
    omega

theorem Pads.mem {t u : Text} (h : Pads t u) {c : Char} (hc : c ∈ t) : c ∈ u := by
  induction h with
  | nil => exact hc
  | cons d _ ih => exact List.mem_cons.2 ((List.mem_cons.1 hc).imp_right ih)
  | pad _ _ ih =>
    refine List.mem_cons.2 ((List.mem_cons.1 hc).imp_right fun hc => ?_)
    exact .tail _ (.tail _ (ih hc))

/-- Without a point nothing was put in. -/
theorem Pads.eq_of_not_mem {t u : Text} (h : Pads t u) (hpoint : '.' ∉ u) : t = u := by
  induction h with
  | nil => rfl
  | cons c _ ih => rw [ih fun hmem => hpoint (.tail _ hmem)]
  | pad _ _ _ => exact absurd (by simp) hpoint

/-- With one point, it was put in behind the digit before it or not at all. -/
theorem Pads.of_point {t w r : Text} (h : Pads t (w ++ '.' :: r)) (hw : '.' ∉ w) (hr : '.' ∉ r) :
    t = w ++ '.' :: r ∨ ∃ r', r = '0' :: r' ∧ w ≠ [] ∧ t = w ++ r' := by
  induction w generalizing t with
  | nil =>
    obtain ⟨t', rfl, ht'⟩ := h.cons_inv (by decide)
    rw [ht'.eq_of_not_mem hr]
    exact .inl rfl
  | cons c w ih =>
    obtain ⟨hc, hw⟩ : '.' ≠ c ∧ '.' ∉ w := by simpa using hw
    generalize hu : c :: w ++ '.' :: r = u at h
    cases h with
    | nil => cases hu
    | cons d h =>
      cases hu
      rcases ih h hw with rfl | ⟨r', hr', -, rfl⟩
      · exact .inl rfl
      · exact .inr ⟨r', hr', List.cons_ne_nil _ _, rfl⟩
    | pad _ h =>
      -- what is put in begins with the point, so `c` is the last character before it
      obtain ⟨rfl, htail⟩ := List.cons.inj hu
      cases w with
      | nil =>
        obtain rfl : r = '0' :: _ := (List.cons.inj htail).2
        rw [h.eq_of_not_mem fun hmem => hr (.tail _ hmem)]
        exact .inr ⟨_, rfl, List.cons_ne_nil _ _, rfl⟩
      | cons d w =>
        obtain rfl : d = '.' := (List.cons.inj htail).1
        exact absurd List.mem_cons_self hw

/-! ## Decimals -/

theorem exponent?_ne_none {s ds : Text} (hs : IsSignRun s) (hne : ds ≠ [])
    (hds : ∀ c ∈ ds, isAsciiDigit c = true) : exponent? (s ++ ds) ≠ none := by
  have hsigned : (signed (s ++ ds)).2 = ds := by
    rcases hs with rfl | rfl | rfl
    · obtain ⟨d, ds, rfl⟩ := List.exists_cons_of_ne_nil hne
      have hd := hds d List.mem_cons_self
      show (signed (d :: ds)).2 = d :: ds
      unfold signed
      split
      · next heq => cases heq; exact absurd hd (by decide)
      · next heq => cases heq; exact absurd hd (by decide)
      · rfl
    · rfl
    · rfl
  have hall : ds.all isAsciiDigit = true := List.all_eq_true.2 hds
  unfold exponent?
  dsimp only
  rw [hsigned, if_neg (by simp [hne, hall])]
  split <;> simp

/-- What may stand behind the digits of a decimal: nothing, or an exponent. -/
def EndsDecimal (t : Text) : Prop := t = [] ∨ IsExponent isAsciiDigit t

theorem EndsDecimal.head? {t : Text} (h : EndsDecimal t) {c : Char} (hc : t.head? = some c) :
    isAsciiDigit c = false := by
  rcases h with rfl | ⟨e, s, ds, rfl, he, -⟩
  · cases hc
  · cases hc
    rcases he with rfl | rfl <;> decide

theorem EndsDecimal.not_mem {t : Text} (h : EndsDecimal t) : '.' ∉ t := by
  rcases h with rfl | ⟨e, s, ds, rfl, he, hs, -, hds⟩
  · exact List.not_mem_nil
  · intro hmem
    rcases List.mem_cons.1 hmem with rfl | hmem
    · exact absurd he (by decide)
    · rcases List.mem_append.1 hmem with hmem | hmem
      · exact absurd (hs.mem hmem) (by decide)
      · exact absurd (hds _ hmem) (by decide)

/-- Digits and what may stand behind them are a decimal. -/
theorem decimal?_append {w rest : Text} (hne : w ≠ []) (hw : ∀ c ∈ w, isAsciiDigit c = true)
    (hrest : EndsDecimal rest) : decimal? (w ++ rest) ≠ none := by
  obtain ⟨htake, hdrop⟩ := Number.run_append hw fun c hc => hrest.head? hc
  unfold decimal?
  rw [htake, hdrop]
  rcases hrest with rfl | ⟨e, s, ds, rfl, he, hs, hds⟩
  · simp [hne]
  · have hexponent := exponent?_ne_none hs hds.1 hds.2
    rcases he with rfl | rfl <;> simp [hne, hexponent]

/-- A decimal with a point: digits, the point, digits, and what may stand behind them. -/
theorem decimal?_point_inv {t : Text} (h : decimal? t ≠ none) (hpoint : '.' ∈ t) :
    ∃ w ps rest, t = w ++ '.' :: (ps ++ rest) ∧ (∀ c ∈ w, isAsciiDigit c = true) ∧
      (∀ c ∈ ps, isAsciiDigit c = true) ∧ EndsDecimal rest := by
  obtain ⟨d, h⟩ := Option.ne_none_iff_exists'.1 h
  have hsplit : t.takeWhile isAsciiDigit ++ t.dropWhile isAsciiDigit = t :=
    List.takeWhile_append_dropWhile
  have hwhole : ∀ c ∈ t.takeWhile isAsciiDigit, isAsciiDigit c = true :=
    fun c hc => List.mem_takeWhile_imp hc
  unfold decimal? at h
  dsimp only at h
  split at h
  · next r hr =>
    split at h
    · cases h
    · refine ⟨_, r.takeWhile isAsciiDigit, r.dropWhile isAsciiDigit, ?_, hwhole,
        fun c hc => List.mem_takeWhile_imp hc, decimal?_tail_inv h⟩
      rw [List.takeWhile_append_dropWhile, ← hr, hsplit]
  · split at h
    · cases h
    · have hrest : EndsDecimal (t.dropWhile isAsciiDigit) := decimal?_tail_inv h
      rw [← hsplit] at hpoint
      rcases List.mem_append.1 hpoint with hmem | hmem
      · exact absurd (hwhole _ hmem) (by decide)
      · exact absurd hmem hrest.not_mem

/-- What is put into a decimal can be taken out again. -/
theorem decimal?_of_pads {t u : Text} (hpads : Pads t u) (h : decimal? u ≠ none) :
    decimal? t ≠ none := by
  by_cases hpoint : '.' ∈ u
  · obtain ⟨w, ps, rest, rfl, hw, hps, hrest⟩ := decimal?_point_inv h hpoint
    have hdigits {x : Text} (hx : ∀ c ∈ x, isAsciiDigit c = true) : '.' ∉ x :=
      fun hmem => absurd (hx _ hmem) (by decide)
    have hbehind : '.' ∉ ps ++ rest := fun hmem =>
      (List.mem_append.1 hmem).elim (hdigits hps) hrest.not_mem
    rcases hpads.of_point (hdigits hw) hbehind with rfl | ⟨r, hr, hne, rfl⟩
    · exact h
    · cases ps with
      | nil =>
        obtain rfl : rest = '0' :: r := hr
        exact absurd (hrest.head? rfl) (by decide)
      | cons d ps =>
        obtain ⟨-, rfl⟩ : d = '0' ∧ ps ++ rest = r := List.cons.inj hr
        rw [← List.append_assoc]
        refine decimal?_append (by simp [hne]) (fun c hc => ?_) hrest
        exact (List.mem_append.1 hc).elim (hw c) fun hc => hps c (.tail _ hc)
  · rwa [hpads.eq_of_not_mem hpoint]

/-! ## Literals -/

theorem signed_of_not_mem {t : Text} (hplus : '+' ∉ t) (hminus : '-' ∉ t) :
    signed t = (false, t) := by
  unfold signed
  split
  · exact absurd List.mem_cons_self hminus
  · exact absurd List.mem_cons_self hplus
  · rfl

theorem numeral?_ne_none {t : Text} (hplus : '+' ∉ t) (hminus : '-' ∉ t)
    (h : decimal? t ≠ none) : numeral? t ≠ none := by
  obtain ⟨d, hd⟩ := Option.ne_none_iff_exists'.1 h
  unfold numeral?
  rw [signed_of_not_mem hplus hminus]
  dsimp only
  unfold unsigned?
  dsimp only
  rw [hd]
  split
  · simp
  · split <;> simp

theorem literalValue?_eq_none_iff {t : Text} :
    literalValue? t = none ↔ integer? t = none ∧ numeral? t = none ∧
      t ≠ "true".toList ∧ t ≠ "false".toList := by
  unfold literalValue?
  cases integer? t with
  | some n => simp
  | none =>
    cases numeral? t with
    | some x => simp
    | none =>
      dsimp only
      split
      · next htrue => simp [htrue]
      · next htrue =>
        split
        · next hfalse => simp [hfalse]
        · next hfalse => exact ⟨fun _ => ⟨rfl, rfl, htrue, hfalse⟩, fun _ => rfl⟩

/-- What is no value does not become one. -/
theorem literalValue?_of_pads {t u : Text} (hpads : Pads t u) (hplain : ∀ c ∈ u, Plain c)
    (h : literalValue? t = none) : literalValue? u = none := by
  by_cases hpoint : '.' ∈ u
  · have hplus : '+' ∉ u := fun hmem => absurd (hplain _ hmem).1 (by decide)
    have hminus : '-' ∉ u := fun hmem => absurd (hplain _ hmem).1 (by decide)
    obtain ⟨-, hnumeral, -⟩ := literalValue?_eq_none_iff.1 h
    refine literalValue?_eq_none_iff.2 ⟨?_, ?_, ?_, ?_⟩
    · refine Option.eq_none_iff_forall_ne_some.2 fun n hn => ?_
      rcases integer?_inv hn with ⟨-, hdigits⟩ | ⟨r, rfl, hr⟩
      · exact absurd (hdigits _ hpoint) (by decide)
      · have hmem : '.' ∈ r := by simpa using hpoint
        exact absurd (hr _ hmem) (by decide)
    · refine Option.eq_none_iff_forall_ne_some.2 fun x hx => ?_
      obtain ⟨s, v, rfl, hs, hv⟩ := numeral?_inv hx
      obtain rfl : s = [] := by
        rcases hs with rfl | rfl | rfl
        · rfl
        · exact absurd List.mem_cons_self hplus
        · exact absurd List.mem_cons_self hminus
      rcases hv with hword | ⟨d, hd⟩
      · have hmem : '.' ∈ v.map Char.toLower := List.mem_map.2 ⟨'.', hpoint, rfl⟩
        simp only [List.mem_cons, List.not_mem_nil, or_false] at hword
        rcases hword with hword | hword | hword <;> exact absurd hmem (by rw [hword]; decide)
      · have hdecimal := decimal?_of_pads hpads (Option.ne_none_iff_exists'.2 ⟨d, hd⟩)
        exact numeral?_ne_none (fun hmem => hplus (hpads.mem hmem))
          (fun hmem => hminus (hpads.mem hmem)) hdecimal hnumeral
    · rintro rfl
      exact absurd hpoint (by decide)
    · rintro rfl
      exact absurd hpoint (by decide)
  · rwa [← hpads.eq_of_not_mem hpoint]

/-! ## Texts that are left alone -/

theorem widened_eq_text_iff (l : Lexeme) :
    l.widened = l.text ↔ ∀ n, l = .number n → n.all isAsciiDigit = false := by
  cases l with
  | number n =>
    simp only [Lexeme.number.injEq, forall_eq', Lexeme.widened, Lexeme.text]
    cases n.all isAsciiDigit <;> simp
  | _ => simp [Lexeme.widened]

/-- A text is left alone exactly if the scan finds no number of ASCII digits alone in it. -/
theorem widen_eq_self_iff (t : Text) :
    widen t = t ↔ ∀ n, .number n ∈ lexemes t → n.all isAsciiDigit = false := by
  fun_induction lexemes t with
  | case1 => simp [widen_nil]
  | case2 c t first ih =>
    obtain ⟨hsplit, -⟩ := shape_firstLexeme c t
    obtain ⟨z, hz⟩ := widened_eq_append first
    have hle := (pads_widen (t.drop (first.text.length - 1))).length_le
    have hparts : widen (c :: t) = c :: t ↔ first.widened = first.text ∧
        widen (t.drop (first.text.length - 1)) = t.drop (first.text.length - 1) := by
      rw [widen_cons]
      constructor
      · intro h
        rw [hsplit, hz, List.append_assoc] at h
        have hrest : z ++ widen (t.drop (first.text.length - 1)) =
            t.drop (first.text.length - 1) := List.append_cancel_left h
        obtain rfl : z = [] := by
          have hlength := congrArg List.length hrest
          rw [List.length_append] at hlength
          exact List.length_eq_zero_iff.1 (by omega)
        exact ⟨hz.trans (List.append_nil _), hrest⟩
      · rintro ⟨hfirst, hrest⟩
        rw [hfirst, hrest, ← hsplit]
    rw [hparts, ih, widened_eq_text_iff]
    simp only [List.mem_cons, or_imp, forall_and, eq_comm]

end Reckoner.Formula
