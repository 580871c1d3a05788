import Reckoner.Proofs.Scan

/-!
# Scanning a widened text again

`widen` puts `.0` behind the whole numbers of the scan.  They are longest runs of ASCII digits,
and every other such run lies in one lexeme that keeps it as it is (`Scans.exists_lexeme`): no
run goes over the end of a lexeme, since no lexeme that ends in a digit has a digit behind it
(`Leads.apart`).

What is put in moves no end of a lexeme.  The text behind a lexeme starts with the same character
as before, starts with an exponent only if it did, and closes a quoted text only if it did.  So
the lexemes of the widened text are those of the text, the whole numbers among them with their
`.0` (`scans_widen`), and there is no whole number left to widen.
-/

namespace Reckoner.Formula

open Text (isDecimalDigit isAsciiDigit isDecimalDigit_of_isAsciiDigit)

/-! ## Whole numbers -/

namespace Lexeme

/-- Whether a lexeme is a number that consists of ASCII digits alone. -/
def isWhole : Lexeme → Bool
  | .number n => n.all isAsciiDigit
  | _ => false

/-- A lexeme whose digits stay as they are: a quoted text, a name, or a number with a point, an
exponent or another digit than those of ASCII. -/
def Keeps : Lexeme → Prop
  | .quoted _ | .name _ => True
  | .number n => ∃ c ∈ n, c ∈ ['.', 'e', 'E'] ∨ (isDecimalDigit c = true ∧ isAsciiDigit c = false)
  | .other _ => False

/-- A lexeme with `.0` behind it if it is a whole number. -/
def padded : Lexeme → Lexeme
  | .number n => .number (Lexeme.number n).widened
  | l => l

theorem text_padded (l : Lexeme) : l.padded.text = l.widened := by
  cases l <;> rfl

theorem widened_eq (l : Lexeme) :
    l.widened = l.text ++ if l.isWhole then ['.', '0'] else [] := by
  cases l with
  | number n =>
    by_cases hn : n.all isAsciiDigit = true
    · simp [widened, isWhole, text, hn]
    · simp [widened, isWhole, text, hn]
  | _ => exact (List.append_nil _).symm

/-- A padded lexeme is no whole number. -/
theorem widened_padded (l : Lexeme) : l.padded.widened = l.widened := by
  cases l with
  | number n =>
    rw [widened_eq, text_padded, if_neg, List.append_nil]
    by_cases hn : n.all isAsciiDigit = true
    · simp [padded, widened, isWhole, hn, isAsciiDigit]
    · simp [padded, widened, isWhole, hn]
  | _ => rfl

end Lexeme

/-- A number of the scan is a whole number, or has a character that keeps it as it is. -/
theorem keeps_number {n : Text} (h : IsNumber n) (hn : ¬ n.all isAsciiDigit = true) :
    (Lexeme.number n).Keeps := by
  obtain ⟨c, hc, hascii⟩ := List.all_eq_false.1 (Bool.eq_false_iff.2 hn)
  have hascii : isAsciiDigit c = false := Bool.eq_false_iff.2 hascii
  obtain ⟨m, x, rfl, hm, rfl | ⟨e, s, ds, rfl, he, -⟩⟩ := h
  · rw [List.append_nil] at hc ⊢
    rcases hm.mem hc with hdigit | rfl
    · exact ⟨c, hc, .inr ⟨hdigit, hascii⟩⟩
    · exact ⟨'.', hc, .inl List.mem_cons_self⟩
  · exact ⟨e, by simp, .inl (by rcases he with rfl | rfl <;> simp)⟩

/-! ## Runs of digits -/

/-- The text `run` is a longest run of ASCII digits, between the texts `before` and `behind`. -/
structure DigitRun (before run behind : Text) : Prop where
  nonempty : run ≠ []
  digits : ∀ c ∈ run, isAsciiDigit c = true
  before : ∀ c, before.getLast? = some c → isAsciiDigit c = false
  behind : ∀ c, behind.head? = some c → isAsciiDigit c = false

theorem IsQuotedRun.getLast? {run : Text} (h : IsQuotedRun run) : run.getLast? = some '"' := by
  induction h with
  | close => rfl
  | plain _ _ _ ih => rw [List.getLast?_cons, ih]; rfl
  | escaped _ _ ih => rw [List.getLast?_cons, List.getLast?_cons, ih]; rfl

/-- No digit stands behind a lexeme that ends in a digit. -/
theorem Leads.apart {l : Lexeme} {rest : Text} (h : Leads l rest) {c d : Char}
    (hc : l.text.getLast? = some c) (hdigit : isDecimalDigit c = true)
    (hd : rest.head? = some d) : isDecimalDigit d = false := by
  cases h with
  | quoted h =>
    obtain ⟨run, rfl, hrun⟩ := h.1
    rw [Lexeme.text, List.getLast?_cons, hrun.getLast?] at hc
    cases hc
    exact absurd hdigit (by decide)
  | name h =>
    refine Bool.eq_false_iff.2 fun hcontinues => ?_
    have hstop := (longest_name_iff.1 h).2 d hd
    rw [continuesName_of_isDecimalDigit hcontinues] at hstop
    cases hstop
  | number h => exact (longest_number_iff.1 h).2.digit d hd
  | other h =>
    cases hc
    have hnumber := (leads_other_iff.1 (.other h)).2.2
    exact absurd hnumber (numberRun_ne_nil hdigit)

theorem Scans.cons_inv {t : Text} {l : Lexeme} {ls : List Lexeme} (h : Scans t (l :: ls)) :
    Leads l (ls.flatMap Lexeme.text) ∧ Scans (ls.flatMap Lexeme.text) ls := by
  cases h with
  | cons hl hls =>
    rw [hls.text]
    exact ⟨hl, hls⟩

theorem Scans.append_inv {t : Text} {front ls : List Lexeme} (h : Scans t (front ++ ls)) :
    Scans (ls.flatMap Lexeme.text) ls := by
  induction front generalizing t with
  | nil =>
    have heq : ls.flatMap Lexeme.text = t := h.text
    rwa [heq]
  | cons k front ih => exact ih h.cons_inv.2

/-- In front of a lexeme that starts with a digit stands no digit. -/
theorem Scans.apart {t : Text} {front ls : List Lexeme} (h : Scans t (front ++ ls)) {c d : Char}
    (hc : (front.flatMap Lexeme.text).getLast? = some c)
    (hd : (ls.flatMap Lexeme.text).head? = some d) (hdigit : isDecimalDigit d = true) :
    isDecimalDigit c = false := by
  induction front generalizing t with
  | nil => cases hc
  | cons k front ih =>
    obtain ⟨hk, h⟩ := h.cons_inv
    rw [List.flatMap_cons, List.getLast?_append] at hc
    cases hlast : (front.flatMap Lexeme.text).getLast? with
    | some e =>
      rw [hlast, Option.some_or] at hc
      exact ih h (hlast.trans hc)
    | none =>
      rw [hlast, Option.none_or] at hc
      have hrest : ((front ++ ls).flatMap Lexeme.text).head? = some d := by
        rw [List.flatMap_append, List.getLast?_eq_none_iff.1 hlast, List.nil_append, hd]
      refine Bool.eq_false_iff.2 fun hcdigit => ?_
      rw [hk.apart hc hcdigit hrest] at hdigit
      cases hdigit

/-- A whole number of the scan is a longest run of ASCII digits. -/
theorem Scans.digitRun {t : Text} {front back : List Lexeme} {l : Lexeme}
    (h : Scans t (front ++ l :: back)) (hl : l.isWhole = true) :
    DigitRun (front.flatMap Lexeme.text) l.text (back.flatMap Lexeme.text) := by
  cases l with
  | number n =>
    obtain ⟨hn, hends⟩ : IsNumber n ∧ Ends n (back.flatMap Lexeme.text) := by
      cases h.append_inv.cons_inv.1 with
      | number hlongest => exact longest_number_iff.1 hlongest
    have hdigits : ∀ c ∈ n, isAsciiDigit c = true := List.all_eq_true.1 hl
    obtain ⟨d, n, rfl⟩ := List.exists_cons_of_ne_nil hn.ne_nil
    refine ⟨hn.ne_nil, hdigits, fun c hc => ?_, fun c hc => ?_⟩
    · have hd := isDecimalDigit_of_isAsciiDigit (hdigits d List.mem_cons_self)
      exact isAsciiDigit_eq_false (h.apart hc rfl hd)
    · exact isAsciiDigit_eq_false (hends.digit c hc)
  | _ => cases hl

/-- A run of digits begins behind a lexeme or ends in it. -/
theorem Leads.behind_or_inside {l : Lexeme} {x run behind rest : Text} (hl : Leads l rest)
    (hrun : ∀ c ∈ run, isAsciiDigit c = true) (ht : x ++ (run ++ behind) = l.text ++ rest) :
    (∃ z, x = l.text ++ z ∧ z ++ (run ++ behind) = rest) ∨
      ∃ y, l.text = x ++ run ++ y ∧ behind = y ++ rest := by
  rcases List.append_eq_append_iff.1 ht with ⟨z, hz, hrest⟩ | ⟨z, hz, hrest⟩
  · rcases List.append_eq_append_iff.1 hrest with ⟨y, rfl, rfl⟩ | ⟨w, rfl, rfl⟩
    · exact .inr ⟨y, by rw [hz, List.append_assoc], rfl⟩
    · -- the end of the lexeme divides the run, so one of the parts is empty
      rcases List.eq_nil_or_concat z with rfl | ⟨z, c, rfl⟩
      · exact .inl ⟨[], by rw [hz, List.append_nil, List.append_nil], rfl⟩
      · cases w with
        | nil => exact .inr ⟨[], by rw [hz, List.append_nil, List.append_nil], rfl⟩
        | cons d w =>
          have hc := isDecimalDigit_of_isAsciiDigit (hrun c (by simp))
          have hd := isDecimalDigit_of_isAsciiDigit (hrun d (by simp))
          rw [hl.apart (by simp [hz]) hc rfl] at hd
          cases hd
  · exact .inl ⟨z, hz, hrest.symm⟩

/-- A longest run of ASCII digits lies in one lexeme. -/
theorem Scans.exists_lexeme {t : Text} {ls : List Lexeme} (h : Scans t ls)
    {before run behind : Text} (ht : before ++ (run ++ behind) = t)
    (hrun : DigitRun before run behind) :
    ∃ front l back x y, ls = front ++ l :: back ∧ before = front.flatMap Lexeme.text ++ x ∧
      l.text = x ++ run ++ y ∧ behind = y ++ back.flatMap Lexeme.text := by
  induction h generalizing before with
  | nil =>
    obtain ⟨-, hnil⟩ := List.append_eq_nil_iff.1 ht
    exact absurd (List.append_eq_nil_iff.1 hnil).1 hrun.nonempty
  | @cons l rest ls hl hls ih =>
    rcases hl.behind_or_inside hrun.digits ht with ⟨z, rfl, hz⟩ | ⟨y, htext, rfl⟩
    · have hbefore : ∀ c, z.getLast? = some c → isAsciiDigit c = false := fun c hc =>
        hrun.before c (by rw [List.getLast?_append, hc, Option.some_or])
      obtain ⟨front, k, back, x, y, rfl, rfl, hk⟩ := ih hz { hrun with before := hbefore }
      exact ⟨l :: front, k, back, x, y, rfl, by simp, hk⟩
    · exact ⟨[], l, ls, before, y, rfl, rfl, htext, by rw [hls.text]⟩

/-- The lexeme that a longest run of ASCII digits lies in is the run itself, as a whole number, or
keeps the digits as they are. -/
theorem DigitRun.whole_or_keeps {l : Lexeme} {u x run y v rest : Text}
    (h : DigitRun (u ++ x) run (y ++ v)) (hl : Leads l rest) (htext : l.text = x ++ run ++ y) :
    (l = .number run ∧ l.isWhole = true) ∨ (l.Keeps ∧ l.isWhole = false) := by
  cases hl with
  | quoted _ => exact .inr ⟨trivial, rfl⟩
  | name _ => exact .inr ⟨trivial, rfl⟩
  | @number n _ hlongest =>
    obtain rfl : n = x ++ run ++ y := htext
    by_cases hn : (x ++ run ++ y).all isAsciiDigit = true
    · have hdigit : ∀ c ∈ x ++ run ++ y, isAsciiDigit c = true := List.all_eq_true.1 hn
      have hx : x = [] := by
        rcases List.eq_nil_or_concat x with rfl | ⟨x, c, rfl⟩
        · rfl
        · have hlast := h.before c (by simp)
          rw [hdigit c (by simp)] at hlast
          cases hlast
      have hy : y = [] := by
        cases y with
        | nil => rfl
        | cons c y =>
          have hhead := h.behind c rfl
          rw [hdigit c (by simp)] at hhead
          cases hhead
      refine .inl ⟨?_, hn⟩
      rw [hx, hy, List.nil_append, List.append_nil]
    · exact .inr ⟨keeps_number hlongest.1 hn, Bool.eq_false_iff.2 hn⟩
  | @other c _ hother =>
    obtain ⟨d, run, rfl⟩ := List.exists_cons_of_ne_nil h.nonempty
    have hmem : d ∈ [c] := by
      rw [show [c] = _ from htext]
      simp
    have hd := isDecimalDigit_of_isAsciiDigit (h.digits d List.mem_cons_self)
    rw [List.mem_singleton.1 hmem] at hd
    exact absurd (leads_other_iff.1 (.other hother)).2.2 (numberRun_ne_nil hd)

/-! ## Padded texts -/

theorem Pads.head?_eq {t u : Text} (h : Pads t u) : u.head? = t.head? := by
  cases h <;> rfl

/-- If a padded text closes a quoted text, so does the text. -/
theorem IsQuotedRun.of_pads {run : Text} (h : IsQuotedRun run) {t rest : Text}
    (hpads : Pads t (run ++ rest)) : quotedRun? t ≠ none := by
  induction h generalizing t with
  | close =>
    obtain ⟨t', _, rfl, -⟩ := hpads.quoted_tail
    simp [quotedRun?]
  | plain hquote hescape _ ih =>
    obtain ⟨t', v, rfl, hv, htail⟩ := hpads.quoted_tail
    simpa [quotedRun?_cons hquote hescape] using htail (ih hv)
  | @escaped c run hline _ ih =>
    obtain ⟨t', rfl, ht'⟩ := hpads.cons_inv (by decide)
    obtain ⟨t'', v, rfl, hv, htail⟩ := ht'.quoted_tail
    simpa [quotedRun?, hline] using htail (ih hv)

theorem quotedRun?_of_pads {t u : Text} (h : Pads t u) (hnone : quotedRun? t = none) :
    quotedRun? u = none := by
  by_contra hne
  obtain ⟨run, hrun⟩ := Option.ne_none_iff_exists'.1 hne
  obtain ⟨rest, rfl⟩ := quotedRun?_prefix hrun
  exact (isQuotedRun_of_quotedRun? hrun).of_pads h hnone

/-- Characters other than digits stand in the text as in the padded one. -/
theorem Pads.append_inv {t x u : Text} (h : Pads t (x ++ u))
    (hx : ∀ c ∈ x, isAsciiDigit c = false) : ∃ t', t = x ++ t' ∧ Pads t' u := by
  induction x generalizing t with
  | nil => exact ⟨t, rfl, h⟩
  | cons c x ih =>
    obtain ⟨hc, hx⟩ := List.forall_mem_cons.1 hx
    obtain ⟨t', rfl, ht'⟩ := h.cons_inv hc
    obtain ⟨t'', rfl, ht''⟩ := ih ht' hx
    exact ⟨t'', rfl, ht''⟩

/-- If a padded text starts with an exponent, so does the text. -/
theorem exponentRun_of_pads {t u : Text} (h : Pads t u) (hnil : exponentRun t = []) :
    exponentRun u = [] := by
  obtain ⟨hfront, hnone | ⟨e, s, ds, hx, he, hs, hne, hds⟩⟩ := exponentRun_inv u
  · exact hnone
  · exfalso
    obtain ⟨d, ds, rfl⟩ := List.exists_cons_of_ne_nil hne
    obtain ⟨rest, rfl⟩ := hx ▸ hfront
    have hletters : ∀ c ∈ e :: s, isAsciiDigit c = false := by
      refine List.forall_mem_cons.2 ⟨by rcases he with rfl | rfl <;> decide, fun c hc => ?_⟩
      rcases hs.mem hc with rfl | rfl <;> decide
    -- the letter, the sign and the first digit stand in the text
    obtain ⟨t, rfl, ht⟩ : ∃ t', t = (e :: s) ++ t' ∧ Pads t' (d :: (ds ++ rest)) :=
      Pads.append_inv (by simpa using h) hletters
    obtain ⟨t, rfl⟩ := List.head?_eq_some_iff.1 ht.head?_eq.symm
    have hshort : IsExponent isDecimalDigit (e :: (s ++ [d])) :=
      ⟨e, s, [d], rfl, he, hs, List.cons_ne_nil d [], by simpa using hds d List.mem_cons_self⟩
    have hrun := hshort.exponentRun_append t
    rw [show e :: (s ++ [d]) ++ t = e :: s ++ d :: t by simp, hnil] at hrun
    cases hrun

/-! ## Padded lexemes -/

/-- Padding what stands behind a number lets it not go on. -/
theorem Ends.pads {n rest u : Text} (h : Ends n rest) (hpads : Pads rest u) : Ends n u where
  digit := by
    rw [hpads.head?_eq]
    exact h.digit
  point := by
    rw [hpads.head?_eq]
    exact h.point
  exponent := fun hm => exponentRun_of_pads hpads (h.exponent hm)

/-- A whole number is a longest number with `.0` behind it too. -/
theorem longest_widened {n rest : Text} (h : Longest IsNumber n rest) :
    Longest IsNumber (Lexeme.number n).widened rest := by
  dsimp only [Lexeme.widened]
  split
  · next hall =>
    obtain ⟨hn, hends⟩ := longest_number_iff.1 h
    have hdigits : ∀ c ∈ n, isDecimalDigit c = true := fun c hc =>
      isDecimalDigit_of_isAsciiDigit (List.all_eq_true.1 hall c hc)
    have hzero : ∀ c ∈ ['0'], isDecimalDigit c = true := fun c hc => by
      rw [List.mem_singleton.1 hc]
      decide
    have hpoint : IsMantissa (n ++ '.' :: ['0']) := .point (.inl hn.ne_nil) hdigits hzero
    refine longest_number_iff.2 ⟨hpoint.isNumber, hends.digit, fun hpadded => ?_, fun _ => ?_⟩
    · exact absurd (hpadded '.' (by simp)) (by decide)
    · exact hends.exponent (.whole hn.ne_nil hdigits)
  · exact h

/-- In front of a padded text a lexeme stands as before, with `.0` if it is a whole number. -/
theorem Leads.pads {l : Lexeme} {rest u : Text} (h : Leads l rest) (hpads : Pads rest u) :
    Leads l.padded u := by
  cases h with
  | quoted h => exact .quoted (longest_quoted h.1 u)
  | name h =>
    refine .name (longest_name_iff.2 ?_)
    rw [hpads.head?_eq]
    exact longest_name_iff.1 h
  | number h =>
    obtain ⟨hn, hends⟩ := longest_number_iff.1 h
    exact .number (longest_widened (longest_number_iff.2 ⟨hn, hends.pads hpads⟩))
  | other h =>
    obtain ⟨hquote, hname, hnumber⟩ := leads_other_iff.1 (.other h)
    rw [nameRun_eq_nil_iff] at hname
    rw [numberRun_eq_nil_iff] at hnumber
    refine leads_other_iff.2 ⟨fun hc => quotedRun?_of_pads hpads (hquote hc), ?_, ?_⟩
    · rwa [nameRun_eq_nil_iff]
    · rwa [numberRun_eq_nil_iff, hpads.head?_eq]

/-- The lexemes of a widened text are the padded ones of the text. -/
theorem scans_widen {t : Text} {ls : List Lexeme} (h : Scans t ls) :
    Scans (widen t) (ls.map Lexeme.padded) := by
  induction h with
  | nil =>
    rw [widen_nil]
    exact .nil
  | @cons l rest ls hl _ ih =>
    rw [hl.widen_eq, ← l.text_padded]
    exact .cons (hl.pads (pads_widen rest)) ih

/-- What is widened is left alone when it is widened again. -/
theorem widen_widen (t : Text) : widen (widen t) = widen t := by
  have hscan : Scans t (lexemes t) := scans_iff.2 rfl
  have hagain : lexemes (widen t) = (lexemes t).map Lexeme.padded := scans_iff.1 (scans_widen hscan)
  calc widen (widen t) = ((lexemes t).map Lexeme.padded).flatMap Lexeme.widened := by
        rw [widen, hagain]
    _ = (lexemes t).flatMap fun l => l.padded.widened := by rw [List.flatMap_map]
    _ = widen t := by simp only [Lexeme.widened_padded]; rfl

-- A letter that starts no exponent is a name of its own, and a digit of another script is none
-- of ASCII.
example : widen "7e 7e5 7. ٣7".toList = "7.0e 7e5 7. ٣7".toList := by cbv

/-! ## What is put in where -/

/-- A text has one list of lexemes.  Widening puts `.0` behind those that are whole numbers and
changes nothing else, and a second widening changes nothing at all.  The whole numbers are longest
runs of ASCII digits.  Each longest run of ASCII digits is such a number, or it lies in a lexeme
that keeps its digits as they are. -/
theorem widen_of_scans (t : Text) : ∃ ls : List Lexeme,
    (∀ ks, Scans t ks ↔ ks = ls) ∧
    ls.flatMap Lexeme.text = t ∧
    widen t = ls.flatMap (fun l => l.text ++ if l.isWhole then ['.', '0'] else []) ∧
    (∀ front l back, ls = front ++ l :: back → l.isWhole = true →
      DigitRun (front.flatMap Lexeme.text) l.text (back.flatMap Lexeme.text)) ∧
    (∀ before run behind, before ++ run ++ behind = t → DigitRun before run behind →
      ∃ front l back x y, ls = front ++ l :: back ∧ before = front.flatMap Lexeme.text ++ x ∧
        l.text = x ++ run ++ y ∧ behind = y ++ back.flatMap Lexeme.text ∧
        ((l = .number run ∧ l.isWhole = true) ∨ (l.Keeps ∧ l.isWhole = false))) ∧
    widen (widen t) = widen t := by
  have hscan : Scans t (lexemes t) := scans_iff.2 rfl
  refine ⟨lexemes t, fun ks => scans_iff.trans eq_comm, hscan.text, ?_, ?_, ?_, widen_widen t⟩
  · simp only [← Lexeme.widened_eq]
    rfl
  · intro front l back heq hl
    rw [heq] at hscan
    exact hscan.digitRun hl
  · intro before run behind ht hrun
    rw [List.append_assoc] at ht
    obtain ⟨front, l, back, x, y, heq, rfl, hl, rfl⟩ := hscan.exists_lexeme ht hrun
    rw [heq] at hscan
    have hlead := hscan.append_inv.cons_inv.1
    exact ⟨front, l, back, x, y, heq, rfl, hl, rfl, hrun.whole_or_keeps hlead hl⟩

end Reckoner.Formula
