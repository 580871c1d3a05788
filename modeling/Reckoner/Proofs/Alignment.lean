import Reckoner.Proofs.Numerals
import Reckoner.Proofs.Pieces

/-!
# The scan and the first cut

Two readers go over a formula one after the other: the scan of `widen`, and `pieces` on what the
scan leaves behind.  They cut differently.  The scan knows names, numbers and signed exponents,
and the first cut knows signs, blanks and comments.

`aligned` says what they agree on in a formula without comments.  They find the same quoted
texts, and no literal of the widened formula writes an integer, unless the scan took it for the
digits of an exponent: then it stands right behind a sign, and a literal that ends in `e` or `E`
and is no name stands before that (`Sheltered`).
-/

namespace Reckoner.Formula

open Text

/-! ## Quoted texts -/

theorem quotedRun?_cons {c : Char} {t : Text} (hquote : c ≠ '"') (hescape : c ≠ '\\') :
    quotedRun? (c :: t) = (quotedRun? t).map (c :: ·) := by
  rw [quotedRun?.eq_def]
  split
  · next h => cases h
  · next h => cases h; exact absurd rfl hescape
  · next h => cases h; exact absurd rfl hquote
  · next h => cases h; exact absurd rfl hescape
  · next h => cases h; rfl

/-- A quoted text of the scan is one of the first cut, whatever stands behind it, or has an
illegal escape. -/
theorem quotedBody_of_quotedRun? {t run : Text} (h : quotedRun? t = some run) :
    (∃ body, ∀ u, quotedBody (run ++ u) = .ok (body, u)) ∨
      ∃ f, ∀ u, quotedBody (run ++ u) = .error f := by
  fun_induction quotedRun? t generalizing run with
  | case1 => cases h
  | case2 => cases h
  | case3 t =>
    cases h
    exact .inl ⟨[], fun u => by simp [quotedBody]⟩
  | case4 => cases h
  | case5 c t hc ih =>
    obtain ⟨run, hrun, rfl⟩ := Option.map_eq_some_iff.1 h
    by_cases hescape : c = '"' ∨ c = '\\'
    · rcases ih hrun with ⟨body, hbody⟩ | ⟨f, hf⟩
      · exact .inl ⟨c :: body, fun u => by simp [quotedBody, hescape, hbody, Except.map]⟩
      · exact .inr ⟨f, fun u => by simp [quotedBody, hescape, hf, Except.map]⟩
    · exact .inr ⟨.illegalEscape (some c), fun u => by simp [quotedBody, hescape]⟩
  | case6 c t hlast hquote hescape ih =>
    obtain ⟨run, hrun, rfl⟩ := Option.map_eq_some_iff.1 h
    have hc : c ≠ '\\' := by
      rintro rfl
      cases t with
      | nil => exact hlast rfl rfl
      | cons d t => exact hescape d t rfl rfl
    have hcons : ∀ u, quotedBody ((c :: run) ++ u) =
        (quotedBody (run ++ u)).map fun r => (c :: r.1, r.2) := fun u =>
      quotedBody_cons hquote hc
    rcases ih hrun with ⟨body, hbody⟩ | ⟨f, hf⟩
    · exact .inl ⟨c :: body, fun u => by rw [hcons, hbody]; rfl⟩
    · exact .inr ⟨f, fun u => by rw [hcons, hf]; rfl⟩

/-- The first text with `.0` put behind some of its digits. -/
inductive Pads : Text → Text → Prop
  | nil : Pads [] []
  | cons {t u : Text} (c : Char) : Pads t u → Pads (c :: t) (c :: u)
  | pad {t u : Text} {c : Char} : isAsciiDigit c = true → Pads t u →
      Pads (c :: t) (c :: '.' :: '0' :: u)

theorem Pads.append {t u : Text} (h : Pads t u) (x : Text) : Pads (x ++ t) (x ++ u) := by
  induction x with
  | nil => exact h
  | cons c x ih => exact .cons c ih

/-- Behind a character that is no digit nothing is put. -/
theorem Pads.cons_inv {t u : Text} {c : Char} (h : Pads t (c :: u)) (hc : isAsciiDigit c = false) :
    ∃ t', t = c :: t' ∧ Pads t' u := by
  cases h with
  | cons _ h => exact ⟨_, rfl, h⟩
  | pad hdigit _ =>
    rw [hdigit] at hc
    cases hc

/-- Behind the first character stands a padded text, perhaps behind `.0`, which means nothing to
a quoted text. -/
theorem Pads.quoted_tail {t u : Text} {c : Char} (h : Pads t (c :: u)) :
    ∃ t' v, t = c :: t' ∧ Pads v u ∧ (quotedRun? v ≠ none → quotedRun? t' ≠ none) := by
  cases h with
  | cons _ h => exact ⟨_, _, rfl, h, id⟩
  | @pad t u _ _ h =>
    refine ⟨t, '.' :: '0' :: t, rfl, .cons '.' (.cons '0' h), fun hne => ?_⟩
    simpa [quotedRun?_cons (c := '.') (by decide) (by decide),
      quotedRun?_cons (c := '0') (by decide) (by decide)] using hne

/-- If a quote mark has a partner after padding, it has one before. -/
theorem quotedRun?_ne_none {t u body rest : Text} (hpads : Pads t u)
    (h : quotedBody u = .ok (body, rest)) : quotedRun? t ≠ none := by
  fun_induction quotedBody u generalizing t body rest with
  | case1 => cases h
  | case2 u =>
    obtain ⟨t, rfl, -⟩ := hpads.cons_inv (by decide)
    simp [quotedRun?]
  | case3 => cases h
  | case4 c u hc ih =>
    obtain ⟨t₁, rfl, hpads₁⟩ := hpads.cons_inv (by decide)
    have hdigit : isAsciiDigit c = false := by rcases hc with rfl | rfl <;> decide
    have hline : c ≠ '\n' := by rcases hc with rfl | rfl <;> decide
    obtain ⟨t₂, rfl, hpads₂⟩ := hpads₁.cons_inv hdigit
    obtain ⟨r, hr, -⟩ := exists_of_map_eq_ok h
    simpa [quotedRun?, hline] using ih hpads₂ hr
  | case5 => cases h
  | case6 c u hquote hlast hescape ih =>
    obtain ⟨r, hr, -⟩ := exists_of_map_eq_ok h
    have hc : c ≠ '\\' := by
      rintro rfl
      cases u with
      | nil => exact hlast rfl rfl
      | cons d u => exact hescape d u rfl rfl
    obtain ⟨t', v, rfl, hv, htail⟩ := hpads.quoted_tail
    simpa [quotedRun?_cons hquote hc] using htail (ih hv hr)

/-! ## The widened text -/

theorem widen_nil : widen [] = [] := by
  simp [widen, lexemes]

/-- The first lexeme is widened and put in front of what the rest becomes. -/
theorem widen_cons (c : Char) (t : Text) :
    widen (c :: t) = (firstLexeme c t).widened ++
      widen (t.drop ((firstLexeme c t).text.length - 1)) := by
  simp [widen, lexemes]

/-- The same where the text is split behind the first lexeme already. -/
theorem widen_of_firstLexeme {c : Char} {t rest : Text} {l : Lexeme} (hl : firstLexeme c t = l)
    (h : c :: t = l.text ++ rest) : widen (c :: t) = l.widened ++ widen rest := by
  obtain ⟨hsplit, -⟩ := shape_firstLexeme c t
  have hrest : t.drop ((firstLexeme c t).text.length - 1) = rest := by
    refine List.append_cancel_left (hsplit.symm.trans ?_)
    rw [hl, h]
  rw [widen_cons, hrest, hl]

theorem Shape.text_eq_cons {l : Lexeme} {rest : Text} (h : Shape l rest) :
    ∃ c run, l.text = c :: run := by
  cases h with
  | quoted _ => exact ⟨_, _, rfl⟩
  | name _ _ _ => exact ⟨_, _, rfl⟩
  | number h => exact List.exists_cons_of_ne_nil h.ne_nil
  | other _ _ _ => exact ⟨_, _, rfl⟩

theorem widened_eq_append (l : Lexeme) : ∃ z, l.widened = l.text ++ z := by
  cases l with
  | number t =>
    by_cases h : t.all isAsciiDigit = true
    · exact ⟨['.', '0'], by simp [Lexeme.widened, Lexeme.text, h]⟩
    · exact ⟨[], by simp [Lexeme.widened, Lexeme.text, h]⟩
  | _ => exact ⟨[], (List.append_nil _).symm⟩

theorem head?_widen (t : Text) : (widen t).head? = t.head? := by
  cases t with
  | nil => rw [widen_nil]
  | cons c t =>
    obtain ⟨hsplit, hshape⟩ := shape_firstLexeme c t
    obtain ⟨d, run, htext⟩ := hshape.text_eq_cons
    obtain ⟨z, hz⟩ := widened_eq_append (firstLexeme c t)
    rw [widen_cons, hz, hsplit, htext]
    rfl

theorem Pads.pad_last {t u : Text} (h : Pads t u) {n : Text} (hne : n ≠ [])
    (hn : n.all isAsciiDigit = true) : Pads (n ++ t) (n ++ ['.', '0'] ++ u) := by
  rw [← List.dropLast_concat_getLast hne, List.append_assoc, List.append_assoc, List.append_assoc]
  refine .append (.pad ?_ h) _
  exact List.all_eq_true.1 hn _ (List.getLast_mem hne)

theorem Pads.lexeme {l : Lexeme} {rest u : Text} (hshape : Shape l rest) (h : Pads rest u) :
    Pads (l.text ++ rest) (l.widened ++ u) := by
  cases hshape with
  | quoted _ => exact h.append _
  | name _ _ _ => exact h.append _
  | other _ _ _ => exact h.append _
  | @number m x _ hparts =>
    by_cases hdigits : (m ++ x).all isAsciiDigit = true
    · simp only [Lexeme.widened, Lexeme.text, hdigits, if_true]
      exact h.pad_last hparts.ne_nil hdigits
    · simp only [Lexeme.widened, Lexeme.text, hdigits]
      exact h.append _

theorem pads_widen (t : Text) : Pads t (widen t) := by
  fun_induction lexemes t with
  | case1 =>
    rw [widen_nil]
    exact .nil
  | case2 c t first ih =>
    obtain ⟨hsplit, hshape⟩ := shape_firstLexeme c t
    rw [widen_cons]
    exact hsplit ▸ Pads.lexeme hshape ih

theorem startsUncommented_slash {t : Text} :
    StartsUncommented ('/' :: t) ↔ t.head? ≠ some '/' ∧ t.head? ≠ some '*' := by
  cases t <;> simp [StartsUncommented, eq_comm]

/-- A widened text starts no comment if the text starts none. -/
theorem startsUncommented_widen {t : Text} (h : StartsUncommented t) :
    StartsUncommented (widen t) := by
  cases t with
  | nil => rwa [widen_nil]
  | cons c t =>
    by_cases hc : c = '/'
    · subst hc
      rw [widen_cons, firstLexeme_other (by decide) (by decide) (by decide)]
      show StartsUncommented ('/' :: widen t)
      rw [startsUncommented_slash, head?_widen]
      exact startsUncommented_slash.1 h
    · have hhead := head?_widen (c :: t)
      obtain ⟨u, hu⟩ := List.head?_eq_some_iff.1 hhead
      rw [hu]
      exact startsUncommented_of_ne hc

/-! ## Literals -/

/-- A literal that ends in the letter of an exponent but is neither a name nor an integer. -/
structure Exponential (t : Text) : Prop where
  notName : ¬ IsName t
  notInteger : integer? t = none
  letter : t.getLast? = some 'e' ∨ t.getLast? = some 'E'

/-- No literal writes an integer, except behind a sign and the start of an exponent.  `excused`
says that this is what stands before the pieces. -/
inductive Sheltered : Bool → List Piece → Prop
  | nil {excused : Bool} : Sheltered excused []
  | mark {excused : Bool} {p : Piece} {ps : List Piece} : (∀ t, p ≠ .literal t) →
      Sheltered false ps → Sheltered excused (p :: ps)
  | literal {excused : Bool} {t : Text} {ps : List Piece} : (excused = true ∨ integer? t = none) →
      Sheltered false ps → Sheltered excused (.literal t :: ps)
  | exponent {excused : Bool} {t : Text} {s : Sign} {ps : List Piece} : Exponential t →
      (s = .plus ∨ s = .minus) → Sheltered true ps →
      Sheltered excused (.literal t :: .sign s :: ps)

theorem Exponential.append {x t : Text} (h : Exponential t) (hname : ¬ IsName (x ++ t))
    (hinteger : integer? (x ++ t) = none) : Exponential (x ++ t) := by
  refine ⟨hname, hinteger, ?_⟩
  have hne : t ≠ [] := by
    rintro rfl
    simpa using h.letter
  rw [getLast?_append_right hne]
  exact h.letter

/-- Characters in front that neither start an integer nor complete a name. -/
theorem Sheltered.extend {x : Text} {ps : List Piece} {excused : Bool} (hx : x ≠ [])
    (hinteger : ∀ t, integer? (x ++ t) = none)
    (hname : ∀ t ps', ps = .literal t :: ps' → ¬ IsName (x ++ t)) (h : Sheltered false ps) :
    Sheltered excused (x.foldr extendLiteral ps) := by
  have hnone : integer? x = none := by simpa using hinteger []
  cases h with
  | nil =>
    rw [foldr_extendLiteral_of_ne hx (by simp)]
    exact .literal (.inr hnone) .nil
  | mark hp hps =>
    rw [foldr_extendLiteral_of_ne hx fun t _ heq => hp t (List.cons.inj heq).1]
    exact .literal (.inr hnone) (.mark hp hps)
  | literal _ hps =>
    rw [foldr_extendLiteral]
    exact .literal (.inr (hinteger _)) hps
  | exponent ht hs hps =>
    rw [foldr_extendLiteral]
    exact .exponent (ht.append (hname _ _ rfl) (hinteger _)) hs hps

/-- Digits in front of the letter of an exponent make no integer of what is no name. -/
theorem Exponential.integer?_digits {x t : Text} (h : Exponential t)
    (hdigits : ∀ c ∈ x, isDecimalDigit c = true) : integer? (x ++ t) = none := by
  cases hi : integer? (x ++ t) with
  | none => rfl
  | some n =>
    exfalso
    rcases integer?_inv hi with ⟨-, hall⟩ | ⟨u, heq, hu⟩
    · rcases h.letter with he | he
      · exact absurd (hall _ (List.mem_append_right _ (List.mem_of_getLast? he))) (by decide)
      · exact absurd (hall _ (List.mem_append_right _ (List.mem_of_getLast? he))) (by decide)
    · match x, hdigits with
      | [], _ =>
        rw [List.nil_append, h.notInteger] at hi
        cases hi
      | [_], _ =>
        obtain ⟨-, rfl⟩ := List.cons.inj heq
        exact h.notName ⟨by decide, fun c hc => continuesName_of_hexDigit? (hu c hc)⟩
      | _ :: d :: x, hdigits =>
        obtain ⟨-, heq⟩ := List.cons.inj heq
        obtain ⟨rfl, -⟩ := List.cons.inj heq
        exact absurd (hdigits 'x' (by simp)) (by decide)

/-- Digits in front, right behind the start of an exponent. -/
theorem Sheltered.extend_digits {x : Text} {ps : List Piece} (hx : x ≠ [])
    (hdigits : ∀ c ∈ x, isDecimalDigit c = true) (h : Sheltered false ps) :
    Sheltered true (x.foldr extendLiteral ps) := by
  cases h with
  | nil =>
    rw [foldr_extendLiteral_of_ne hx (by simp)]
    exact .literal (.inl rfl) .nil
  | mark hp hps =>
    rw [foldr_extendLiteral_of_ne hx fun t _ heq => hp t (List.cons.inj heq).1]
    exact .literal (.inl rfl) (.mark hp hps)
  | literal _ hps =>
    rw [foldr_extendLiteral]
    exact .literal (.inl rfl) hps
  | exponent ht hs hps =>
    rw [foldr_extendLiteral]
    refine .exponent (ht.append ?_ (ht.integer?_digits hdigits)) hs hps
    cases x with
    | nil => exact absurd rfl hx
    | cons c x =>
      intro hname
      have hstart := startsName_eq_false_of_isDecimalDigit (hdigits c List.mem_cons_self)
      rw [hname.1] at hstart
      cases hstart

/-! ## Numbers of the scan as literals -/

theorem integer?_append_eq_none {w t : Text} {c : Char} (hc : c ∈ w)
    (hdigit : isAsciiDigit c = false) (hx : 'x' ∉ w) : integer? (w ++ t) = none := by
  refine integer?_eq_none (List.mem_append_left t hc) hdigit fun u heq => ?_
  match w, hc, hx with
  | [_], hc, _ =>
    obtain ⟨rfl, -⟩ := List.cons.inj heq
    rw [List.mem_singleton.1 hc] at hdigit
    exact absurd hdigit (by decide)
  | _ :: d :: w, _, hx =>
    obtain ⟨-, heq⟩ := List.cons.inj heq
    obtain ⟨rfl, -⟩ := List.cons.inj heq
    exact hx (by simp)

theorem integer?_cons_eq_none {c : Char} (hdigit : isAsciiDigit c = false) (t : Text) :
    integer? (c :: t) = none := by
  refine integer?_eq_none List.mem_cons_self hdigit fun u heq => ?_
  obtain ⟨rfl, -⟩ := List.cons.inj heq
  exact absurd hdigit (by decide)

theorem isAsciiDigit_eq_false {c : Char} (h : isDecimalDigit c = false) :
    isAsciiDigit c = false :=
  Bool.eq_false_iff.2 fun hascii => by
    rw [isDecimalDigit_of_isAsciiDigit hascii] at h
    cases h

section Number

variable {m x : Text} (h : NumberParts isDecimalDigit m x)

include h

theorem not_mem_number : 'x' ∉ m ++ x := by
  intro hmem
  rcases h.mem hmem with hdigit | hother
  · exact absurd hdigit (by decide)
  · exact absurd hother (by decide)

theorem not_isName_number (t : Text) : ¬ IsName (m ++ t) := by
  obtain ⟨c, m, rfl⟩ := List.exists_cons_of_ne_nil h.nonempty
  intro hname
  rcases h.mantissa c List.mem_cons_self with hdigit | rfl
  · have hstart := startsName_eq_false_of_isDecimalDigit hdigit
    rw [hname.1] at hstart
    cases hstart
  · exact absurd hname.1 (by decide)

theorem integer?_widened (t : Text) : integer? ((Lexeme.number (m ++ x)).widened ++ t) = none := by
  have hx := not_mem_number h
  by_cases hdigits : (m ++ x).all isAsciiDigit = true
  · simp only [Lexeme.widened, hdigits, if_true]
    have hpoint : '.' ∈ m ++ x ++ ['.', '0'] := by simp
    refine integer?_append_eq_none hpoint (by decide) fun hmem => ?_
    rcases List.mem_append.1 hmem with hmem | hmem
    · exact hx hmem
    · exact absurd hmem (by decide)
  · simp only [Lexeme.widened, hdigits]
    obtain ⟨c, hc, hdigit⟩ := List.all_eq_false.1 (Bool.eq_false_iff.2 hdigits)
    exact integer?_append_eq_none hc (Bool.eq_false_iff.2 hdigit) hx

theorem plain_mantissa {c : Char} (hc : c ∈ m) : Plain c := by
  rcases h.mantissa c hc with hdigit | rfl
  · exact plain_of_isDecimalDigit hdigit
  · exact plain_point

theorem exponential_mantissa {e : Char} (he : e = 'e' ∨ e = 'E') : Exponential (m ++ [e]) := by
  refine ⟨not_isName_number h _, ?_, ?_⟩
  · have hmem : e ∈ m ++ [e] := by simp
    have hdigit : isAsciiDigit e = false := by rcases he with rfl | rfl <;> decide
    have hx : 'x' ∉ m ++ [e] := fun hmem => by
      rcases List.mem_append.1 hmem with hmem | hmem
      · exact not_mem_number h (List.mem_append_left _ hmem)
      · rcases he with rfl | rfl <;> exact absurd hmem (by decide)
    simpa using integer?_append_eq_none (t := []) hmem hdigit hx
  · rcases he with rfl | rfl <;> simp

end Number

theorem plain_letter {e : Char} (he : e = 'e' ∨ e = 'E') : Plain e := by
  rcases he with rfl | rfl <;> exact plain_of_continuesName (by decide)

theorem plain_widened {n : Text} (h : ∀ c ∈ n, Plain c) :
    ∀ c ∈ (Lexeme.number n).widened, Plain c := by
  intro c hc
  dsimp only [Lexeme.widened] at hc
  split at hc
  · rcases List.mem_append.1 hc with hc | hc
    · exact h c hc
    · simp only [List.mem_cons, List.not_mem_nil, or_false] at hc
      rcases hc with rfl | rfl
      · exact plain_point
      · exact plain_of_isDecimalDigit (by decide)
  · exact h c hc

/-! ## One lexeme -/

/-- What a lexeme `x` that is widened to `y` does to the pieces of the text behind it: they stay
sheltered, and the text as it is written goes on having the same quoted texts. -/
def Carries (x y rest : Text) : Prop :=
  ∀ ps, pieces (y ++ widen rest) = .ok ps → ∃ ps', pieces (widen rest) = .ok ps' ∧
    (Sheltered false ps' → Sheltered false ps) ∧
    ∀ qs', pieces rest = .ok qs' → quotedTexts qs' = quotedTexts ps' →
      ∃ qs, pieces (x ++ rest) = .ok qs ∧ quotedTexts qs = quotedTexts ps

theorem carries_plain {x y rest : Text} (hx : ∀ c ∈ x, Plain c) (hy : ∀ c ∈ y, Plain c)
    (hne : y ≠ []) (hinteger : ∀ t, integer? (y ++ t) = none) (hrest : StartsUncommented rest)
    (hname : ∀ d t, rest.head? = some d → ¬ IsName (y ++ d :: t)) : Carries x y rest := by
  intro ps h
  rw [pieces_append_plain hy] at h
  obtain ⟨ps', hps', rfl⟩ := exists_of_map_eq_ok h
  refine ⟨ps', hps', fun hs => hs.extend hne hinteger fun t ps'' heq => ?_,
    fun qs' hqs' htexts => ?_⟩
  · rw [heq] at hps'
    obtain ⟨d, t, rfl, hd⟩ := front_literal (startsUncommented_widen hrest) hps'
    exact hname d t (by rwa [head?_widen] at hd)
  · refine ⟨x.foldr extendLiteral qs', by rw [pieces_append_plain hx, hqs']; rfl, ?_⟩
    rw [quotedTexts_foldr, quotedTexts_foldr, htexts]

theorem carries_quoted {run rest : Text} (h : quotedRun? (run ++ rest) = some run) :
    Carries ('"' :: run) ('"' :: run) rest := by
  intro ps hps
  rw [List.cons_append] at hps
  obtain ⟨body, u, ps', hbody, hps', rfl⟩ := pieces_quote_inv hps
  rcases quotedBody_of_quotedRun? h with ⟨body', hbody'⟩ | ⟨f, hf⟩
  · rw [hbody'] at hbody
    cases hbody
    refine ⟨ps', hps', fun hs => .mark (by simp) hs, fun qs' hqs' htexts => ?_⟩
    refine ⟨.quoted body :: qs', ?_, by simp [quotedTexts, htexts]⟩
    rw [List.cons_append, pieces_quote (hbody' rest), hqs']
    rfl
  · rw [hf] at hbody
    cases hbody

theorem pieces_signed {m x ds : Text} {e : Char} {s : Sign}
    (hparts : NumberParts isDecimalDigit m x) (he : e = 'e' ∨ e = 'E')
    (hs : s = .plus ∨ s = .minus) (hdigits : ∀ c ∈ ds, isDecimalDigit c = true) (u : Text) :
    pieces (m ++ e :: s.char :: ds ++ u) =
      (pieces u).map fun ps => .literal (m ++ [e]) :: .sign s :: ds.foldr extendLiteral ps := by
  have hplain : ∀ c ∈ m ++ [e], Plain c := by
    intro c hc
    rcases List.mem_append.1 hc with hc | hc
    · exact plain_mantissa hparts hc
    · exact List.mem_singleton.1 hc ▸ plain_letter he
  have hslash : s.char ≠ '/' := by rcases hs with rfl | rfl <;> decide
  have hassoc : m ++ e :: s.char :: ds ++ u = (m ++ [e]) ++ (s.char :: (ds ++ u)) := by simp
  rw [hassoc, pieces_append_plain hplain, pieces_cons_sign (startsUncommented_of_ne hslash),
    pieces_append_plain fun c hc => plain_of_isDecimalDigit (hdigits c hc), map_map_except,
    map_map_except]
  congr 1
  funext ps
  rw [foldr_extendLiteral_of_ne (by simp) (by simp)]

theorem carries_signed {m x rest ds : Text} {e : Char} {s : Sign}
    (hparts : NumberParts isDecimalDigit m x) (he : e = 'e' ∨ e = 'E')
    (hs : s = .plus ∨ s = .minus) (hds : ds ≠ []) (hdigits : ∀ c ∈ ds, isDecimalDigit c = true) :
    Carries (m ++ e :: s.char :: ds) (m ++ e :: s.char :: ds) rest := by
  intro ps h
  rw [pieces_signed hparts he hs hdigits] at h
  obtain ⟨ps', hps', rfl⟩ := exists_of_map_eq_ok h
  refine ⟨ps', hps', fun hsheltered => ?_, fun qs' hqs' htexts => ?_⟩
  · exact .exponent (exponential_mantissa hparts he) hs (hsheltered.extend_digits hds hdigits)
  · refine ⟨_, by rw [pieces_signed hparts he hs hdigits, hqs']; rfl, ?_⟩
    simp only [quotedTexts, quotedTexts_foldr, htexts]

theorem carries_other {c : Char} {rest : Text} (hstart : startsName c = false)
    (hdigit : isDecimalDigit c = false) (hquote : c = '"' → quotedRun? rest = none)
    (hc : StartsUncommented (c :: rest)) (hrest : StartsUncommented rest) :
    Carries [c] [c] rest := by
  by_cases hq : c = '"'
  · subst hq
    intro ps h
    obtain ⟨body, u, _, hbody, -, -⟩ := pieces_quote_inv h
    exact absurd (hquote rfl) (quotedRun?_ne_none (pads_widen rest) hbody)
  · have hwiden : StartsUncommented (c :: widen rest) := by
      by_cases hslash : c = '/'
      · subst hslash
        rw [startsUncommented_slash] at hc ⊢
        rwa [head?_widen]
      · exact startsUncommented_of_ne hslash
    by_cases hplain : Plain c
    · have hsingle : ∀ d ∈ [c], Plain d := fun d hd => List.mem_singleton.1 hd ▸ hplain
      refine carries_plain hsingle hsingle (by simp)
        (integer?_cons_eq_none (isAsciiDigit_eq_false hdigit)) hrest fun d t _ hname => ?_
      rw [hname.1] at hstart
      cases hstart
    · obtain ⟨p, hliteral, hquoted, hcons⟩ := exists_mark hq hplain
      intro ps h
      rw [List.singleton_append, hcons _ hwiden] at h
      obtain ⟨ps', hps', rfl⟩ := exists_of_map_eq_ok h
      refine ⟨ps', hps', fun hs => .mark hliteral hs, fun qs' hqs' htexts => ?_⟩
      refine ⟨p :: qs', by rw [List.singleton_append, hcons _ hc, hqs']; rfl, ?_⟩
      rw [quotedTexts_mark hquoted, quotedTexts_mark hquoted, htexts]

theorem Shape.carries {l : Lexeme} {rest : Text} (h : Shape l rest)
    (hc : StartsUncommented (l.text ++ rest)) (hrest : StartsUncommented rest) :
    Carries l.text l.widened rest := by
  cases h with
  | quoted h => exact carries_quoted h
  | other hstart hdigit hquote => exact carries_other hstart hdigit hquote hc hrest
  | @name c run _ hstart hrun hnext =>
    have hname : IsName (c :: run) := ⟨hstart, hrun⟩
    have hplain : ∀ d ∈ c :: run, Plain d := fun d hd =>
      plain_of_continuesName (hname.continuesName d hd)
    have hdigit : isAsciiDigit c = false := isAsciiDigit_eq_false <| Bool.eq_false_iff.2 fun h => by
      rw [startsName_eq_false_of_isDecimalDigit h] at hstart
      cases hstart
    refine carries_plain hplain hplain (List.cons_ne_nil c run)
      (fun t => integer?_cons_eq_none hdigit (run ++ t)) hrest fun d t hd hlonger => ?_
    have hcontinues := hlonger.continuesName d (by simp [Lexeme.widened, Lexeme.text])
    rw [hnext d hd] at hcontinues
    cases hcontinues
  | @number m x _ hparts =>
    have hunsigned : (∀ c ∈ x, Plain c) →
        Carries (m ++ x) (Lexeme.number (m ++ x)).widened rest := by
      intro hx
      obtain ⟨z, hz⟩ := widened_eq_append (.number (m ++ x))
      have hplain : ∀ c ∈ m ++ x, Plain c := fun c hc =>
        (List.mem_append.1 hc).elim (plain_mantissa hparts) (hx c)
      have hne : (Lexeme.number (m ++ x)).widened ≠ [] := by
        rw [hz]
        simp [Lexeme.text, hparts.nonempty]
      refine carries_plain hplain (plain_widened hplain) hne (integer?_widened hparts) hrest
        fun d t _ => ?_
      rw [hz]
      simpa [Lexeme.text] using not_isName_number hparts (x ++ (z ++ d :: t))
    rcases hparts.exponent with rfl | ⟨e, s, ds, rfl, he, hs, hds, hdigits⟩
    · exact hunsigned (by simp)
    · have hsigned : ∀ s : Sign, s = .plus ∨ s = .minus →
          Carries (m ++ e :: s.char :: ds) (Lexeme.number (m ++ e :: s.char :: ds)).widened
            rest := by
        intro s hs
        have hkept : (Lexeme.number (m ++ e :: s.char :: ds)).widened = m ++ e :: s.char :: ds := by
          have he : isAsciiDigit e = false := by rcases he with rfl | rfl <;> decide
          simp [Lexeme.widened, he]
        rw [hkept]
        exact carries_signed hparts he hs hds hdigits
      rcases hs with rfl | rfl | rfl
      · refine hunsigned fun c hc => ?_
        rcases List.mem_cons.1 hc with rfl | hc
        · exact plain_letter he
        · exact plain_of_isDecimalDigit (hdigits c hc)
      · exact hsigned .plus (.inl rfl)
      · exact hsigned .minus (.inr rfl)

/-- In a formula without comments the literals of the widened text are sheltered, and the quoted
texts are those of the formula as it is written. -/
theorem aligned {t : Text} (hc : Uncommented t) {ps : List Piece}
    (h : pieces (widen t) = .ok ps) :
    Sheltered false ps ∧ ∃ qs, pieces t = .ok qs ∧ quotedTexts qs = quotedTexts ps := by
  fun_induction lexemes t generalizing ps with
  | case1 =>
    rw [widen_nil, pieces_nil] at h
    cases h
    exact ⟨.nil, [], pieces_nil, rfl⟩
  | case2 c t first ih =>
    obtain ⟨hsplit, hshape⟩ := shape_firstLexeme c t
    rw [widen_cons] at h
    rw [hsplit] at hc ⊢
    obtain ⟨ps', hps', hsheltered, htexts⟩ := hshape.carries hc.starts hc.of_append.starts ps h
    obtain ⟨hs, qs', hqs', heq⟩ := ih hc.of_append hps'
    exact ⟨hsheltered hs, htexts qs' hqs' heq⟩

end Reckoner.Formula
