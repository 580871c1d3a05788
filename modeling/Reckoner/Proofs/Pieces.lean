import Reckoner.Proofs.Leaves
import Reckoner.Proofs.Names

/-!
# The first cut, one character at a time

`pieces` of a text in terms of `pieces` of what follows its first characters.  A plain character
joins the literal that comes first, and a sign or blank is a piece of its own.  A quote mark is
followed to its partner, and a slash is a sign unless it starts a comment.
-/

namespace Reckoner.Formula

open Text

/-! ## Comments -/

/-- Whether a text starts no comment. -/
def StartsUncommented (t : Text) : Prop :=
  ¬ ['/', '/'] <+: t ∧ ¬ ['/', '*'] <+: t

/-- Whether neither `//` nor `/*` occurs in a text. -/
def Uncommented (t : Text) : Prop :=
  ¬ ['/', '/'] <:+: t ∧ ¬ ['/', '*'] <:+: t

instance (t : Text) : Decidable (Uncommented t) := inferInstanceAs (Decidable (_ ∧ _))

theorem Uncommented.of_append {s t : Text} (h : Uncommented (s ++ t)) : Uncommented t :=
  ⟨fun hin => h.1 (hin.trans (List.suffix_append s t).isInfix),
    fun hin => h.2 (hin.trans (List.suffix_append s t).isInfix)⟩

theorem Uncommented.starts {t : Text} (h : Uncommented t) : StartsUncommented t :=
  ⟨fun hp => h.1 hp.isInfix, fun hp => h.2 hp.isInfix⟩

theorem pieces_nil : pieces [] = .ok [] := by
  rw [pieces]

theorem pieces_cons {c : Char} {t : Text} (hquote : c ≠ '"') (hstart : StartsUncommented (c :: t)) :
    pieces (c :: t) =
      match Sign.ofChar? c with
      | some s => (pieces t).map (.sign s :: ·)
      | none =>
          if isBlank c then (pieces t).map (.blank :: ·)
          else (pieces t).map (extendLiteral c) := by
  rw [pieces.eq_def]
  split
  · next h => cases h
  · next h => cases h; exact absurd rfl hquote
  · next h => cases h; exact absurd (by simp) hstart.1
  · next h => cases h; exact absurd (by simp) hstart.2
  · next h => cases h; rfl

theorem startsUncommented_of_ne {c : Char} {t : Text} (h : c ≠ '/') :
    StartsUncommented (c :: t) := by
  constructor <;> simp [h.symm]

theorem pieces_cons_plain {c : Char} {t : Text} (h : Plain c) :
    pieces (c :: t) = (pieces t).map (extendLiteral c) := by
  obtain ⟨hsign, hblank, hquote⟩ := h
  have hne : c ≠ '/' := by
    rintro rfl
    cases hsign
  rw [pieces_cons hquote (startsUncommented_of_ne hne), hsign]
  simp [hblank]

theorem map_map_except {ε α β γ : Type} (f : α → β) (g : β → γ) (e : Except ε α) :
    (e.map f).map g = e.map fun a => g (f a) := by
  cases e <;> rfl

/-- Plain characters in front of a text join the literal that comes first. -/
theorem pieces_append_plain {x t : Text} (h : ∀ c ∈ x, Plain c) :
    pieces (x ++ t) = (pieces t).map fun ps => x.foldr extendLiteral ps := by
  induction x with
  | nil => cases hp : pieces t <;> simp [hp, Except.map]
  | cons c x ih =>
    obtain ⟨hc, hx⟩ := List.forall_mem_cons.1 h
    rw [List.cons_append, pieces_cons_plain hc, ih hx, map_map_except]
    rfl

theorem foldr_extendLiteral (x t : Text) (ps : List Piece) :
    x.foldr extendLiteral (.literal t :: ps) = .literal (x ++ t) :: ps := by
  induction x with
  | nil => rfl
  | cons c x ih =>
    rw [List.foldr_cons, ih]
    rfl

theorem foldr_extendLiteral_of_ne {x : Text} (hx : x ≠ []) {ps : List Piece}
    (hps : ∀ t ps', ps ≠ .literal t :: ps') : x.foldr extendLiteral ps = .literal x :: ps := by
  induction x with
  | nil => exact absurd rfl hx
  | cons c x ih =>
    cases x with
    | nil =>
      cases ps with
      | nil => rfl
      | cons p ps =>
        cases p with
        | literal t => exact absurd rfl (hps t ps)
        | _ => rfl
    | cons d x =>
      rw [List.foldr_cons, ih (by simp)]
      rfl

theorem pieces_quote {t body rest : Text} (h : quotedBody t = .ok (body, rest)) :
    pieces ('"' :: t) = (pieces rest).map (.quoted body :: ·) := by
  rw [pieces]
  split
  · next heq =>
    rw [h] at heq
    cases heq
  · next heq =>
    rw [h] at heq
    cases heq
    rfl

theorem pieces_quote_inv {t : Text} {ps : List Piece} (h : pieces ('"' :: t) = .ok ps) :
    ∃ body rest ps', quotedBody t = .ok (body, rest) ∧ pieces rest = .ok ps' ∧
      ps = .quoted body :: ps' := by
  rw [pieces] at h
  split at h
  · cases h
  · next body rest hbody =>
    obtain ⟨ps', hps', rfl⟩ := exists_of_map_eq_ok h
    exact ⟨body, rest, ps', hbody, hps', rfl⟩

/-- The literal that comes first starts with the first character. -/
theorem front_literal {t m : Text} {ps : List Piece} (hstart : StartsUncommented t)
    (h : pieces t = .ok (.literal m :: ps)) : ∃ c m', m = c :: m' ∧ t.head? = some c := by
  cases t with
  | nil =>
    rw [pieces_nil] at h
    cases h
  | cons c t =>
    by_cases hquote : c = '"'
    · subst hquote
      obtain ⟨_, _, _, -, -, heq⟩ := pieces_quote_inv h
      cases heq
    · rw [pieces_cons hquote hstart] at h
      split at h
      · obtain ⟨_, -, heq⟩ := exists_of_map_eq_ok h
        cases heq
      · split at h
        · obtain ⟨_, -, heq⟩ := exists_of_map_eq_ok h
          cases heq
        · obtain ⟨qs, -, heq⟩ := exists_of_map_eq_ok h
          unfold extendLiteral at heq
          split at heq
          · cases heq
            exact ⟨c, _, rfl, rfl⟩
          · cases heq
            exact ⟨c, [], rfl, rfl⟩

theorem pieces_cons_sign {s : Sign} {t : Text} (hstart : StartsUncommented (s.char :: t)) :
    pieces (s.char :: t) = (pieces t).map (.sign s :: ·) := by
  have hquote : s.char ≠ '"' := by cases s <;> decide
  rw [pieces_cons hquote hstart, ofChar?_char]

/-- A character that is neither part of a literal nor a quote mark is a piece of its own. -/
theorem exists_mark {c : Char} (hquote : c ≠ '"') (hplain : ¬ Plain c) :
    ∃ p : Piece, (∀ t, p ≠ .literal t) ∧ (∀ t, p ≠ .quoted t) ∧
      ∀ u, StartsUncommented (c :: u) → pieces (c :: u) = (pieces u).map (p :: ·) := by
  cases hs : Sign.ofChar? c with
  | some s =>
    refine ⟨.sign s, by simp, by simp, fun u hu => ?_⟩
    rw [pieces_cons hquote hu, hs]
  | none =>
    have hblank : isBlank c = true := by
      cases hb : isBlank c with
      | true => rfl
      | false => exact absurd ⟨hs, hb, hquote⟩ hplain
    refine ⟨.blank, by simp, by simp, fun u hu => ?_⟩
    rw [pieces_cons hquote hu, hs]
    simp [hblank]

/-! ## Quoted texts -/

/-- The contents of the quoted texts among pieces, in order. -/
def quotedTexts : List Piece → List Text
  | [] => []
  | .quoted t :: ps => t :: quotedTexts ps
  | _ :: ps => quotedTexts ps

theorem quotedTexts_mark {p : Piece} {ps : List Piece} (hp : ∀ t, p ≠ .quoted t) :
    quotedTexts (p :: ps) = quotedTexts ps := by
  cases p with
  | quoted t => exact absurd rfl (hp t)
  | _ => rfl

theorem quotedTexts_foldr (x : Text) (ps : List Piece) :
    quotedTexts (x.foldr extendLiteral ps) = quotedTexts ps := by
  induction x with
  | nil => rfl
  | cons c x ih =>
    rw [List.foldr_cons, ← ih]
    generalize x.foldr extendLiteral ps = qs
    cases qs with
    | nil => rfl
    | cons p qs => cases p <;> rfl

theorem quotedBody_cons {c : Char} {t : Text} (hquote : c ≠ '"') (hescape : c ≠ '\\') :
    quotedBody (c :: t) = (quotedBody t).map fun r => (c :: r.1, r.2) := by
  rw [quotedBody.eq_def]
  split
  · next h => cases h
  · next h => cases h; exact absurd rfl hquote
  · next h => cases h; exact absurd rfl hescape
  · next h => cases h; exact absurd rfl hescape
  · next h => cases h; rfl

end Reckoner.Formula
