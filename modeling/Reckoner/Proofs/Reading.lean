import Reckoner.Calculator
import Reckoner.Proofs.Expression
import Reckoner.Proofs.Scan
import Reckoner.Proofs.Words

/-!
# Reading a printed expression

A printed expression is read symbol by symbol.  Between two symbols stands a space, and none of
the readers goes across it: the query is one candidate as a whole (`head?_candidates_text`), it
is in upper case already (`upper_text`), each literal of digits alone gets its `.0`
(`widen_spaced`), and each symbol is cut to one piece and read as one token (`parse_spaced`).

A literal is worth the same with `.0` behind it (`float_widened`), for any number of digits.
-/

namespace Reckoner

open Text (join isAsciiDigit isDecimalDigit)

namespace Formula

open Number (Decimal ofDigits run_append)

/-! ## Literals -/

namespace Literal

/-- A literal with `.0` behind it if it consists of digits alone. -/
def widened (d : Literal) : Literal where
  whole := d.whole
  fraction := some (d.fraction.getD ['0'])
  nonempty := d.nonempty
  digits := d.digits
  places := by
    intro t ht c hc
    cases hf : d.fraction with
    | none =>
      rw [hf] at ht
      cases ht
      rw [List.mem_singleton.1 hc]
      decide
    | some u =>
      rw [hf] at ht
      cases ht
      exact d.places u hf c hc

/-- A literal is worth the same with `.0` behind it. -/
theorem float_widened (d : Literal) : d.widened.float = d.float := by
  cases hf : d.fraction with
  | none =>
    have hdigits : ofDigits (d.whole ++ ['0']) = ofDigits d.whole * Number.tenTo 1 := by
      rw [Number.ofDigits_append]
      rfl
    simp only [float, widened, hf, Option.getD_some, Option.getD_none, hdigits, Decimal.toFloat,
      List.append_nil, List.length_singleton, List.length_nil]
    exact congrArg _ (Decimal.bits_mul_tenTo (ofDigits d.whole) 1 (-1))
  | some t => simp only [float, widened, hf, Option.getD_some]

theorem text_widened (d : Literal) : d.widened.text = d.whole ++ '.' :: d.fraction.getD ['0'] := rfl

/-- The characters of a literal are digits and points. -/
theorem mem_text {d : Literal} {c : Char} (hc : c ∈ d.text) : isAsciiDigit c = true ∨ c = '.' := by
  cases hf : d.fraction with
  | none =>
    rw [text_of_none hf] at hc
    exact .inl (d.digits c hc)
  | some t =>
    rw [text_of_some hf] at hc
    rcases List.mem_append.1 hc with hc | hc
    · exact .inl (d.digits c hc)
    · rcases List.mem_cons.1 hc with rfl | hc
      · exact .inr rfl
      · exact .inl (d.places t hf c hc)

/-- A literal starts with a digit. -/
theorem exists_text_eq_cons (d : Literal) :
    ∃ c t, d.text = c :: t ∧ isAsciiDigit c = true := by
  obtain ⟨c, t, hwhole⟩ := List.exists_cons_of_ne_nil d.nonempty
  have hdigit : isAsciiDigit c = true := d.digits c (by simp [hwhole])
  cases hf : d.fraction with
  | none => exact ⟨c, t, (text_of_none hf).trans hwhole, hdigit⟩
  | some u =>
    rw [text_of_some hf, hwhole]
    exact ⟨c, _, rfl, hdigit⟩

theorem not_mem_text {d : Literal} {c : Char} (hdigit : isAsciiDigit c = false) (hpoint : c ≠ '.') :
    c ∉ d.text := by
  intro hc
  rcases mem_text hc with hc | hc
  · rw [hdigit] at hc
    cases hc
  · exact hpoint hc

theorem signed_text (d : Literal) : Number.signed d.text = (false, d.text) := by
  unfold Number.signed
  split
  · next t ht => exact absurd (by simp [ht]) (not_mem_text (d := d) (c := '-') rfl (by decide))
  · next t ht => exact absurd (by simp [ht]) (not_mem_text (d := d) (c := '+') rfl (by decide))
  · rfl

/-- No word is written with digits and points. -/
theorem text_not_word (d : Literal) {c : Char} {w : Text} (hc : 'A'.toNat ≤ c.toNat) :
    d.text.map Char.toLower ≠ c :: w := by
  intro h
  obtain ⟨e, t, htext, hdigit⟩ := d.exists_text_eq_cons
  have hle : e.toNat ≤ '9'.toNat := (Text.toNat_of_isAsciiDigit hdigit).2
  rw [htext] at h
  obtain ⟨hlower, -⟩ := List.cons.inj h
  have hsame : e.toLower = e := by
    refine dif_neg fun hcapital => ?_
    have hlow : 'A'.toNat ≤ e.toNat := hcapital.1
    exact absurd (Nat.le_trans hlow hle) (by decide)
  rw [← hlower, hsame] at hc
  exact absurd (Nat.le_trans hc hle) (by decide)

theorem decimal?_text_widened (d : Literal) :
    Number.decimal? d.widened.text =
      some ⟨ofDigits (d.whole ++ d.fraction.getD ['0']), -(d.fraction.getD ['0']).length⟩ := by
  have hplaces : ∀ c ∈ d.fraction.getD ['0'], isAsciiDigit c = true := d.widened.places _ rfl
  obtain ⟨htake, hdrop⟩ := run_append d.digits (t := '.' :: d.fraction.getD ['0'])
    (fun c hc => by cases hc; decide)
  obtain ⟨hall, hnone⟩ := run_append hplaces (t := []) (fun c hc => by cases hc)
  rw [List.append_nil] at hall hnone
  unfold Number.decimal?
  simp only [text_widened, htake, hdrop, hall, hnone, d.nonempty, false_and, if_false]

theorem numeral?_text_widened (d : Literal) : Number.numeral? d.widened.text = some d.float := by
  unfold Number.numeral? Number.unsigned?
  rw [signed_text]
  simp only [if_neg (d.widened.text_not_word (c := 'n') (w := ['a', 'n']) (by decide)),
    if_neg (not_or.2 ⟨d.widened.text_not_word (c := 'i') (w := ['n', 'f']) (by decide),
      d.widened.text_not_word (c := 'i') (w := ['n', 'f', 'i', 'n', 'i', 't', 'y']) (by decide)⟩),
    decimal?_text_widened, Option.map_some]
  rw [← float_widened]
  rfl

/-- A literal with a point is no integer but the float it writes. -/
theorem literalValue?_text_widened (d : Literal) :
    literalValue? d.widened.text = some (.float d.float) := by
  have hpoint : '.' ∈ d.widened.text := by simp [text_widened]
  have hinteger : integer? d.widened.text = none := by
    refine integer?_eq_none hpoint (by decide) fun u hu => ?_
    exact not_mem_text (d := d.widened) (c := 'x') rfl (by decide) (by simp [hu])
  rw [literalValue?, hinteger, numeral?_text_widened]

end Literal

/-! ## Symbols -/

/-- Whether a text starts with a space or is empty, so that it is no part of a symbol in front of
it. -/
def StartsApart (t : Text) : Prop := ∀ c, t.head? = some c → c = ' '

theorem startsApart_nil : StartsApart [] := by
  intro c hc
  cases hc

theorem startsApart_space (t : Text) : StartsApart (' ' :: t) := by
  intro c hc
  exact (Option.some.inj hc).symm

theorem StartsApart.class_eq_false {t : Text} (h : StartsApart t) {p : Char → Bool}
    (hp : p ' ' = false) : ∀ c, t.head? = some c → p c = false := by
  intro c hc
  rw [h c hc, hp]

namespace Literal

theorem isDecimalDigit_whole (d : Literal) : ∀ c ∈ d.whole, isDecimalDigit c = true :=
  fun c hc => Text.isDecimalDigit_of_isAsciiDigit (d.digits c hc)

theorem isMantissa_text (d : Literal) : IsMantissa d.text := by
  cases hf : d.fraction with
  | none =>
    rw [text_of_none hf]
    exact .whole d.nonempty d.isDecimalDigit_whole
  | some u =>
    rw [text_of_some hf]
    exact .point (.inl d.nonempty) d.isDecimalDigit_whole fun c hc =>
      Text.isDecimalDigit_of_isAsciiDigit (d.places u hf c hc)

/-- Apart from what stands behind it, a literal is a lexeme. -/
theorem leads_text (d : Literal) {t : Text} (ht : StartsApart t) : Leads (.number d.text) t := by
  have hexponent : exponentRun t = [] := by
    cases t with
    | nil => rfl
    | cons c t =>
      rw [ht c rfl]
      rfl
  refine .number (longest_number_iff.2 ⟨d.isMantissa_text.isNumber, ?_⟩)
  exact ⟨ht.class_eq_false (by decide), fun _ hc => absurd (ht '.' hc) (by decide),
    fun _ => hexponent⟩

theorem widened_number (d : Literal) : (Lexeme.number d.text).widened = d.widened.text := by
  rw [text_widened]
  cases hf : d.fraction with
  | none =>
    rw [text_of_none hf]
    exact if_pos (List.all_eq_true.2 d.digits)
  | some u =>
    rw [text_of_some hf]
    refine if_neg fun hall => ?_
    have hpoint := List.all_eq_true.1 hall '.' (by simp)
    exact absurd hpoint (by decide)

theorem widen_text (d : Literal) {t : Text} (ht : StartsApart t) :
    widen (d.text ++ t) = d.widened.text ++ widen t := by
  rw [← widened_number]
  exact (d.leads_text ht).widen_eq

end Literal

theorem widen_name {n t : Text} (hn : IsName n) (ht : StartsApart t) :
    widen (n ++ t) = n ++ widen t := by
  have hlead : Leads (.name n) t :=
    .name (longest_name_iff.2 ⟨hn, ht.class_eq_false (by decide)⟩)
  exact hlead.widen_eq

theorem widen_other {c : Char} (hstart : startsName c = false) (hdigit : isDecimalDigit c = false)
    (hmark : c ≠ '"' ∧ c ≠ '.') (t : Text) : widen (c :: t) = c :: widen t :=
  widen_of_firstLexeme (firstLexeme_other hstart hdigit hmark t) rfl

theorem widen_sign (s : Sign) (t : Text) : widen (s.char :: t) = s.char :: widen t := by
  refine widen_other ?_ ?_ ?_ t <;> cases s <;> decide

namespace Symbol

/-- A symbol as the grammar reads it, with `.0` behind a literal of digits alone. -/
def widened : Symbol → Symbol
  | .numeral d => .numeral d.widened
  | s => s

/-- The piece that a symbol is cut to. -/
def piece : Symbol → Piece
  | .numeral d => .literal d.text
  | .name t => .literal t
  | .sign s => .sign s

/-- The token that a symbol is read as. -/
def token? : Symbol → Option Token
  | .numeral d => some (.value (.float d.float))
  | .name t => some (.name t)
  | .sign s => s.alone?

/-- Whether a symbol is read as one token: a name is an identifier in upper case that is no
literal, and a sign is one on its own. -/
def Legible : Symbol → Prop
  | .numeral _ => True
  | .name t => IsName t ∧ Text.upper t = t ∧ literalValue? t = none
  | .sign s => ∃ token, s.alone? = some token

theorem exists_text_eq_cons {s : Symbol} (h : s.Legible) : ∃ c t, s.text = c :: t := by
  cases s with
  | numeral d =>
    obtain ⟨c, t, ht, -⟩ := d.exists_text_eq_cons
    exact ⟨c, t, ht⟩
  | name t =>
    cases t with
    | nil => exact h.1.elim
    | cons c t => exact ⟨c, t, rfl⟩
  | sign s => exact ⟨s.char, [], rfl⟩

theorem space_not_mem_text {s : Symbol} (h : s.Legible) : ' ' ∉ s.text := by
  cases s with
  | numeral d => exact Literal.not_mem_text rfl (by decide)
  | name t =>
    intro hspace
    have hblank := isBlank_eq_false_of_continuesName (h.1.continuesName _ hspace)
    exact absurd hblank (by decide)
  | sign s => cases s <;> decide

theorem upper_text {s : Symbol} (h : s.Legible) : Text.upper s.text = s.text := by
  cases s with
  | numeral d =>
    refine Text.upper_of_lt fun c hc => ?_
    rcases Literal.mem_text hc with hdigit | rfl
    · exact Nat.lt_of_le_of_lt (Text.toNat_of_isAsciiDigit hdigit).2 (by decide)
    · decide
  | name t => exact h.2.1
  | sign s => cases s <;> decide

theorem widen_text {s : Symbol} (h : s.Legible) {t : Text} (ht : StartsApart t) :
    widen (s.text ++ t) = s.widened.text ++ widen t := by
  cases s with
  | numeral d => exact d.widen_text ht
  | name n => exact widen_name h.1 ht
  | sign s => exact widen_sign s t

theorem Legible.widened {s : Symbol} (h : s.Legible) : s.widened.Legible := by
  cases s with
  | numeral d => exact trivial
  | _ => exact h

theorem plain_of_mem_text {s : Symbol} (h : s.Legible) (hs : ∀ sign, s ≠ .sign sign) :
    ∀ c ∈ s.text, Plain c := by
  intro c hc
  cases s with
  | numeral d =>
    rcases Literal.mem_text hc with hdigit | rfl
    · exact plain_of_isDecimalDigit (Text.isDecimalDigit_of_isAsciiDigit hdigit)
    · exact plain_point
  | name t => exact plain_of_continuesName (h.1.continuesName c hc)
  | sign s => exact absurd rfl (hs s)

end Symbol

theorem pieces_space (t : Text) : pieces (' ' :: t) = (pieces t).map (.blank :: ·) := by
  rw [pieces_cons (by decide) (startsUncommented_of_ne (by decide))]
  rfl

theorem ne_literal_of_startsApart {t : Text} {ps : List Piece} (ht : StartsApart t)
    (h : pieces t = .ok ps) : ∀ m ps', ps ≠ .literal m :: ps' := by
  rintro m ps' rfl
  cases t with
  | nil =>
    rw [pieces_nil] at h
    cases h
  | cons c t =>
    rw [ht c rfl, pieces_space] at h
    obtain ⟨qs, -, heq⟩ := exists_of_map_eq_ok h
    cases heq

theorem tokens_literal {t : Text} {ps : List Piece} (hps : ps = [] ∨ ∃ qs, ps = .blank :: qs) :
    tokens (.literal t :: ps) =
      match literalValue? t with
      | some v => (tokens ps).map (.value v :: ·)
      | none => (tokens ps).map (.name t :: ·) := by
  rcases hps with rfl | ⟨qs, rfl⟩ <;> rfl

theorem tokens_sign {s : Sign} {ps : List Piece} (hps : ps = [] ∨ ∃ qs, ps = .blank :: qs) :
    tokens (.sign s :: ps) =
      match s.alone? with
      | some token => (tokens ps).map (token :: ·)
      | none => .error (.halfSign s ps.head?) := by
  rcases hps with rfl | ⟨qs, rfl⟩ <;> cases s <;> rfl

namespace Symbol

/-- A symbol in front of a space or the end is a piece of its own. -/
theorem pieces_text {s : Symbol} (h : s.Legible) {t : Text} (ht : StartsApart t) {ps : List Piece}
    (hps : pieces t = .ok ps) : pieces (s.text ++ t) = .ok (s.piece :: ps) := by
  have hliteral : (∀ sign, s ≠ .sign sign) →
      pieces (s.text ++ t) = .ok (.literal s.text :: ps) := by
    intro hs
    obtain ⟨c, u, htext⟩ := exists_text_eq_cons h
    have hne : s.text ≠ [] := by simp [htext]
    rw [pieces_append_plain (plain_of_mem_text h hs), hps]
    exact congrArg Except.ok (foldr_extendLiteral_of_ne hne (ne_literal_of_startsApart ht hps))
  cases s with
  | numeral d => exact hliteral (by simp)
  | name n => exact hliteral (by simp)
  | sign s =>
    have hstart : StartsUncommented (s.char :: t) := by
      by_cases hslash : s.char = '/'
      · rw [hslash, startsUncommented_slash]
        constructor <;> intro hhead <;> exact absurd (ht _ hhead) (by decide)
      · exact startsUncommented_of_ne hslash
    show pieces (s.char :: t) = _
    rw [pieces_cons_sign hstart, hps]
    rfl

/-- A piece in front of a blank or the end is a token of its own. -/
theorem tokens_piece {s : Symbol} (h : s.Legible) {ps : List Piece}
    (hps : ps = [] ∨ ∃ qs, ps = .blank :: qs) {ts : List Token} (hts : tokens ps = .ok ts) :
    tokens (s.widened.piece :: ps) = .ok (s.token?.toList ++ ts) := by
  cases s with
  | numeral d =>
    show tokens (.literal d.widened.text :: ps) = _
    rw [tokens_literal hps, d.literalValue?_text_widened, hts]
    rfl
  | name t =>
    show tokens (.literal t :: ps) = _
    rw [tokens_literal hps, h.2.2, hts]
    rfl
  | sign s =>
    obtain ⟨token, htoken⟩ := h
    show tokens (.sign s :: ps) = .ok (s.alone?.toList ++ ts)
    rw [tokens_sign hps, htoken, hts]
    rfl

end Symbol

/-! ## Lists of symbols -/

theorem spaced_cons_cons (s next : Symbol) (ss : List Symbol) :
    spaced (s :: next :: ss) = s.text ++ ' ' :: spaced (next :: ss) := rfl

section Spaced

variable {ss : List Symbol} (h : ∀ s ∈ ss, s.Legible)

include h

theorem words_spaced : words (spaced ss) = ss.map Symbol.text := by
  refine words_join fun part hpart => ?_
  obtain ⟨s, hs, rfl⟩ := List.mem_map.1 hpart
  obtain ⟨c, t, htext⟩ := Symbol.exists_text_eq_cons (h s hs)
  exact ⟨by simp [htext], Symbol.space_not_mem_text (h s hs)⟩

theorem upper_spaced : Text.upper (spaced ss) = spaced ss := by
  rw [spaced, Text.upper_join, List.map_map]
  exact congrArg _ (List.map_congr_left fun s hs => Symbol.upper_text (h s hs))

theorem widen_spaced : widen (spaced ss) = spaced (ss.map Symbol.widened) := by
  induction ss with
  | nil => exact widen_nil
  | cons s ss ih =>
    obtain ⟨hs, hss⟩ := List.forall_mem_cons.1 h
    cases ss with
    | nil =>
      have hlast := Symbol.widen_text hs startsApart_nil
      rwa [widen_nil, List.append_nil, List.append_nil] at hlast
    | cons next ss =>
      rw [spaced_cons_cons, Symbol.widen_text hs (startsApart_space _),
        widen_other (by decide) (by decide) (by decide), ih hss]
      rfl

theorem pieces_spaced : pieces (spaced ss) = .ok ((ss.map Symbol.piece).intersperse .blank) := by
  induction ss with
  | nil => exact pieces_nil
  | cons s ss ih =>
    obtain ⟨hs, hss⟩ := List.forall_mem_cons.1 h
    cases ss with
    | nil =>
      have hlast := Symbol.pieces_text hs startsApart_nil pieces_nil
      rwa [List.append_nil] at hlast
    | cons next ss =>
      have hrest : pieces (' ' :: spaced (next :: ss)) =
          .ok (.blank :: ((next :: ss).map Symbol.piece).intersperse .blank) := by
        rw [pieces_space, ih hss]
        rfl
      exact Symbol.pieces_text hs (startsApart_space _) hrest

theorem tokens_spaced :
    tokens ((ss.map fun s => s.widened.piece).intersperse .blank) =
      .ok (ss.filterMap Symbol.token?) := by
  induction ss with
  | nil => rfl
  | cons s ss ih =>
    obtain ⟨hs, hss⟩ := List.forall_mem_cons.1 h
    have htokens : (s :: ss).filterMap Symbol.token? =
        s.token?.toList ++ ss.filterMap Symbol.token? := by
      rw [List.filterMap_cons]
      cases s.token? <;> rfl
    rw [htokens]
    cases ss with
    | nil => exact Symbol.tokens_piece hs (.inl rfl) rfl
    | cons next ss => exact Symbol.tokens_piece hs (.inr ⟨_, rfl⟩) (ih hss)

/-- Spaced symbols are read as one token each. -/
theorem parse_spaced : parse (widen (spaced ss)) = tree (ss.filterMap Symbol.token?) := by
  have hwidened : ∀ u ∈ ss.map Symbol.widened, u.Legible := by
    intro u hu
    obtain ⟨s, hs, rfl⟩ := List.mem_map.1 hu
    exact (h s hs).widened
  have hpieces : pieces (spaced (ss.map Symbol.widened)) =
      .ok ((ss.map fun s => s.widened.piece).intersperse .blank) := by
    rw [pieces_spaced hwidened, List.map_map]
    rfl
  rw [widen_spaced h]
  unfold parse
  rw [hpieces]
  dsimp only
  rw [tokens_spaced h]

end Spaced

/-! ## Expressions -/

theorem Constant.legible (k : Constant) : (Symbol.name k.name).Legible := by
  refine ⟨k.isName, k.upper, ?_⟩
  have hinteger : integer? k.name = none := by
    have hname := k.isName
    cases ht : k.name with
    | nil => rfl
    | cons c t =>
      rw [ht] at hname
      refine integer?_cons_eq_none (Bool.eq_false_iff.2 fun hdigit => ?_) t
      have hdecimal := Text.isDecimalDigit_of_isAsciiDigit hdigit
      have hstart := startsName_eq_false_of_isDecimalDigit hdecimal
      rw [hname.1] at hstart
      cases hstart
  have hword : ∀ t : Text, Text.upper t ≠ t → k.name ≠ t := by
    rintro t ht rfl
    exact ht k.upper
  rw [literalValue?, hinteger, k.notNumeral]
  dsimp only
  rw [if_neg (hword _ (by decide)), if_neg (hword _ (by decide))]

/-- The name of a function is one that a constant may have, too. -/
def Function.constant (f : Function) : Constant where
  name := f.name
  isName := by cases f <;> decide
  upper := by cases f <;> decide
  notNumeral := by cases f <;> rfl

theorem legible_enclose {needed : Bool} {ss : List Symbol} (h : ∀ s ∈ ss, s.Legible) :
    ∀ s ∈ enclose needed ss, s.Legible := by
  intro s hs
  cases needed with
  | false => exact h s hs
  | true =>
    rcases List.mem_cons.1 hs with rfl | hs
    · exact ⟨_, rfl⟩
    · rcases List.mem_append.1 hs with hs | hs
      · exact h s hs
      · rw [List.mem_singleton.1 hs]
        exact ⟨_, rfl⟩

namespace Expression

theorem legible_arguments {args : List Expression}
    (h : ∀ a ∈ args, ∀ bound, ∀ s ∈ a.symbols bound, s.Legible) :
    ∀ s ∈ argumentSymbols args, s.Legible := by
  induction args with
  | nil =>
    intro s hs
    cases hs
  | cons a args ih =>
    obtain ⟨ha, hargs⟩ := List.forall_mem_cons.1 h
    cases args with
    | nil => exact ha 0
    | cons next args =>
      intro s hs
      rcases List.mem_append.1 hs with hs | hs
      · exact ha 0 s hs
      · rcases List.mem_cons.1 hs with rfl | hs
        · exact ⟨_, rfl⟩
        · exact ih hargs s hs

/-- Every symbol of a printed expression is read as one token. -/
theorem legible_symbols (e : Expression) (bound : Nat) : ∀ s ∈ e.symbols bound, s.Legible := by
  induction e using Expression.induction generalizing bound with
  | number d =>
    intro s hs
    rw [List.mem_singleton.1 hs]
    exact trivial
  | constant k =>
    intro s hs
    rw [List.mem_singleton.1 hs]
    exact k.legible
  | negate e ih => exact legible_enclose (List.forall_mem_cons.2 ⟨⟨_, rfl⟩, ih _⟩)
  | binary o left right ihl ihr =>
    refine legible_enclose fun s hs => ?_
    rcases List.mem_append.1 hs with hs | hs
    · exact ihl _ s hs
    · rcases List.mem_cons.1 hs with rfl | hs
      · cases o <;> exact ⟨_, rfl⟩
      · exact ihr _ s hs
  | call f args ih =>
    intro s hs
    rcases List.mem_cons.1 hs with rfl | hs
    · exact f.constant.legible
    · rcases List.mem_cons.1 hs with rfl | hs
      · exact ⟨_, rfl⟩
      · rcases List.mem_append.1 hs with hs | hs
        · exact legible_arguments ih s hs
        · rw [List.mem_singleton.1 hs]
          exact ⟨_, rfl⟩

theorem symbols_ne_nil (e : Expression) (bound : Nat) : e.symbols bound ≠ [] := by
  cases e with
  | number d => exact List.cons_ne_nil _ _
  | constant k => exact List.cons_ne_nil _ _
  | negate e =>
    unfold symbols enclose
    split <;> exact List.cons_ne_nil _ _
  | binary o left right =>
    unfold symbols enclose
    split
    · exact List.cons_ne_nil _ _
    · exact List.append_ne_nil_of_right_ne_nil _ (List.cons_ne_nil _ _)
  | call f args => exact List.cons_ne_nil _ _

/-- The whole text is the first candidate. -/
theorem head?_candidates_text (e : Expression) : (candidates e.text).head? = some e.text := by
  have hwords : words e.text = (e.symbols 0).map Symbol.text := words_spaced (e.legible_symbols 0)
  have hne : words e.text ≠ [] := by
    rw [hwords]
    exact fun hnil => e.symbols_ne_nil 0 (List.map_eq_nil_iff.1 hnil)
  rw [candidates, head?_candidatesOf _ hne, hwords]
  rfl

theorem upper_text (e : Expression) : Text.upper e.text = e.text :=
  upper_spaced (e.legible_symbols 0)

/-- The tokens of an expression in a place that asks for the level `bound`. -/
def tokens (bound : Nat) (e : Expression) : List Token := (e.symbols bound).filterMap Symbol.token?

/-- The tokens of arguments, with a comma between two of them. -/
def argumentTokens (args : List Expression) : List Token :=
  (argumentSymbols args).filterMap Symbol.token?

theorem parse_text (e : Expression) : parse (widen e.text) = Formula.tree (e.tokens 0) :=
  parse_spaced (e.legible_symbols 0)

end Expression

/-- Tokens, with parentheses around them if they are needed. -/
def enclosed (needed : Bool) (ts : List Token) : List Token :=
  if needed then .openParen :: ts ++ [.closeParen] else ts

theorem filterMap_enclose (needed : Bool) (ss : List Symbol) :
    (enclose needed ss).filterMap Symbol.token? = enclosed needed (ss.filterMap Symbol.token?) := by
  cases needed with
  | false => rfl
  | true => simp [enclose, enclosed, Symbol.token?, Sign.alone?]

/-- The token of an operation. -/
def Operation.token : Operation → Token
  | .subtract => .minus
  | o => .binary o.binary

theorem alone?_sign (o : Operation) : o.sign.alone? = some o.token := by
  cases o <;> rfl

namespace Expression

theorem tokens_negate (bound : Nat) (e : Expression) :
    (negate e).tokens bound =
      enclosed (negationLevel < bound) (.minus :: e.tokens negationLevel) :=
  filterMap_enclose _ _

theorem tokens_binary (bound : Nat) (o : Operation) (left right : Expression) :
    (binary o left right).tokens bound =
      enclosed (o.level < bound)
        (left.tokens o.level ++ o.token :: right.tokens (o.level + 1)) := by
  have hsign : Symbol.token? (.sign o.sign) = some o.token := alone?_sign o
  rw [tokens, symbols, filterMap_enclose, List.filterMap_append, List.filterMap_cons_some hsign]
  rfl

theorem tokens_call (bound : Nat) (f : Function) (args : List Expression) :
    (call f args).tokens bound =
      .name f.name :: .openParen :: argumentTokens args ++ [.closeParen] := by
  simp [tokens, symbols, argumentTokens, Symbol.token?, Sign.alone?]

theorem argumentTokens_cons (e next : Expression) (args : List Expression) :
    argumentTokens (e :: next :: args) =
      e.tokens 0 ++ .comma :: argumentTokens (next :: args) := by
  simp [tokens, argumentSymbols, argumentTokens, Symbol.token?, Sign.alone?]

end Expression

end Formula

end Reckoner
