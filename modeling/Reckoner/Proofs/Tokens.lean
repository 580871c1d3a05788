import Reckoner.Proofs.Alignment

/-!
# From pieces to operands

`Reads` is what `tokens` does, one step a rule.  From it follows what the operands of a formula
are: its text literals are its quoted texts (`literalTexts_operands`), and where its literals are
sheltered, an integer stands behind a name that ends in `e` or `E` and a sign
(`exposed_of_integer`).
-/

namespace Reckoner.Formula

open Text

/-! ## Reading pieces -/

/-- Whether a token becomes no leaf, whatever follows it. -/
def Token.IsMark (token : Token) : Prop := ∀ next, token.operand? next = none

/-- The pieces on the left are read as the tokens on the right. -/
inductive Reads : List Piece → List Token → Prop
  | nil : Reads [] []
  | blank {ps : List Piece} {ts : List Token} : Reads ps ts → Reads (.blank :: ps) ts
  | sign {s : Sign} {token : Token} {ps : List Piece} {ts : List Token} :
      s.alone? = some token → Reads ps ts → Reads (.sign s :: ps) (token :: ts)
  | joined {s₁ s₂ : Sign} (ss : List Sign) {token : Token} {ps : List Piece} {ts : List Token} :
      token.IsMark → Reads ps ts →
      Reads (.sign s₁ :: .sign s₂ :: (ss.map .sign ++ ps)) (token :: ts)
  | quoted {t : Text} {ps : List Piece} {ts : List Token} :
      Reads ps ts → Reads (.quoted t :: ps) (.value (.text t) :: ts)
  | value {t : Text} {v : Value} {ps : List Piece} {ts : List Token} :
      literalValue? t = some v → Reads ps ts → Reads (.literal t :: ps) (.value v :: ts)
  | name {t : Text} {ps : List Piece} {ts : List Token} : literalValue? t = none →
      (∀ s u ps', ps = .sign s :: .literal u :: ps' → splitNumeral? t s u = none) →
      Reads ps ts → Reads (.literal t :: ps) (.name t :: ts)
  | split {t u : Text} {s : Sign} {x : Float} {ps : List Piece} {ts : List Token} :
      literalValue? t = none → splitNumeral? t s u = some x → Reads ps ts →
      Reads (.literal t :: .sign s :: .literal u :: ps) (.value (.float x) :: ts)

theorem isMark_of_alone? {s : Sign} {token : Token} (h : s.alone? = some token) :
    token.IsMark := by
  intro next
  cases s <;> cases h <;> rfl

theorem isMark_of_withEqual? {s : Sign} {token : Token} (h : s.withEqual? = some token) :
    token.IsMark := by
  intro next
  cases s <;> cases h <;> rfl

theorem reads_tokens {ps : List Piece} {ts : List Token} (h : tokens ps = .ok ts) :
    Reads ps ts := by
  fun_induction tokens ps generalizing ts with
  | case1 =>
    cases h
    exact .nil
  | case2 ps ih => exact .blank (ih h)
  | case3 t ps ih =>
    obtain ⟨ts, hts, rfl⟩ := exists_of_map_eq_ok h
    exact .quoted (ih hts)
  | case4 t s u ps v hv ih =>
    obtain ⟨ts, hts, rfl⟩ := exists_of_map_eq_ok h
    exact .value hv (ih hts)
  | case5 t s u ps hv x hx ih =>
    obtain ⟨ts, hts, rfl⟩ := exists_of_map_eq_ok h
    exact .split hv hx (ih hts)
  | case6 t s u ps hv hx ih =>
    obtain ⟨ts, hts, rfl⟩ := exists_of_map_eq_ok h
    refine .name hv (fun _ _ _ heq => ?_) (ih hts)
    cases heq
    exact hx
  | case7 t ps hps v hv ih =>
    obtain ⟨ts, hts, rfl⟩ := exists_of_map_eq_ok h
    exact .value hv (ih hts)
  | case8 t ps hps hv ih =>
    obtain ⟨ts, hts, rfl⟩ := exists_of_map_eq_ok h
    exact .name hv (fun s u ps' heq => (hps s u ps' heq).elim) (ih hts)
  | case9 ps ih =>
    obtain ⟨ts, hts, rfl⟩ := exists_of_map_eq_ok h
    exact .joined [.equal] (fun _ => rfl) (ih hts)
  | case10 ps ih =>
    obtain ⟨ts, hts, rfl⟩ := exists_of_map_eq_ok h
    exact .joined [.equal] (fun _ => rfl) (ih hts)
  | case11 ps _ ih =>
    obtain ⟨ts, hts, rfl⟩ := exists_of_map_eq_ok h
    exact .joined [] (fun _ => rfl) (ih hts)
  | case12 ps _ ih =>
    obtain ⟨ts, hts, rfl⟩ := exists_of_map_eq_ok h
    exact .joined [] (fun _ => rfl) (ih hts)
  | case13 s ps token htoken ih =>
    obtain ⟨ts, hts, rfl⟩ := exists_of_map_eq_ok h
    exact .joined [] (isMark_of_withEqual? htoken) (ih hts)
  | case14 s ps _ token htoken ih =>
    obtain ⟨ts, hts, rfl⟩ := exists_of_map_eq_ok h
    exact .sign htoken (ih hts)
  | case15 => cases h
  | case16 s ps =>
    rename_i htoken ih
    obtain ⟨ts, hts, rfl⟩ := exists_of_map_eq_ok h
    exact .sign htoken (ih hts)
  | case17 => cases h

theorem Reads.value_inv {t : Text} {v : Value} {ps : List Piece} {ts : List Token}
    (h : Reads (.literal t :: ps) ts) (hv : literalValue? t = some v) :
    ∃ us, ts = .value v :: us := by
  cases h with
  | value hw _ =>
    rw [hv] at hw
    cases hw
    exact ⟨_, rfl⟩
  | name hnone _ _ =>
    rw [hv] at hnone
    cases hnone
  | split hnone _ _ =>
    rw [hv] at hnone
    cases hnone

theorem Reads.sign_inv {s : Sign} {t : Text} {ps : List Piece} {ts : List Token}
    (h : Reads (.sign s :: .literal t :: ps) ts) :
    ∃ token us, ts = token :: us ∧ Reads (.literal t :: ps) us := by
  generalize hqs : Piece.sign s :: Piece.literal t :: ps = qs at h
  cases h with
  | sign _ h =>
    cases hqs
    exact ⟨_, _, rfl, h⟩
  | _ => cases hqs

/-! ## Text literals -/

/-- The texts among operands, in order. -/
def literalTexts : List Operator → List Text
  | [] => []
  | .literal (.text t) :: ops => t :: literalTexts ops
  | _ :: ops => literalTexts ops

theorem operands_mark {token : Token} (h : token.IsMark) (ts : List Token) :
    operands (token :: ts) = operands ts := by
  rw [operands, h]
  rfl

theorem quotedTexts_signs (ss : List Sign) (ps : List Piece) :
    quotedTexts (ss.map Piece.sign ++ ps) = quotedTexts ps := by
  induction ss with
  | nil => rfl
  | cons s ss ih => exact ih

theorem literalTexts_value {t : Text} {v : Value} (h : literalValue? t = some v)
    (ops : List Operator) : literalTexts (.literal v :: ops) = literalTexts ops := by
  cases v with
  | text u =>
    exfalso
    unfold literalValue? at h
    split at h
    · cases h
    · split at h
      · cases h
      · split at h
        · cases h
        · split at h <;> cases h
  | _ => rfl

/-- A name is a leaf that is no literal, or no leaf. -/
theorem operands_name (t : Text) (ts : List Token) :
    operands (.name t :: ts) = .write t :: operands ts ∨
      operands (.name t :: ts) = .read t :: operands ts ∨
      operands (.name t :: ts) = operands ts := by
  rw [operands, Token.operand?]
  unfold nameOperator
  by_cases hassign : ts.head?.any Token.isAssignment = true
  · exact .inl (by rw [if_pos hassign]; rfl)
  · by_cases hcall : ts.head?.any Token.startsValue = true
    · exact .inr (.inr (by rw [if_neg hassign, if_pos hcall]; rfl))
    · exact .inr (.inl (by rw [if_neg hassign, if_neg hcall]; rfl))

theorem literalTexts_name (t : Text) (ts : List Token) :
    literalTexts (operands (.name t :: ts)) = literalTexts (operands ts) := by
  rcases operands_name t ts with h | h | h <;> rw [h] <;> rfl

theorem literal_mem_operands_name {t : Text} {ts : List Token} {v : Value}
    (h : .literal v ∈ operands (.name t :: ts)) : .literal v ∈ operands ts := by
  rcases operands_name t ts with heq | heq | heq
  · rw [heq] at h
    exact (List.mem_cons.1 h).resolve_left (by simp)
  · rw [heq] at h
    exact (List.mem_cons.1 h).resolve_left (by simp)
  · rwa [heq] at h

theorem mem_operands_cons {token : Token} {ts : List Token} {op : Operator}
    (h : op ∈ operands ts) : op ∈ operands (token :: ts) :=
  List.mem_append_right _ h

/-- The text literals of a formula are its quoted texts, in order. -/
theorem literalTexts_operands {ps : List Piece} {ts : List Token} (h : Reads ps ts) :
    literalTexts (operands ts) = quotedTexts ps := by
  induction h with
  | nil => rfl
  | blank _ ih => exact ih
  | sign hs _ ih =>
    rw [operands_mark (isMark_of_alone? hs), ih]
    rfl
  | joined _ hmark _ ih =>
    rw [operands_mark hmark, ih]
    exact (quotedTexts_signs _ _).symm
  | quoted _ ih => exact congrArg _ ih
  | value hv _ ih => exact (literalTexts_value hv _).trans ih
  | name _ _ _ ih => exact (literalTexts_name _ _).trans ih
  | split _ _ _ ih => exact ih

/-! ## Integer literals -/

/-- An integer literal behind a literal with `property` and a sign. -/
def Behind (property : Text → Prop) (ps : List Piece) : Prop :=
  ∃ m s l, [.literal m, .sign s, .literal l] <:+: ps ∧ (s = .plus ∨ s = .minus) ∧
    integer? l ≠ none ∧ property m

theorem Behind.of_suffix {property : Text → Prop} {ps qs : List Piece} (h : Behind property ps)
    (hps : ps <:+ qs) : Behind property qs := by
  obtain ⟨m, s, l, hin, hrest⟩ := h
  exact ⟨m, s, l, hin.trans hps.isInfix, hrest⟩

theorem Behind.imp {p q : Text → Prop} {ps : List Piece} (h : Behind p ps) (hpq : ∀ t, p t → q t) :
    Behind q ps := by
  obtain ⟨m, s, l, hin, hs, hl, hm⟩ := h
  exact ⟨m, s, l, hin, hs, hl, hpq m hm⟩

theorem integer?_of_literalValue? {t : Text} {n : Int}
    (h : literalValue? t = some (.integer n)) : integer? t ≠ none := by
  intro hnone
  unfold literalValue? at h
  rw [hnone] at h
  dsimp only at h
  split at h
  · cases h
  · split at h
    · cases h
    · split at h <;> cases h

theorem literalValue?_of_integer? {t : Text} (h : integer? t ≠ none) :
    ∃ n, literalValue? t = some (.integer n) := by
  obtain ⟨n, hn⟩ := Option.ne_none_iff_exists'.1 h
  exact ⟨n, by rw [literalValue?, hn]⟩

theorem Exponential.numeral?_append_eq_none {t : Text} (h : Exponential t) (u : Text) :
    Number.numeral? (u ++ t) = none := by
  have hne : t ≠ [] := by
    rintro rfl
    simpa using h.letter
  rcases h.letter with he | he
  · exact numeral?_eq_none_of_getLast? (by rwa [getLast?_append_right hne]) (.inl rfl)
  · exact numeral?_eq_none_of_getLast? (by rwa [getLast?_append_right hne]) (.inr rfl)

theorem isName_words : IsName "true".toList ∧ IsName "false".toList := by
  decide +kernel

theorem Exponential.literalValue?_eq_none {t : Text} (h : Exponential t) :
    literalValue? t = none := by
  have htrue : t ≠ "true".toList := by
    rintro rfl
    exact h.notName isName_words.1
  have hfalse : t ≠ "false".toList := by
    rintro rfl
    exact h.notName isName_words.2
  have hnumeral : Number.numeral? t = none := h.numeral?_append_eq_none []
  unfold literalValue?
  rw [h.notInteger, hnumeral]
  dsimp only
  rw [if_neg htrue, if_neg hfalse]

theorem Exponential.splitNumeral?_eq_none {t u : Text} {s : Sign} (h : Exponential u) :
    splitNumeral? t s u = none := by
  unfold splitNumeral?
  split
  · have hnumeral := h.numeral?_append_eq_none (t ++ [s.char])
    simpa using hnumeral
  · rfl

theorem Sheltered.of_mark {p : Piece} {ps : List Piece} {excused : Bool}
    (h : Sheltered excused (p :: ps)) (hp : ∀ t, p ≠ .literal t) : Sheltered false ps := by
  cases h with
  | mark _ h => exact h
  | literal _ _ => exact absurd rfl (hp _)
  | exponent _ _ _ => exact absurd rfl (hp _)

theorem Sheltered.of_signs {ss : List Sign} {ps : List Piece}
    (h : Sheltered false (ss.map .sign ++ ps)) : Sheltered false ps := by
  induction ss with
  | nil => exact h
  | cons s ss ih => exact ih (h.of_mark (by simp))

theorem Sheltered.of_literal {t : Text} {ps : List Piece} {excused : Bool}
    (h : Sheltered excused (.literal t :: ps)) (ht : ¬ Exponential t) :
    (excused = true ∨ integer? t = none) ∧ Sheltered false ps := by
  cases h with
  | mark hp _ => exact absurd rfl (hp t)
  | literal hnone h => exact ⟨hnone, h⟩
  | exponent hexp _ _ => exact absurd hexp ht

/-- Where literals are sheltered, an integer among the operands stands behind a sign and the
start of an exponent that is read as a name, or is excused. -/
theorem exposed_of_integer {n : Int} {ps : List Piece} {ts : List Token} {excused : Bool}
    (h : Reads ps ts) (hs : Sheltered excused ps) (hn : .literal (.integer n) ∈ operands ts) :
    (excused = true ∧ ∃ l ps', ps = .literal l :: ps' ∧ integer? l ≠ none) ∨
      Behind (fun m => Exponential m ∧ .read m ∈ operands ts) ps := by
  -- An exponent takes two steps, a name and a sign, so the induction is on the length.
  induction hlength : ps.length using Nat.strongRecOn generalizing ps ts excused with
  | ind k ih =>
    have hlater : ∀ {qs : List Piece} {us : List Token}, qs.length < ps.length → qs <:+ ps →
        (∀ op, op ∈ operands us → op ∈ operands ts) → Reads qs us → Sheltered false qs →
        .literal (.integer n) ∈ operands us →
        Behind (fun m => Exponential m ∧ .read m ∈ operands ts) ps := by
      intro qs us hlt hsuffix hmono hreads hsheltered hmem
      rcases ih _ (hlength ▸ hlt) hreads hsheltered hmem rfl with ⟨hfalse, -⟩ | hbehind
      · cases hfalse
      · exact (hbehind.imp fun m hm => ⟨hm.1, hmono _ hm.2⟩).of_suffix hsuffix
    cases h with
    | nil => cases hn
    | blank h =>
      exact .inr (hlater (by simp) (List.suffix_cons _ _) (fun _ => id) h (hs.of_mark (by simp)) hn)
    | sign htoken h =>
      rw [operands_mark (isMark_of_alone? htoken)] at hn
      exact .inr (hlater (by simp) (List.suffix_cons _ _) (fun _ => mem_operands_cons) h
        (hs.of_mark (by simp)) hn)
    | @joined s₁ s₂ ss _ ps _ hmark h =>
      rw [operands_mark hmark] at hn
      have hsuffix : ps <:+ .sign s₁ :: .sign s₂ :: (ss.map Piece.sign ++ ps) :=
        ⟨.sign s₁ :: .sign s₂ :: ss.map Piece.sign, rfl⟩
      exact .inr (hlater (by simp; omega) hsuffix (fun _ => mem_operands_cons) h
        ((hs.of_mark (by simp)).of_mark (by simp)).of_signs hn)
    | quoted h =>
      have hn := (List.mem_cons.1 hn).resolve_left (by simp)
      exact .inr (hlater (by simp) (List.suffix_cons _ _) (fun _ => mem_operands_cons) h
        (hs.of_mark (by simp)) hn)
    | @value t v ps ts hv h =>
      have ht : ¬ Exponential t := fun ht => by
        rw [ht.literalValue?_eq_none] at hv
        cases hv
      obtain ⟨hnone, hs⟩ := hs.of_literal ht
      rcases List.mem_cons.1 hn with heq | hn
      · cases heq
        have hinteger := integer?_of_literalValue? hv
        exact .inl ⟨hnone.resolve_right hinteger, t, ps, rfl, hinteger⟩
      · exact .inr (hlater (by simp) (List.suffix_cons _ _) (fun _ => mem_operands_cons) h hs hn)
    | @name t _ _ hv _ h =>
      have hn := literal_mem_operands_name hn
      cases hs with
      | mark hp _ => exact absurd rfl (hp _)
      | literal _ hs =>
        exact .inr (hlater (by simp) (List.suffix_cons _ _) (fun _ => mem_operands_cons) h hs hn)
      | @exponent _ _ s qs ht hsign hs =>
        right
        generalize hrest : Piece.sign s :: qs = rest at h
        cases h with
        | @sign _ token _ vs htoken h =>
          cases hrest
          rw [operands_mark (isMark_of_alone? htoken)] at hn
          have hread : .read t ∈ operands (.name t :: token :: vs) := by
            rcases hsign with rfl | rfl <;> cases htoken <;> exact List.mem_cons_self
          have hlt : qs.length < k := by
            rw [← hlength]
            simp only [List.length_cons]
            omega
          rcases ih _ hlt h hs hn rfl with ⟨-, l, post, rfl, hl⟩ | hbehind
          · exact ⟨t, s, l, ⟨[], post, rfl⟩, hsign, hl, ht, hread⟩
          · refine (hbehind.imp fun m hm => ⟨hm.1, ?_⟩).of_suffix ⟨[.literal t, .sign s], rfl⟩
            exact mem_operands_cons (mem_operands_cons hm.2)
        | @joined s₁ s₂ ss _ ps vs hmark h =>
          cases hrest
          rw [operands_mark hmark] at hn
          have hsuffix : ps <:+ .literal t :: .sign s :: .sign s₂ :: (ss.map Piece.sign ++ ps) :=
            ⟨.literal t :: .sign s :: .sign s₂ :: ss.map Piece.sign, rfl⟩
          exact hlater (by simp; omega) hsuffix
            (fun _ h => mem_operands_cons (mem_operands_cons h)) h
            (hs.of_mark (by simp)).of_signs hn
        | _ => cases hrest
    | @split t u s x ps ts hv hx h =>
      have hu : ¬ Exponential u := fun hu => by
        rw [hu.splitNumeral?_eq_none] at hx
        cases hx
      have hs : Sheltered false ps := by
        cases hs with
        | mark hp _ => exact absurd rfl (hp _)
        | literal _ hs => exact ((hs.of_mark (by simp)).of_literal hu).2
        | exponent _ _ hs => exact (hs.of_literal hu).2
      have hn := (List.mem_cons.1 hn).resolve_left (by simp)
      have hsuffix : ps <:+ .literal t :: .sign s :: .literal u :: ps :=
        ⟨[.literal t, .sign s, .literal u], rfl⟩
      exact .inr (hlater (by simp; omega) hsuffix (fun _ => mem_operands_cons) h hs hn)

theorem Behind.of_mark {property : Text → Prop} {p : Piece} {ps : List Piece}
    (h : Behind property (p :: ps)) (hp : ∀ t, p ≠ .literal t) : Behind property ps := by
  obtain ⟨m, s, l, hin, hrest⟩ := h
  rcases List.infix_cons_iff.1 hin with hfront | hin
  · obtain ⟨heq, -⟩ := List.cons_prefix_cons.1 hfront
    exact absurd heq.symm (hp m)
  · exact ⟨m, s, l, hin, hrest⟩

theorem Behind.of_signs {property : Text → Prop} {ss : List Sign} {ps : List Piece}
    (h : Behind property (ss.map .sign ++ ps)) : Behind property ps := by
  induction ss with
  | nil => exact h
  | cons s ss ih => exact ih (h.of_mark (by simp))

theorem literalValue?_eq_none_of_mark {t : Text} (h : '\u0345' ∈ t) : literalValue? t = none := by
  have hinteger : integer? t = none :=
    Option.eq_none_iff_forall_ne_some.2 fun n hn => not_mem_of_integer? hn h
  have hnumeral : Number.numeral? t = none :=
    Option.eq_none_iff_forall_ne_some.2 fun x hx => not_mem_of_numeral? hx h
  have htrue : t ≠ "true".toList := by
    rintro rfl
    exact absurd h (by decide)
  have hfalse : t ≠ "false".toList := by
    rintro rfl
    exact absurd h (by decide)
  unfold literalValue?
  rw [hinteger, hnumeral]
  dsimp only
  rw [if_neg htrue, if_neg hfalse]

theorem splitNumeral?_eq_none_of_mark {t u : Text} {s : Sign} (h : '\u0345' ∈ t ∨ '\u0345' ∈ u) :
    splitNumeral? t s u = none := by
  unfold splitNumeral?
  split
  · refine Option.eq_none_iff_forall_ne_some.2 fun x hx => not_mem_of_numeral? hx ?_
    exact List.mem_append.2 (h.imp_right (List.mem_cons_of_mem _))
  · rfl

/-- An integer literal behind the mark and a sign is read as an integer. -/
theorem exists_integer_of_behind {ps : List Piece} {ts : List Token} (h : Reads ps ts)
    (hps : Behind ('\u0345' ∈ ·) ps) : ∃ n, .literal (.integer n) ∈ operands ts := by
  have hlift : ∀ {token : Token} {us : List Token},
      (∃ n, .literal (.integer n) ∈ operands us) →
        ∃ n, .literal (.integer n) ∈ operands (token :: us) :=
    fun ⟨n, hn⟩ => ⟨n, mem_operands_cons hn⟩
  induction h with
  | nil =>
    obtain ⟨_, _, _, hin, -⟩ := hps
    simp at hin
  | blank _ ih => exact ih (hps.of_mark (by simp))
  | sign _ _ ih => exact hlift (ih (hps.of_mark (by simp)))
  | joined _ _ _ ih => exact hlift (ih ((hps.of_mark (by simp)).of_mark (by simp)).of_signs)
  | quoted _ ih => exact hlift (ih (hps.of_mark (by simp)))
  | value hv _ ih =>
    obtain ⟨m, s, l, hin, hrest⟩ := hps
    rcases List.infix_cons_iff.1 hin with hfront | hin
    · obtain ⟨heq, -⟩ := List.cons_prefix_cons.1 hfront
      cases heq
      rw [literalValue?_eq_none_of_mark hrest.2.2] at hv
      cases hv
    · exact hlift (ih ⟨m, s, l, hin, hrest⟩)
  | @name t ps ts hv _ h ih =>
    obtain ⟨m, s, l, hin, hrest⟩ := hps
    rcases List.infix_cons_iff.1 hin with hfront | hin
    · obtain ⟨-, post, hpost⟩ := List.cons_prefix_cons.1 hfront
      obtain ⟨n, hn⟩ := literalValue?_of_integer? hrest.2.1
      have h : Reads (.sign s :: .literal l :: post) ts := by
        rw [← hpost] at h
        exact h
      obtain ⟨token, us, rfl, hliteral⟩ := h.sign_inv
      obtain ⟨us, rfl⟩ := hliteral.value_inv hn
      exact ⟨n, mem_operands_cons (mem_operands_cons List.mem_cons_self)⟩
    · exact hlift (ih ⟨m, s, l, hin, hrest⟩)
  | split _ hx _ ih =>
    obtain ⟨m, s, l, hin, hrest⟩ := hps
    rcases List.infix_cons_iff.1 hin with hfront | hin
    · obtain ⟨heq, -⟩ := List.cons_prefix_cons.1 hfront
      cases heq
      rw [splitNumeral?_eq_none_of_mark (.inl hrest.2.2)] at hx
      cases hx
    · obtain ⟨m, s, l, hin, hrest⟩ := Behind.of_mark ⟨m, s, l, hin, hrest⟩ (by simp)
      rcases List.infix_cons_iff.1 hin with hfront | hin
      · obtain ⟨heq, -⟩ := List.cons_prefix_cons.1 hfront
        cases heq
        rw [splitNumeral?_eq_none_of_mark (.inr hrest.2.2)] at hx
        cases hx
      · exact hlift (ih ⟨m, s, l, hin, hrest⟩)

end Reckoner.Formula
