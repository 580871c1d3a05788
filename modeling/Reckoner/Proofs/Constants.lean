import Reckoner.Proofs.Padding
import Reckoner.Proofs.Symbols
import Reckoner.Session
import Reckoner.Settings.Reader

/-!
# Constants as queries

A constant of the settings whose name in upper case is one name to the grammar, as a query of its
own.  The query is put into upper case and widened, and what is looked up is the widened text.

* To the grammar a text is one name if it holds no sign, blank or quote mark and writes no value
  (`oneName_iff`).  The widened text is one name too (`OneName.widen`).
* So the query is worth what its widened upper case finds (`resolve_of_oneName`).

A name in the sense of the scan, letters first, is not widened.  The grammar has more names than
the scan, and where the scan finds digits alone in one, such as the `5` in `€5`, the constant is
looked up as `€5.0` and missed.  `resolve_constant` says which constants are found.
-/

namespace Reckoner

open Formula

namespace Formula

/-! ## One name -/

/-- A text that is one name to the grammar. -/
structure OneName (t : Text) : Prop where
  /-- There are characters. -/
  ne_nil : t ≠ []
  /-- They belong to literals. -/
  plain : ∀ c ∈ t, Plain c
  /-- The literal is no number and no truth value. -/
  notValue : literalValue? t = none

instance (t : Text) : Decidable (OneName t) :=
  decidable_of_iff (t ≠ [] ∧ t.all (fun c => decide (Plain c)) = true ∧
      (literalValue? t).isNone = true)
    ⟨fun h => ⟨h.1, by simpa using h.2.1, Option.isNone_iff_eq_none.1 h.2.2⟩,
      fun h => ⟨h.ne_nil, by simpa using h.plain, Option.isNone_iff_eq_none.2 h.notValue⟩⟩

/-- The characters of literals are plain. -/
theorem plain_of_mem_literal {t m : Text} {ps : List Piece} (h : pieces t = .ok ps)
    (hm : .literal m ∈ ps) {c : Char} (hc : c ∈ m) : Plain c := by
  fun_induction pieces t generalizing ps m with
  | case1 =>
    cases h
    cases hm
  | case2 => cases h
  | case3 t body rest hbody _ ih =>
    obtain ⟨ps, hps, rfl⟩ := exists_of_map_eq_ok h
    exact ih hps ((List.mem_cons.1 hm).resolve_left (by simp)) hc
  | case4 t ih => exact ih h hm hc
  | case5 => cases h
  | case6 t rest hrest _ ih => exact ih h hm hc
  | case7 d t _ _ _ s _ ih =>
    obtain ⟨ps, hps, rfl⟩ := exists_of_map_eq_ok h
    exact ih hps ((List.mem_cons.1 hm).resolve_left (by simp)) hc
  | case8 d t _ _ _ _ _ ih =>
    obtain ⟨ps, hps, rfl⟩ := exists_of_map_eq_ok h
    exact ih hps ((List.mem_cons.1 hm).resolve_left (by simp)) hc
  | case9 d t hquote _ _ hsign hblank ih =>
    obtain ⟨ps, hps, rfl⟩ := exists_of_map_eq_ok h
    have hd : Plain d := ⟨hsign, Bool.eq_false_iff.2 hblank, hquote⟩
    rcases mem_extendLiteral hm with heq | ⟨n, hn, heq⟩ | hm
    · cases heq
      rwa [List.mem_singleton.1 hc]
    · cases heq
      rcases List.mem_cons.1 hc with rfl | hc
      · exact hd
      · exact ih hps hn hc
    · exact ih hps hm hc

/-- A name among the tokens is a literal among the pieces. -/
theorem Reads.literal_mem {ps : List Piece} {ts : List Token} (h : Reads ps ts) {t : Text}
    (ht : .name t ∈ ts) : .literal t ∈ ps := by
  have hname {token : Token} (hmark : token.IsMark) : .name t ≠ token := by
    rintro rfl
    cases hmark none
  induction h with
  | nil => cases ht
  | blank _ ih => exact .tail _ (ih ht)
  | sign hs _ ih =>
    exact .tail _ (ih ((List.mem_cons.1 ht).resolve_left (hname (isMark_of_alone? hs))))
  | joined ss hmark _ ih =>
    have hmem := ih ((List.mem_cons.1 ht).resolve_left (hname hmark))
    exact .tail _ (.tail _ (List.mem_append_right _ hmem))
  | quoted _ ih => exact .tail _ (ih ((List.mem_cons.1 ht).resolve_left (by simp)))
  | value _ _ ih => exact .tail _ (ih ((List.mem_cons.1 ht).resolve_left (by simp)))
  | name _ _ _ ih =>
    rcases List.mem_cons.1 ht with heq | ht
    · cases heq
      exact List.mem_cons_self
    · exact .tail _ (ih ht)
  | split _ _ _ ih =>
    exact .tail _ (.tail _ (.tail _ (ih ((List.mem_cons.1 ht).resolve_left (by simp)))))

theorem pieces_of_plain {t : Text} (hne : t ≠ []) (h : ∀ c ∈ t, Plain c) :
    pieces t = .ok [.literal t] := by
  have hpieces := pieces_append_plain (t := []) h
  rw [List.append_nil, pieces_nil] at hpieces
  rw [hpieces, Except.map, foldr_extendLiteral_of_ne hne (by simp)]

theorem OneName.tokens {t : Text} (h : OneName t) : tokens [.literal t] = .ok [.name t] := by
  simp [Formula.tokens, h.notValue, Except.map]

theorem oneName_iff {t : Text} :
    OneName t ↔ ∃ ps, pieces t = .ok ps ∧ tokens ps = .ok [.name t] := by
  constructor
  · intro h
    exact ⟨_, pieces_of_plain h.ne_nil h.plain, h.tokens⟩
  · rintro ⟨ps, hpieces, htokens⟩
    have hmem : .literal t ∈ ps := (reads_tokens htokens).literal_mem List.mem_cons_self
    have hplain : ∀ c ∈ t, Plain c := fun c hc => plain_of_mem_literal hpieces hmem hc
    have hne : t ≠ [] := by
      rintro rfl
      rw [pieces_nil] at hpieces
      cases hpieces
      cases hmem
    refine ⟨hne, hplain, ?_⟩
    rw [pieces_of_plain hne hplain] at hpieces
    cases hpieces
    cases hvalue : literalValue? t with
    | none => rfl
    | some v => simp [Formula.tokens, hvalue, Except.map] at htokens

/-- What is put into one name leaves it one name. -/
theorem OneName.widen {t : Text} (h : OneName t) : OneName (widen t) := by
  have hpads := pads_widen t
  have hplain : ∀ c ∈ Formula.widen t, Plain c := by
    intro c hc
    rcases mem_of_pads hpads hc with hc | rfl | rfl
    · exact h.plain c hc
    · exact plain_point
    · exact plain_of_isDecimalDigit (by decide)
  refine ⟨fun hnil => ?_, hplain, literalValue?_of_pads hpads hplain h.notValue⟩
  have hle := hpads.length_le
  rw [hnil] at hle
  exact h.ne_nil (List.eq_nil_of_length_eq_zero (Nat.le_zero.1 hle))

theorem parse_of_oneName {t : Text} (h : OneName t) :
    parse t = .ok (.node .group [.leaf (.read t)]) := by
  rw [parse, pieces_of_plain h.ne_nil h.plain]
  dsimp only
  rw [h.tokens]
  rfl

theorem value_read (lookup : Text → Option Float) (t : Text) :
    (Tree.node .group [.leaf (.read t)]).value lookup = readConstant lookup t := by
  rw [Tree.value, Tree.values, Tree.values, Tree.leaf, Tree.value, Tree.values]
  show (readConstant lookup t >>= fun v => Except.ok [v]) >>= _ = _
  cases readConstant lookup t with
  | error fault => rfl
  | ok v => rfl

end Formula

/-! ## Evaluation -/

namespace Calculator

/-- One name is worth what its widened text finds. -/
theorem evaluate_of_oneName (c : Calculator) {t : Text} (h : OneName t) :
    (c.evaluate t).toOption = (c.symbols.find? (widen t)).map Answer.number := by
  rw [evaluate, parse_of_oneName h.widen]
  show ((Formula.Tree.node .group [.leaf (.read (widen t))]).value c.symbols.find? >>=
    Answer.ofValue).toOption = _
  rw [value_read, readConstant]
  cases c.symbols.find? (widen t) with
  | none => rfl
  | some x => rfl

/-- A query whose upper case is one name is worth what the widened upper case finds. -/
theorem resolve_of_oneName (c : Calculator) {query : Text} (h : OneName (Text.upper query)) :
    c.resolve query = (c.symbols.find? (widen (Text.upper query))).map Answer.number := by
  have hspace : ' ' ∉ query := by
    intro hmem
    have hupper : ' ' ∈ Text.upper query := by
      refine List.mem_flatMap.2 ⟨' ', hmem, ?_⟩
      rw [Text.upperChar_of_lt (by decide)]
      exact List.mem_cons_self
    exact absurd (h.plain _ hupper).2.1 (by decide)
  have hne : query ≠ [] := by
    rintro rfl
    exact h.ne_nil rfl
  have hparts : ∀ part ∈ [query], part ≠ [] ∧ ' ' ∉ part := by simp [hne, hspace]
  have hwords : words query = [query] := words_join hparts
  rw [resolve, Reckoner.resolve, candidates, hwords, ← c.evaluate_of_oneName h]
  show List.findSome? _ [query] = _
  simp

end Calculator

/-! ## Constants of settings -/

theorem find?_builtIn_eq_none {name : Text} (h : '.' ∈ Text.upper name) :
    Symbols.builtIn.find? name = none := by
  have hpoint : ∀ p ∈ Symbols.builtIn.constants.entries, '.' ∉ p.1 := by decide +kernel
  refine Option.eq_none_iff_forall_ne_some.2 fun x hx => ?_
  obtain ⟨p, hp, heq⟩ := exists_mem_of_find? hx
  exact hpoint p hp (heq ▸ h)

/-- What is put into a text in upper case leaves it in upper case. -/
theorem upper_widen_upper (t : Text) :
    Text.upper (widen (Text.upper t)) = widen (Text.upper t) := by
  refine Text.upper_eq_self fun c hc => ?_
  rcases mem_of_pads (pads_widen _) hc with hc | rfl | rfl
  · exact Text.upperChar_of_mem_upper hc
  · exact Text.upperChar_of_lt (by decide)
  · exact Text.upperChar_of_lt (by decide)

namespace Settings

/-- A constant of the settings whose name in upper case is one name to the grammar, where no other
constant has that upper case.  As a query it is found if the scan finds no number of ASCII digits
alone in the name, and so if the name is one to the scan.  Otherwise another name is looked up,
the widened one, and the query is worth nothing unless a constant of the settings has that name
in upper case. -/
theorem resolve_constant (s : Settings) {name : Text} {x : Float}
    (h : (name, x) ∈ s.constants.entries)
    (hunique : ∀ p ∈ s.constants.entries, Text.upper p.1 = Text.upper name → p.1 = name)
    {ps : List Piece} (hpieces : pieces (Text.upper name) = .ok ps)
    (htokens : tokens ps = .ok [.name (Text.upper name)]) :
    let capitals := Text.upper name
    ((∀ n, .number n ∈ lexemes capitals → n.all Text.isAsciiDigit = false) →
      s.calculator.resolve name = some (.number x)) ∧
    (IsName capitals → s.calculator.resolve name = some (.number x)) ∧
    (∀ n, .number n ∈ lexemes capitals → n.all Text.isAsciiDigit = true →
      widen capitals ≠ capitals ∧
      s.calculator.resolve name = (s.symbols.find? (widen capitals)).map Answer.number ∧
      ((∀ p ∈ s.constants.entries, Text.upper p.1 ≠ widen capitals) →
        s.calculator.resolve name = none)) := by
  intro capitals
  have hresolve : s.calculator.resolve name =
      (s.symbols.find? (widen capitals)).map Answer.number :=
    s.calculator.resolve_of_oneName (oneName_iff.2 ⟨ps, hpieces, htokens⟩)
  have hfound (hkept : widen capitals = capitals) :
      s.calculator.resolve name = some (.number x) := by
    have hfind : s.symbols.find? capitals = some x :=
      (s.symbols.find?_upper (Text.upper_upper name)).trans (s.find?_symbols h hunique)
    rw [hresolve, hkept, hfind]
    rfl
  refine ⟨fun hnumbers => hfound ((widen_eq_self_iff _).2 hnumbers), fun hname => hfound ?_,
    fun n hn hdigits => ?_⟩
  · simpa [widen_nil] using widen_name hname startsApart_nil
  · have hchanged : widen capitals ≠ capitals := by
      intro hkept
      rw [(widen_eq_self_iff _).1 hkept n hn] at hdigits
      cases hdigits
    refine ⟨hchanged, hresolve, fun hfree => ?_⟩
    have hupper : Text.upper (widen capitals) = widen capitals := upper_widen_upper name
    have hpoint : '.' ∈ widen capitals := by
      apply Classical.byContradiction
      intro hpoint
      exact hchanged ((pads_widen capitals).eq_of_not_mem hpoint).symm
    have hnone : s.symbols.find? (widen capitals) = none := by
      rw [s.find?_symbols_of_ne fun p hp heq => hfree p hp (heq.symm.trans hupper)]
      exact find?_builtIn_eq_none (hupper.symm ▸ hpoint)
    rw [hresolve, hnone]
    rfl

/-- A letter between the sign and the digit makes a name of what stands behind the sign. -/
theorem resolve_constant_letter :
    let s : Settings := { constants := NameMap.empty.insert "€x5".toList 2 }
    ("€x5".toList, 2) ∈ s.constants.entries ∧
      s.calculator.resolve "€x5".toList = some (.number 2) := by
  intro s
  have hentry : ("€x5".toList, 2) ∈ s.constants.entries := List.mem_singleton.2 rfl
  have hunique : ∀ p ∈ s.constants.entries,
      Text.upper p.1 = Text.upper "€x5".toList → p.1 = "€x5".toList := by
    intro p hp _
    rw [List.mem_singleton.1 hp]
  have hname : OneName (Text.upper "€x5".toList) := by decide +kernel
  have hlexemes : lexemes (Text.upper "€x5".toList) = [.other '€', .name "X5".toList] := by
    decide +kernel
  obtain ⟨ps, hpieces, htokens⟩ := oneName_iff.1 hname
  obtain ⟨hresolve, -⟩ := s.resolve_constant hentry hunique hpieces htokens
  refine ⟨hentry, hresolve fun n hn => ?_⟩
  rw [hlexemes] at hn
  simp at hn

/-- The text `€5` is one name to the grammar, and as a constant of that name it is not found. -/
theorem exists_unresolved_constant :
    ∃ s : Settings, ofJson "\x7b\"constants\":\x7b\"€5\":2\x7d\x7d".toList = .ok s ∧
      s.constants.entries = [("€5".toList, 2)] ∧
      (∃ ps, pieces (Text.upper "€5".toList) = .ok ps ∧
        tokens ps = .ok [.name (Text.upper "€5".toList)]) ∧
      s.calculator.resolve "€5".toList = none := by
  have hread : (ofJson "\x7b\"constants\":\x7b\"€5\":2\x7d\x7d".toList).toOption.map (fun s =>
      (s.constants.entries, (s.calculator.resolve "€5".toList).isNone)) =
        some ([("€5".toList, 2)], true) := by decide +kernel
  obtain ⟨s, hs, hread⟩ := Option.map_eq_some_iff.1 hread
  obtain ⟨hentries, hnone⟩ := Prod.mk.inj hread
  refine ⟨s, ?_, hentries, oneName_iff.1 (by decide +kernel), Option.isNone_iff_eq_none.1 hnone⟩
  revert hs
  cases ofJson "\x7b\"constants\":\x7b\"€5\":2\x7d\x7d".toList with
  | error refusal => intro hs; cases hs
  | ok s' => intro hs; rw [Option.some.inj hs]

end Settings

end Reckoner
