import Reckoner.Proofs.Acceptance
import Reckoner.Proofs.Constants
import Reckoner.Proofs.Resolution
import Reckoner.Proofs.Shortest
import Reckoner.Proofs.Typing

/-!
# A displayed number is a query for itself

Every float is read back from its display, whatever constants there are.  The calculator puts the
text into upper case and looks at it with a grammar that knows nothing of the display.

* Digits become a literal, which is worth the decimal they write (`exists_literal`), and the
  shortest decimal of a float is read back as this float.
* `INFINITY` and `NAN` are names to the scan, but numerals to the grammar, so no constant is read
  for them (`spells_word`).
* A minus is an operator, which changes the sign bit alone.

`evaluate_upper_display` puts these together.  Spaces around a display are no part of a word
(`words_padded`), so a number that was inserted behind spaces is offered again when an `=` is
typed behind it (`offered_again`).
-/

namespace Reckoner

open Number (Decimal Format ofDigits tenTo isNaN isInfinite isNegative magnitudeBits infinityBits
  ofMagnitude)
open Number.Format (digitsOf positional)
open Text (isAsciiDigit)

namespace Formula

/-! ## Decimals as literals -/

/-- A decimal written positionally is a literal that is worth it. -/
theorem exists_literal (d : Decimal) :
    ∃ l : Literal, l.text = positional false d ∧ l.float = d.toFloat false := by
  obtain ⟨n, e⟩ := d
  by_cases he : 0 ≤ e
  · obtain ⟨k, rfl⟩ := Int.eq_ofNat_of_zero_le he
    obtain ⟨hdigits, hvalue⟩ := Number.digits_extended n k
    refine ⟨⟨digitsOf n ++ List.replicate k '0', none, ?_, hdigits, ?_⟩, ?_, ?_⟩
    · simp [Number.digitsOf_ne_nil]
    · intro t ht
      cases ht
    · simp [Literal.text, positional]
    · show Decimal.toFloat false
        ⟨ofDigits (digitsOf n ++ List.replicate k '0' ++ []), -(0 : Nat)⟩ = _
      rw [List.append_nil, hvalue]
      exact congrArg (ofMagnitude false)
        ((Decimal.bits_mul_tenTo n k 0).trans (by rw [Int.zero_add]))
  · obtain ⟨p, rfl⟩ : ∃ p : Nat, e = -p := ⟨(-e).toNat, by omega⟩
    obtain ⟨whole, places, htext, hne, hwhole, hplaces, hvalue, hlength, -⟩ :=
      Number.positional_point false n (p := p) (by omega)
    refine ⟨⟨whole, some places, hne, hwhole, ?_⟩, htext.symm, ?_⟩
    · intro t ht
      cases ht
      exact hplaces
    · show Decimal.toFloat false ⟨ofDigits (whole ++ places), -places.length⟩ = _
      rw [hvalue, hlength]

/-! ## Spellings -/

/-- A text that is read as a float, on its own and behind a minus. -/
def Spells (t : Text) (x : Float) : Prop :=
  widen t ≠ [] ∧ (∀ c ∈ widen t, Plain c) ∧ literalValue? (widen t) = some (.float x)

theorem spells_literal (d : Literal) : Spells d.text d.float := by
  have hwiden : widen d.text = d.widened.text := by
    have h := d.widen_text startsApart_nil
    rwa [widen_nil, List.append_nil, List.append_nil] at h
  rw [Spells, hwiden]
  refine ⟨?_, ?_, d.literalValue?_text_widened⟩
  · obtain ⟨c, t, ht, -⟩ := d.widened.exists_text_eq_cons
    simp [ht]
  · exact Symbol.plain_of_mem_text (s := .numeral d.widened) trivial (by simp)

/-- A word that is the text of a float. -/
theorem spells_word {t : Text} {x : Float} (ht : IsName t)
    (hvalue : literalValue? t = some (.float x)) : Spells t x := by
  have hwiden : widen t = t := by
    have h := widen_name ht startsApart_nil
    rwa [widen_nil, List.append_nil] at h
  rw [Spells, hwiden]
  refine ⟨?_, fun c hc => plain_of_continuesName (ht.continuesName c hc), hvalue⟩
  rintro rfl
  exact ht

end Formula

namespace Calculator

open Formula (Spells)

theorem evaluate_of_spells (c : Calculator) {t : Text} {x : Float} (h : Spells t x) :
    c.evaluate t = .ok (.number x) := by
  obtain ⟨hne, hplain, hvalue⟩ := h
  have hparse : Formula.parse (Formula.widen t) =
      .ok (.node .group [.leaf (.literal (.float x))]) := by
    rw [Formula.parse, Formula.pieces_of_plain hne hplain]
    dsimp only
    rw [Formula.tokens_literal (.inl rfl), hvalue]
    rfl
  rw [evaluate, hparse]
  rfl

theorem evaluate_minus_of_spells (c : Calculator) {t : Text} {x : Float} (h : Spells t x) :
    c.evaluate ('-' :: t) = .ok (.number (-x)) := by
  obtain ⟨hne, hplain, hvalue⟩ := h
  have hstart : Formula.StartsUncommented (Formula.Sign.minus.char :: Formula.widen t) :=
    Formula.startsUncommented_of_ne (by decide)
  have htokens : Formula.tokens [.sign .minus, .literal (Formula.widen t)] =
      .ok [.minus, .value (.float x)] := by
    show (Formula.tokens [.literal (Formula.widen t)]).map _ = _
    rw [Formula.tokens_literal (.inl rfl), hvalue]
    rfl
  have hparse : Formula.parse (Formula.widen ('-' :: t)) =
      .ok (.node .group [.node .negate [.leaf (.literal (.float x))]]) := by
    rw [show Formula.widen ('-' :: t) = _ from Formula.widen_sign .minus t, Formula.parse,
      Formula.pieces_cons_sign hstart, Formula.pieces_of_plain hne hplain]
    dsimp only [Except.map]
    rw [htokens]
    rfl
  rw [evaluate, hparse]
  rfl

/-! ## What is displayed -/

/-- The bits of a float that is displayed with digits. -/
theorem magnitude_answerFormat (b : Nat) :
    answerFormat.magnitude b = positional false (Number.shortest .away b) := by
  rw [Format.magnitude]
  exact if_pos (by simp [Format.isPositional, answerFormat])

/-- Digits are in upper case as they are. -/
theorem upper_literal (d : Formula.Literal) : Text.upper d.text = d.text :=
  Formula.Symbol.upper_text (s := .numeral d) trivial

/-- What a number is displayed as evaluates to it, in upper case. -/
theorem evaluate_upper_display (c : Calculator) (x : Float) :
    c.evaluate (Text.upper (Answer.number x).display) = .ok (.number x) := by
  show c.evaluate (Text.upper (answerFormat.write x)) = _
  unfold Format.write
  split
  · next hnan =>
    have hword : Spells "NAN".toList (Float.ofBits 0x7FF8000000000000) :=
      Formula.spells_word (by decide) rfl
    have hupper : Text.upper answerFormat.nan = "NAN".toList := by decide
    have hx : Float.ofBits 0x7FF8000000000000 = x := Number.eq_of_isNaN (by decide +kernel) hnan
    rw [hupper, c.evaluate_of_spells hword, hx]
  · next hnan =>
    have hx := Number.ofMagnitude_magnitudeBits (x := x) (by simpa using hnan)
    split
    · next hinfinite =>
      have hbits : magnitudeBits x = infinityBits := of_decide_eq_true hinfinite
      have hword : Spells "INFINITY".toList (ofMagnitude false infinityBits) :=
        Formula.spells_word (by decide) rfl
      rw [hbits] at hx
      cases hsign : isNegative x with
      | true =>
        have hupper : Text.upper answerFormat.negativeInfinity = '-' :: "INFINITY".toList := by
          decide
        rw [hsign] at hx
        rw [if_pos rfl, hupper, c.evaluate_minus_of_spells hword,
          Number.neg_ofMagnitude false (Nat.le_refl _), Bool.not_false, hx]
      | false =>
        have hupper : Text.upper answerFormat.infinity = "INFINITY".toList := by decide
        rw [hsign] at hx
        rw [if_neg (by simp), hupper, c.evaluate_of_spells hword, hx]
    · next hinfinite =>
      have hle : magnitudeBits x ≤ infinityBits := by simpa [isNaN] using hnan
      obtain ⟨d, htext, hfloat⟩ := Formula.exists_literal (Number.shortest .away (magnitudeBits x))
      have hspells := Formula.spells_literal d
      rw [hfloat, Decimal.toFloat, Number.bits_shortest .away hle] at hspells
      rw [magnitude_answerFormat, ← htext]
      cases hsign : isNegative x with
      | true =>
        rw [hsign] at hx
        rw [if_pos rfl, Text.upper_cons, Text.upperChar_of_lt (by decide), upper_literal,
          List.singleton_append, c.evaluate_minus_of_spells hspells,
          Number.neg_ofMagnitude false hle, Bool.not_false, hx]
      | false =>
        rw [hsign] at hx
        rw [if_neg (by simp), upper_literal, c.evaluate_of_spells hspells, hx]

/-! ## Padded queries -/

/-- The characters that a number is displayed with. -/
theorem mem_display {x : Float} {c : Char} (hc : c ∈ (Answer.number x).display) :
    isAsciiDigit c = true ∨ c ∈ "-.InfinityNaN".toList := by
  have hword {t : Text} (ht : t.all (· ∈ "-.InfinityNaN".toList) = true) (hc : c ∈ t) :
      c ∈ "-.InfinityNaN".toList := of_decide_eq_true (List.all_eq_true.1 ht c hc)
  have hc : c ∈ answerFormat.write x := hc
  unfold Format.write at hc
  split at hc
  · exact .inr (hword (by decide) hc)
  · split at hc
    · split at hc
      · exact .inr (hword (by decide) hc)
      · exact .inr (hword (by decide) hc)
    · obtain ⟨d, htext, -⟩ := Formula.exists_literal (Number.shortest .away (magnitudeBits x))
      have hdigits : c ∈ d.text → isAsciiDigit c = true ∨ c ∈ "-.InfinityNaN".toList := by
        intro hc
        rcases d.mem_text hc with hdigit | rfl
        · exact .inl hdigit
        · exact .inr (by decide)
      rw [magnitude_answerFormat, ← htext] at hc
      split at hc
      · rcases List.mem_cons.1 hc with rfl | hc
        · exact .inr (by decide)
        · exact hdigits hc
      · exact hdigits hc

theorem display_ne_nil (x : Float) : (Answer.number x).display ≠ [] := by
  intro h
  have hvalue := evaluate_upper_display ⟨Symbols.empty⟩ x
  rw [h, show Text.upper [] = [] from rfl, evaluate, Formula.widen_nil, Formula.parse,
    Formula.pieces_nil] at hvalue
  cases hvalue

theorem not_mem_display (x : Float) {c : Char} (hdigit : isAsciiDigit c = false)
    (hc : c ∉ "-.InfinityNaN".toList) : c ∉ (Answer.number x).display := by
  intro h
  rcases mem_display h with h | h
  · rw [hdigit] at h
    cases h
  · exact hc h

/-- A displayed number between spaces resolves to it. -/
theorem resolve_display (c : Calculator) (x : Float) (m n : Nat) :
    c.resolve (List.replicate m ' ' ++ (Answer.number x).display ++ List.replicate n ' ') =
      some (.number x) := by
  have hspace : ' ' ∉ (Answer.number x).display := not_mem_display x rfl (by decide)
  rw [resolve, Reckoner.resolve, candidates, words_padded (display_ne_nil x) hspace]
  show List.findSome? _ [(Answer.number x).display] = _
  rw [List.findSome?_cons, c.evaluate_upper_display]
  rfl

end Calculator

/-! ## An accepted number -/

/-- The trigger behind typed text. -/
theorem Session.triggerAt?_type {b : Buffer} {line q t : Text}
    (hline : b.lines[b.cursor.line]? = some line) (hcolumn : b.cursor.column ≤ line.length)
    (hq : EndsInQuery (line.take b.cursor.column ++ t) q) :
    ∃ start, triggerAt? (b.type t) (b.type t).cursor = some ⟨start, (b.type t).cursor, q⟩ := by
  have hlt : b.cursor.line < b.lines.length := (List.getElem?_eq_some_iff.1 hline).1
  rw [← (Buffer.take_spliced hcolumn t).1] at hq
  rw [Buffer.type_eq hline hcolumn]
  refine triggerAt?_cursor (List.getElem?_set_self hlt) ?_ hq
  rw [Buffer.length_spliced]
  exact Nat.add_le_add_right hcolumn _

namespace Dispatcher

variable {ε : Type} [Editor ε]

/-- A number between spaces is its own query.  A session that inserts numbers behind spaces
offers a number that was accepted again, unchanged, if an `=` is typed behind it. -/
theorem offered_again :
    (∀ (c : Calculator) (x : Float) (m n : Nat),
      c.resolve (List.replicate m ' ' ++ (Answer.number x).display ++ List.replicate n ' ') =
        some (.number x)) ∧
    ∀ (ops : List (Operation ε)) (first : Session) (spaces : Nat) (b : Buffer) (line q : Text)
      (x : Float),
      (empty.run ops).sources.head? = some first →
      first.settings.insertPrefix = List.replicate spaces ' ' →
      b.lines[b.cursor.line]? = some line → b.cursor.column ≤ line.length →
      EndsInQuery (line.take b.cursor.column) q →
      first.calculator.resolve q = some (.number x) →
      line.length + spaces + (Answer.number x).display.length < columnBound →
      ∃ d changed, ((empty.run ops).event b).accept 0 (some b) = (d, some changed, true) ∧
        (d.event (changed.type ['='])).suggestions.map Suggestion.answer = [.number x] ∧
        (d.event (changed.type ['='])).rendered =
          [first.settings.renderPrefix ++ (Answer.number x).display] := by
  refine ⟨Calculator.resolve_display, ?_⟩
  intro ops first spaces b line q x hfirst hprefix hline hcolumn hq hanswer hbound
  have hd := consistent_run ops
  obtain ⟨rest, hsources⟩ : ∃ rest, (empty.run ops).sources = first :: rest :=
    List.head?_eq_some_iff.1 hfirst
  obtain ⟨start, htrigger⟩ := Session.triggerAt?_cursor hline hcolumn hq
  have hevent := event_of_trigger hd hsources htrigger
  simp only [hanswer] at hevent
  -- The number is inserted between the two parts of the line.
  generalize ht : (⟨start, b.cursor, q⟩ : Trigger) = t at hevent
  have hstop : t.stop = b.cursor := by rw [← ht]
  have hinserted : (⟨q, .number x⟩ : Suggestion).after first.settings.insertPrefix =
      List.replicate spaces ' ' ++ (Answer.number x).display := by rw [Suggestion.after, hprefix]
  obtain ⟨hnew, hcursor⟩ := first.insertAnswer_cursor t ⟨q, .number x⟩ (hstop ▸ hline)
    (hstop ▸ hcolumn) (by rw [hinserted, List.length_append, List.length_replicate]; omega)
  rw [hstop, hinserted] at hnew hcursor
  have haccept : ((empty.run ops).event b).accept 0 (some b) =
      (⟨first.close :: rest.map Session.close, none⟩,
        some (first.insertAnswer t ⟨q, .number x⟩ b), true) := by
    rw [hevent]
    rfl
  have hclosed := closed_accept (consistent_event hd b) 0 (some b)
  rw [haccept] at hclosed
  refine ⟨_, _, haccept, ?_⟩
  generalize first.insertAnswer t ⟨q, .number x⟩ b = changed at *
  generalize hinsert : List.replicate spaces ' ' ++ (Answer.number x).display = inserted at *
  -- An `=` behind it ends a query, which is the number with the spaces before it.
  have hinside : changed.cursor.column ≤
      (Buffer.spliced line b.cursor.column inserted).length := by
    rw [hcursor, Buffer.length_spliced]
    exact Nat.add_le_add_right hcolumn _
  have hquery : EndsInQuery ((Buffer.spliced line b.cursor.column inserted).take
      changed.cursor.column ++ ['=']) inserted := by
    rw [hcursor, (Buffer.take_spliced hcolumn inserted).1]
    refine ⟨_, rfl, ?_, .inr (getLast?_of_endsInQuery hq)⟩
    rw [← hinsert, List.mem_append, not_or]
    refine ⟨fun h => absurd (List.eq_of_mem_replicate h) (by decide), ?_⟩
    exact Calculator.not_mem_display x rfl (by decide)
  obtain ⟨start', htrigger'⟩ := Session.triggerAt?_type hnew hinside hquery
  have hresolve : first.close.calculator.resolve inserted = some (.number x) := by
    rw [← hinsert, ← List.append_nil (_ ++ _)]
    exact first.calculator.resolve_display x spaces 0
  have hagain := event_of_trigger (.inl hclosed) rfl htrigger'
  simp only [hresolve] at hagain
  rw [hagain]
  exact ⟨rfl, rfl⟩

/-- A sum that is no short number, accepted in the middle of a line. -/
theorem offered_again_sum :
    let settings := Settings.default
    let ops : List (Operation Buffer) := [.register settings settings.calculator]
    let b : Buffer := ⟨["0.1+0.2=;".toList], ⟨0, 8⟩⟩
    ∃ d changed, ((empty.run ops).event b).accept 0 (some b) = (d, some changed, true) ∧
      (d.event (changed.type ['='])).suggestions.map Suggestion.answer =
        [.number 0.30000000000000004] ∧
      (d.event (changed.type ['='])).rendered = ["↵ 0.30000000000000004".toList] := by
  intro settings ops b
  have hquery : EndsInQuery "0.1+0.2=".toList "0.1+0.2".toList :=
    ⟨[], by decide, by decide, .inl rfl⟩
  have hbits : (settings.calculator.resolve "0.1+0.2".toList).map
      (fun answer => answer.casesOn (fun x => x.toBits.toNat) fun _ => 0) =
        some (0.30000000000000004 : Float).toBits.toNat := by decide +kernel
  have hanswer : settings.calculator.resolve "0.1+0.2".toList =
      some (.number 0.30000000000000004) := by
    obtain ⟨answer, hresolve, hanswer⟩ := Option.map_eq_some_iff.1 hbits
    cases answer with
    | number x => rw [hresolve, Number.eq_of_toBits hanswer]
    | text t =>
      have hzero : 0 = (0.30000000000000004 : Float).toBits.toNat := hanswer
      exact absurd hzero (by decide +kernel)
  have hdisplay : (Answer.number 0.30000000000000004).display = "0.30000000000000004".toList := by
    decide +kernel
  have hbound : "0.1+0.2=;".toList.length + 1 +
      (Answer.number 0.30000000000000004).display.length < columnBound := by
    rw [hdisplay]
    decide
  obtain ⟨d, changed, haccept, hanswers, hrendered⟩ :=
    offered_again.2 ops (Session.ofSettings settings) 1 b "0.1+0.2=;".toList "0.1+0.2".toList
      0.30000000000000004 rfl rfl rfl (by decide) hquery hanswer hbound
  rw [hdisplay] at hrendered
  exact ⟨d, changed, haccept, hanswers, hrendered⟩

end Dispatcher

end Reckoner
