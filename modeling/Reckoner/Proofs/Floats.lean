import Reckoner.Proofs.Characters
import Reckoner.Proofs.Integers

/-!
# Numbers are floats, but for one mark

`widen` writes every literal of digits as a float, so that no integer takes part in an
evaluation.  It does so in every formula without comments that has a value, with one exception.
A name that ends in a digit and `E`, in front of a sign and a number, looks to the scan like a
numeral with an exponent if the scan does not see that the name began.  That is so if it begins
with U+0345.  The scan takes this mark for no letter, and the lookup finds the name in upper
case, where the mark is the letter Ι.

`evaluate_integer_iff` says that this is the only way: an integer is computed exactly if an
integer literal stands behind a sign and a name with the mark.
-/

namespace Reckoner

open Formula

namespace Formula

theorem hasInteger_of_literalValue? {t : Text} {v : Value} (h : literalValue? t = some v)
    (hv : v.hasInteger = true) : ∃ n, v = .integer n := by
  unfold literalValue? at h
  split at h
  · exact ⟨_, (Option.some.inj h).symm⟩
  · split at h
    · cases h
      cases hv
    · split at h
      · cases h
        cases hv
      · split at h
        · cases h
          cases hv
        · cases h

/-- The only operands that hold integers are integer literals. -/
theorem literal_integer_of_reads {ps : List Piece} {ts : List Token} (h : Reads ps ts) {v : Value}
    (hmem : .literal v ∈ operands ts) (hv : v.hasInteger = true) : ∃ n, v = .integer n := by
  induction h with
  | nil => cases hmem
  | blank _ ih => exact ih hmem
  | sign hs _ ih =>
    rw [operands_mark (isMark_of_alone? hs)] at hmem
    exact ih hmem
  | joined _ hmark _ ih =>
    rw [operands_mark hmark] at hmem
    exact ih hmem
  | quoted _ ih =>
    rcases List.mem_cons.1 hmem with heq | hmem
    · cases heq
      cases hv
    · exact ih hmem
  | value hw _ ih =>
    rcases List.mem_cons.1 hmem with heq | hmem
    · cases heq
      exact hasInteger_of_literalValue? hw hv
    · exact ih hmem
  | name _ _ _ ih => exact ih (literal_mem_operands_name hmem)
  | split _ _ _ ih =>
    rcases List.mem_cons.1 hmem with heq | hmem
    · cases heq
      cases hv
    · exact ih hmem

end Formula

/-! ## Names -/

theorem exists_mem_of_find? {s : Symbols} {name : Text} {x : Float} (h : s.find? name = some x) :
    ∃ p ∈ s.constants.entries, p.1 = Text.upper name := by
  obtain ⟨before, after, heq, -⟩ := List.lookup_eq_some_iff.1 h
  exact ⟨(Text.upper name, x), by rw [heq]; simp, rfl⟩

/-- What is no name but finds a constant has the mark U+0345. -/
theorem mark_of_find? {s : Symbols} (hnames : ∀ p ∈ s.constants.entries, IsName p.1)
    {name : Text} (hname : ¬ IsName name) {x : Float} (h : s.find? name = some x) :
    '\u0345' ∈ name := by
  apply Classical.byContradiction
  intro hmark
  obtain ⟨p, hp, heq⟩ := exists_mem_of_find? h
  exact hname (isName_of_upper hmark (heq ▸ hnames p hp))

namespace Calculator

/-- Where a widened formula has a value, an integer is computed exactly if an integer literal
stands behind a sign and a literal with the mark. -/
theorem computes_integer_iff_behind (c : Calculator)
    (hnames : ∀ p ∈ c.symbols.constants.entries, IsName p.1) {formula : Text}
    (hf : Uncommented formula) {ps : List Piece} (hps : pieces (widen formula) = .ok ps)
    {tree : Tree} (htree : parse (widen formula) = .ok tree) {v : Value}
    (hv : tree.value c.symbols.find? = .ok v) :
    (∃ u, tree.Computes c.symbols.find? u ∧ u.hasInteger = true) ↔
      Behind ('\u0345' ∈ ·) ps := by
  obtain ⟨ps', ts, hps', hreads, hleaves⟩ := parse_inv htree
  cases hps.symm.trans hps'
  rw [Tree.computes_integer_iff hv, hleaves]
  constructor
  · rintro ⟨u, hu, hinteger⟩
    obtain ⟨n, rfl⟩ := literal_integer_of_reads hreads hu hinteger
    rcases exposed_of_integer hreads (aligned hf hps).1 hu with ⟨hfalse, -⟩ | hbehind
    · cases hfalse
    · refine hbehind.imp fun m hm => ?_
      obtain ⟨x, hx⟩ := Tree.exists_of_read_mem_leaves hv (hleaves ▸ hm.2)
      exact mark_of_find? hnames hm.1.notName hx
  · intro hbehind
    obtain ⟨n, hn⟩ := exists_integer_of_behind hreads hbehind
    exact ⟨.integer n, hn, rfl⟩

/-- A formula without the mark has no literal with the mark. -/
theorem not_behind_of_not_mem {formula : Text} (hmark : '\u0345' ∉ formula) {ps : List Piece}
    (hps : pieces (widen formula) = .ok ps) : ¬ Behind ('\u0345' ∈ ·) ps := by
  rintro ⟨m, s, l, hin, -, -, hm⟩
  have hmem : .literal m ∈ ps := hin.subset List.mem_cons_self
  rcases mem_of_pads (pads_widen formula) (mem_of_mem_contents hps hmem hm) with h | h | h
  · exact hmark h
  · exact absurd h (by decide)
  · exact absurd h (by decide)

/-- In a formula without comments that has a value, where all constants have names, an integer
is computed exactly if the first cut of the widened formula has an integer literal behind a sign
and a literal with the mark U+0345.  Without the mark all numbers are floats.  The text literals
are the quoted texts of the formula as it is written, in order. -/
theorem evaluate_integer_iff (c : Calculator)
    (hnames : ∀ p ∈ c.symbols.constants.entries, IsName p.1) {formula : Text}
    (hf : Uncommented formula) {answer : Answer} (h : c.evaluate formula = .ok answer) :
    ∃ ps qs tree v, pieces (widen formula) = .ok ps ∧ pieces formula = .ok qs ∧
      parse (widen formula) = .ok tree ∧ tree.value c.symbols.find? = .ok v ∧
      Answer.ofValue v = .ok answer ∧
      ((∃ u, tree.Computes c.symbols.find? u ∧ u.hasInteger = true) ↔
        Behind ('\u0345' ∈ ·) ps) ∧
      ('\u0345' ∉ formula → ∀ u, tree.Computes c.symbols.find? u → u.hasInteger = false) ∧
      literalTexts tree.leaves = quotedTexts qs := by
  obtain ⟨tree, htree, h⟩ := exists_of_bind_eq_ok h
  obtain ⟨v, hv, hanswer⟩ := exists_of_bind_eq_ok h
  obtain ⟨ps, ts, hps, hreads, hleaves⟩ := parse_inv htree
  obtain ⟨-, qs, hqs, htexts⟩ := aligned hf hps
  have hiff := c.computes_integer_iff_behind hnames hf hps htree hv
  refine ⟨ps, qs, tree, v, hps, hqs, htree, hv, hanswer, hiff, fun hmark u hu => ?_, ?_⟩
  · refine Bool.eq_false_iff.2 fun hinteger => ?_
    exact not_behind_of_not_mem hmark hps (hiff.1 ⟨u, hu, hinteger⟩)
  · rw [hleaves, literalTexts_operands hreads, htexts]

/-! ## The name `Ι1E` -/

/-- The calculator whose only constant has a name that ends in a digit and `E`. -/
def exponential : Calculator := ⟨Symbols.empty.insert "Ι1E".toList 2⟩

theorem isName_exponential : ∀ p ∈ exponential.symbols.constants.entries, IsName p.1 := by
  decide +kernel

theorem exists_of_display {c : Calculator} {formula t : Text}
    (h : (c.evaluate formula).toOption.map Answer.display = some t) :
    ∃ answer, c.evaluate formula = .ok answer := by
  obtain ⟨answer, hanswer, -⟩ := Option.map_eq_some_iff.1 h
  exact ⟨answer, toOption_eq_some_iff.1 hanswer⟩

/-- Without the mark the name is seen, and the numbers behind it are widened. -/
theorem evaluate_integer_iff_exponential :
    let formula := "\"1/2\"; Ι1E+7/2".toList
    (exponential.evaluate formula).toOption.map Answer.display = some "5.5".toList ∧
    ∃ tree, parse (widen formula) = .ok tree ∧
      (∀ u, tree.Computes exponential.symbols.find? u → u.hasInteger = false) ∧
      literalTexts tree.leaves = ["1/2".toList] := by
  intro formula
  obtain ⟨hf, hdisplay, htexts⟩ : Uncommented formula ∧
      (exponential.evaluate formula).toOption.map Answer.display = some "5.5".toList ∧
      (pieces formula).toOption.map quotedTexts = some ["1/2".toList] := by
    decide +kernel
  obtain ⟨answer, hanswer⟩ := exists_of_display hdisplay
  obtain ⟨_, qs, tree, _, -, hqs, htree, -, -, -, hfloats, heq⟩ :=
    exponential.evaluate_integer_iff isName_exponential hf hanswer
  rw [hqs] at htexts
  exact ⟨hdisplay, tree, htree, hfloats (by decide), heq.trans (Option.some.inj htexts)⟩

/-- With the mark in place of the capital letter, `0x10` is the integer sixteen. -/
theorem exponential_computes_integer :
    let formula := "\u03451E+0x10".toList
    (∀ p ∈ exponential.symbols.constants.entries, IsName p.1) ∧ Uncommented formula ∧
    (exponential.evaluate formula).toOption.map Answer.display = some "18".toList ∧
    ∃ tree, parse (widen formula) = .ok tree ∧
      ∃ u, tree.Computes exponential.symbols.find? u ∧ u.hasInteger = true := by
  intro formula
  obtain ⟨hf, hdisplay, hpieces⟩ : Uncommented formula ∧
      (exponential.evaluate formula).toOption.map Answer.display = some "18".toList ∧
      (pieces (widen formula)).toOption =
        some [.literal "\u03451E".toList, .sign .plus, .literal "0x10".toList] := by
    decide +kernel
  obtain ⟨answer, hanswer⟩ := exists_of_display hdisplay
  obtain ⟨tree, htree, h⟩ := exists_of_bind_eq_ok hanswer
  obtain ⟨v, hv, -⟩ := exists_of_bind_eq_ok h
  obtain ⟨ps, -, hps, -, -⟩ := parse_inv htree
  have hiff := exponential.computes_integer_iff_behind isName_exponential hf hps htree hv
  rw [hps] at hpieces
  have heq : ps = [.literal "\u03451E".toList, .sign .plus, .literal "0x10".toList] :=
    Option.some.inj hpieces
  have hbehind : Behind ('\u0345' ∈ ·) ps := by
    rw [heq]
    exact ⟨_, _, _, List.infix_refl _, .inl rfl, by decide, by decide⟩
  exact ⟨isName_exponential, hf, hdisplay, tree, htree, hiff.2 hbehind⟩

end Calculator

end Reckoner
