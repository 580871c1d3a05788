import Reckoner.Calculator
import Reckoner.Proofs.Integers
import Reckoner.Proofs.Symbols

/-!
# More constants

A calculator gets further constants and keeps those it has.  A formula is worth what it was worth
before, with the same fault if it had one.  The one exception is a formula that failed because of
a name that is a constant now.

Names are the only way to the constants, and the first fault in the order of evaluation counts.
So a result is `Kept`: it stays, or it was the fault of a name that is known now.  Every step of
an evaluation keeps what its parts keep (`Kept.bind`), and the only step that looks at the
constants is the reading of a name (`kept_apply`).  `kept_value` follows by induction on the tree.

In a query a candidate that had a value still has it.  A longer one may have a value now and go
before it, so the query is never worth nothing for more constants (`resolvesAt_of_more`).
-/

namespace Reckoner

namespace Formula

variable {lookup lookup' : Text → Option Float}

/-! ## Results that are kept -/

/-- A result `r` becomes `r'` where the constants become those of `lookup'`: it stays, or it is the
fault of a name that is known now. -/
def Kept {α : Type} (lookup' : Text → Option Float) (r r' : Except Fault α) : Prop :=
  r' = r ∨ ∃ name x, r = .error (.unknownSymbol name) ∧ lookup' name = some x

theorem Kept.refl {α : Type} (r : Except Fault α) : Kept lookup' r r := .inl rfl

/-- What has a value keeps it. -/
theorem Kept.eq_ok {α : Type} {r r' : Except Fault α} (h : Kept lookup' r r') {a : α}
    (ha : r = .ok a) : r' = .ok a := by
  rcases h with h | ⟨name, x, hr, -⟩
  · exact h.trans ha
  · rw [ha] at hr
    cases hr

/-- Two steps keep what each of them keeps. -/
theorem Kept.bind {α β : Type} {r r' : Except Fault α} {f f' : α → Except Fault β}
    (hr : Kept lookup' r r') (hf : ∀ a, r = .ok a → Kept lookup' (f a) (f' a)) :
    Kept lookup' (r >>= f) (r' >>= f') := by
  rcases hr with rfl | ⟨name, x, rfl, hx⟩
  · cases r' with
    | error fault => exact .refl _
    | ok a => exact hf a rfl
  · exact .inr ⟨name, x, rfl, hx⟩

/-! ## Evaluation -/

theorem kept_values {kids : List Tree}
    (hkids : ∀ kid ∈ kids, Kept lookup' (kid.value lookup) (kid.value lookup')) :
    Kept lookup' (Tree.values lookup kids) (Tree.values lookup' kids) := by
  induction kids with
  | nil => exact .refl _
  | cons kid earlier ih =>
    obtain ⟨hkid, hearlier⟩ := List.forall_mem_cons.1 hkids
    rw [Tree.values, Tree.values]
    exact (ih hearlier).bind fun vs _ => hkid.bind fun v _ => .refl _

section More

variable (h : ∀ name x, lookup name = some x → lookup' name = some x)

include h

theorem kept_readConstant (name : Text) :
    Kept lookup' (readConstant lookup name) (readConstant lookup' name) := by
  cases hx : lookup name with
  | some x =>
    left
    rw [readConstant, readConstant, hx, h name x hx]
  | none =>
    cases hx' : lookup' name with
    | none =>
      left
      rw [readConstant, readConstant, hx, hx']
    | some x =>
      right
      exact ⟨name, x, by rw [readConstant, hx], hx'⟩

/-- The one operator that looks at the constants is the reading of a name. -/
theorem kept_apply (op : Operator) (vs : List Value) :
    Kept lookup' (op.apply lookup vs) (op.apply lookup' vs) := by
  cases op with
  | read name =>
    cases vs with
    | nil => exact kept_readConstant h name
    | cons v vs => exact .refl _
  | literal v => cases vs <;> exact .refl _
  | write name => cases vs <;> exact .refl _
  | call name =>
    match vs with
    | [] | [_] | _ :: _ :: _ => exact .refl _
  | negate =>
    match vs with
    | [] | [_] | _ :: _ :: _ => exact .refl _
  | not =>
    match vs with
    | [] | [_] | _ :: _ :: _ => exact .refl _
  | binary b =>
    match vs with
    | [] | [_] | [_, _] | _ :: _ :: _ :: _ => exact .refl _
  | group => exact .refl _
  | tuple => exact .refl _
  | chain => exact .refl _
  | assign plain => exact .refl _

/-- A tree keeps its value or its fault. -/
theorem kept_value (t : Tree) : Kept lookup' (t.value lookup) (t.value lookup') := by
  induction t using Tree.induction with
  | node op kids ih =>
    rw [Tree.value, Tree.value]
    exact (kept_values ih).bind fun vs _ => kept_apply h op vs.reverse

end More

end Formula

/-- A constant with a new name leaves every name what it was. -/
theorem Symbols.find?_insert_of_new {s : Symbols} {name : Text} (hnew : s.find? name = none)
    (x : Float) : ∀ other y, s.find? other = some y → (s.insert name x).find? other = some y := by
  intro other y hy
  rw [s.find?_insert, if_neg, hy]
  intro hsame
  rw [s.find?_upper hsame, hnew] at hy
  cases hy

/-! ## Queries -/

/-- What a list is worth is worth at a place of it, and nothing before that place is. -/
theorem findSome?_eq_some_iff_getElem? {α β : Type} {f : α → Option β} {items : List α} {b : β} :
    items.findSome? f = some b ↔
      ∃ (i : Nat) (a : α), items[i]? = some a ∧ f a = some b ∧
        ∀ (j : Nat) (a : α), j < i → items[j]? = some a → f a = none := by
  rw [List.findSome?_eq_some_iff]
  constructor
  · rintro ⟨before, a, after, rfl, ha, hbefore⟩
    refine ⟨before.length, a, by simp, ha, fun j c hj hc => hbefore c ?_⟩
    rw [List.getElem?_append_left hj] at hc
    exact List.mem_of_getElem? hc
  · rintro ⟨i, a, hi, ha, hbefore⟩
    obtain ⟨hlt, rfl⟩ := List.getElem?_eq_some_iff.1 hi
    refine ⟨items.take i, items[i], items.drop (i + 1), ?_, ha, fun c hc => ?_⟩
    · rw [List.getElem_cons_drop, List.take_append_drop]
    · obtain ⟨j, hj, rfl⟩ := List.mem_take_iff_getElem.1 hc
      exact hbefore j _ (by omega) (List.getElem?_eq_getElem (by omega))

namespace Calculator

open Formula (Kept)

/-- The candidate at the place `i` is the first of a query with a value, and this is its value. -/
structure ResolvesAt (c : Calculator) (query : Text) (i : Nat) (answer : Answer) : Prop where
  /-- It has this value. -/
  value : ∃ candidate, (candidates query)[i]? = some candidate ∧
    c.evaluate (Text.upper candidate) = .ok answer
  /-- The candidates before it have none. -/
  before : ∀ j candidate, j < i → (candidates query)[j]? = some candidate →
    ∃ fault, c.evaluate (Text.upper candidate) = .error fault

/-- A query is worth what the first of its candidates with a value is worth. -/
theorem resolve_eq_some_iff {c : Calculator} {query : Text} {answer : Answer} :
    c.resolve query = some answer ↔ ∃ i, c.ResolvesAt query i answer := by
  rw [resolve, Reckoner.resolve, findSome?_eq_some_iff_getElem?]
  simp only [toOption_eq_some_iff, toOption_eq_none_iff]
  constructor
  · rintro ⟨i, candidate, hi, hvalue, hbefore⟩
    exact ⟨i, ⟨candidate, hi, hvalue⟩, hbefore⟩
  · rintro ⟨i, ⟨candidate, hi, hvalue⟩, hbefore⟩
    exact ⟨i, candidate, hi, hvalue, hbefore⟩

section More

variable {s s' : Symbols} (h : ∀ name x, s.find? name = some x → s'.find? name = some x)

include h

/-- A formula keeps its value or its fault. -/
theorem kept_evaluate (formula : Text) :
    Kept s'.find? ((⟨s⟩ : Calculator).evaluate formula) ((⟨s'⟩ : Calculator).evaluate formula) := by
  rw [evaluate, evaluate]
  refine (Kept.refl _).bind fun tree _ => ?_
  exact (Formula.kept_value h tree).bind fun v _ => .refl _

/-- A query with a value has one, at the same candidate or at a longer one. -/
theorem resolvesAt_of_more {query : Text} {i : Nat} {answer : Answer}
    (hi : (⟨s⟩ : Calculator).ResolvesAt query i answer) :
    ∃ j answer', j ≤ i ∧ (⟨s'⟩ : Calculator).ResolvesAt query j answer' ∧
      (j = i → answer' = answer) := by
  obtain ⟨candidate, hget, hvalue⟩ := hi.value
  have hvalue' := (kept_evaluate h (Text.upper candidate)).eq_ok hvalue
  have hsome : ((candidates query).findSome? fun candidate =>
      ((⟨s'⟩ : Calculator).evaluate (Text.upper candidate)).toOption) ≠ none := by
    rw [Ne, List.findSome?_eq_none_iff]
    intro hnone
    have hfault := hnone candidate (List.mem_of_getElem? hget)
    rw [hvalue'] at hfault
    cases hfault
  obtain ⟨answer', hresolve⟩ := Option.ne_none_iff_exists'.1 hsome
  obtain ⟨j, hj⟩ := resolve_eq_some_iff.1 hresolve
  refine ⟨j, answer', Nat.le_of_not_lt fun hlt => ?_, hj, ?_⟩
  · obtain ⟨fault, hfault⟩ := hj.before i candidate hlt hget
    rw [hvalue'] at hfault
    cases hfault
  · rintro rfl
    obtain ⟨other, hother, hvalueOther⟩ := hj.value
    cases hget.symm.trans hother
    exact Except.ok.inj (hvalueOther.symm.trans hvalue')

end More

/-- Two tables of constants, where the second knows every name of the first, for the same number.
A formula has the same value or the same fault with both, unless it fails with the first because
of a name that only the second knows.  So a query that has a value with the first, at the
candidate `i`, has one with the second, at a candidate `j` no later than that, and if it is the
same candidate it has the same value. -/
theorem evaluate_of_more (s s' : Symbols)
    (h : ∀ name x, s.find? name = some x → s'.find? name = some x) :
    let c : Calculator := ⟨s⟩
    let c' : Calculator := ⟨s'⟩
    (∀ formula, c'.evaluate formula = c.evaluate formula ∨
      ∃ name x, c.evaluate formula = .error (.unknownSymbol name) ∧ s'.find? name = some x) ∧
    (∀ query answer, c.resolve query = some answer ↔ ∃ i, c.ResolvesAt query i answer) ∧
    (∀ query i answer, c.ResolvesAt query i answer → ∃ j answer', j ≤ i ∧
      c'.ResolvesAt query j answer' ∧ c'.resolve query = some answer' ∧
      (j = i → answer' = answer)) := by
  intro c c'
  refine ⟨fun formula => kept_evaluate h formula, fun query answer => resolve_eq_some_iff,
    fun query i answer hi => ?_⟩
  obtain ⟨j, answer', hle, hj, hsame⟩ := resolvesAt_of_more h hi
  exact ⟨j, answer', hle, hj, resolve_eq_some_iff.2 ⟨j, hj⟩, hsame⟩

/-- With the constant `A` the whole of a query has a value, and without it only its last word. -/
theorem evaluate_of_more_rate :
    let s := Symbols.builtIn
    let s' := s.insert "a".toList 3
    let query := "2 * a + 1".toList
    (∀ name x, s.find? name = some x → s'.find? name = some x) ∧
    ((⟨s⟩ : Calculator).resolve query).map Answer.display = some "1".toList ∧
    ∃ i answer j answer', (⟨s⟩ : Calculator).ResolvesAt query i answer ∧ j ≤ i ∧
      (⟨s'⟩ : Calculator).ResolvesAt query j answer' ∧ answer'.display = "7".toList := by
  intro s s' query
  have hmore : ∀ name x, s.find? name = some x → s'.find? name = some x :=
    Symbols.find?_insert_of_new (by decide +kernel) 3
  have hdisplay : ((⟨s⟩ : Calculator).resolve query).map Answer.display = some "1".toList ∧
      ((⟨s'⟩ : Calculator).resolve query).map Answer.display = some "7".toList := by
    decide +kernel
  obtain ⟨answer, hanswer, -⟩ := Option.map_eq_some_iff.1 hdisplay.1
  obtain ⟨-, hresolves, hkept⟩ := evaluate_of_more s s' hmore
  obtain ⟨i, hi⟩ := (hresolves query answer).1 hanswer
  obtain ⟨j, answer', hle, hj, hanswer', -⟩ := hkept query i answer hi
  rw [hanswer'] at hdisplay
  exact ⟨hmore, hdisplay.1, i, answer, j, answer', hi, hle, hj, Option.some.inj hdisplay.2⟩

end Calculator

end Reckoner
