import Reckoner.Proofs.Growth

/-!
# A query that is an expression

The tree that an expression grows into has the value of the expression, as a float
(`value_tree`).  The arguments of a call arrive in one of three shapes, none, one value or a
tuple, and the function sees the same list in each of them (`exists_arguments`).

So a query that is a printed expression is worth the value of the expression, as a whole and
with no suffix taken for it (`resolve_text`).
-/

namespace Reckoner

namespace Formula

open Reckoner.Formula.Tree

variable {lookup : Text → Option Float}

/-! ## Values of nodes -/

theorem value_node {op : Operator} {kids : List Tree} {vs : List Value}
    (h : values lookup kids = .ok vs) :
    (Tree.node op kids).value lookup = op.apply lookup vs.reverse := by
  rw [Tree.value, h]
  rfl

theorem values_singleton {t : Tree} {v : Value} (h : t.value lookup = .ok v) :
    values lookup [t] = .ok [v] := by
  simp only [values, h]
  rfl

/-- The values of arguments that have values one by one. -/
theorem values_map {α : Type} (f : α → Tree) (g : α → Value) (items : List α)
    (h : ∀ a ∈ items, (f a).value lookup = .ok (g a)) :
    values lookup (items.map f) = .ok (items.map g) := by
  induction items with
  | nil => rfl
  | cons a items ih =>
    obtain ⟨ha, hitems⟩ := List.forall_mem_cons.1 h
    rw [List.map_cons, values, ih hitems, ha]
    rfl

theorem value_group {t : Tree} {v : Value} (h : t.value lookup = .ok v) :
    (Tree.node .group [t]).value lookup = .ok v :=
  value_node (values_singleton h)

theorem value_grouped {t : Tree} {v : Value} (needed : Bool) (h : t.value lookup = .ok v) :
    (grouped needed t).value lookup = .ok v := by
  cases needed with
  | false => exact h
  | true => exact value_group h

theorem apply_operation (o : Operation) (x y : Float) :
    o.binary.apply (.float x) (.float y) = .ok (.float (o.floats x y)) := by
  cases o <;> rfl

/-! ## Arguments -/

theorem mapM_number (xs : List Float) : (xs.map Value.float).mapM Value.number = .ok xs := by
  induction xs with
  | nil => rfl
  | cons x xs ih =>
    rw [List.map_cons, List.mapM_cons, ih]
    rfl

/-- The tuple of several arguments.  They are listed from the latest on, and their values in
order. -/
theorem value_tuple {ps : List (Tree × Float)}
    (h : ∀ p ∈ ps, p.1.value lookup = .ok (.float p.2)) :
    (Tree.node .tuple ((ps.map Prod.fst).map fun t => .node .group [t]).reverse).value lookup =
      .ok (.tuple ((ps.map Prod.snd).map .float)) := by
  have hvalues := values_map (fun p : Tree × Float => .node .group [p.1]) (fun p => .float p.2)
    ps.reverse fun p hp => value_group (h p (List.mem_reverse.1 hp))
  rw [List.map_reverse, List.map_reverse] at hvalues
  rw [List.map_map, List.map_map]
  refine (value_node hvalues).trans ?_
  rw [List.reverse_reverse]
  rfl

/-- A function sees the values of its arguments as one list, whatever the shape of the group. -/
theorem exists_arguments {ps : List (Tree × Float)}
    (h : ∀ p ∈ ps, p.1.value lookup = .ok (.float p.2)) :
    ∃ v, (argumentGroup (ps.map Prod.fst)).value lookup = .ok v ∧
      arguments v = .ok (ps.map Prod.snd) := by
  match ps, h with
  | [], _ => exact ⟨.empty, rfl, rfl⟩
  | [p], h => exact ⟨.float p.2, value_group (h p List.mem_cons_self), rfl⟩
  | p :: q :: ps, h => exact ⟨_, value_group (value_tuple h), mapM_number _⟩

namespace Expression

theorem exists_pairs {es : List Expression} {xs : List Float} (hxs : values lookup es = some xs)
    (h : ∀ e ∈ es, ∀ x, e.value lookup = some x → (e.tree 0).value lookup = .ok (.float x)) :
    ∃ ps : List (Tree × Float), ps.map Prod.fst = trees es ∧ ps.map Prod.snd = xs ∧
      ∀ p ∈ ps, p.1.value lookup = .ok (.float p.2) := by
  induction es generalizing xs with
  | nil =>
    cases hxs
    exact ⟨[], rfl, rfl, fun _ hp => nomatch hp⟩
  | cons e es ih =>
    obtain ⟨he, hes⟩ := List.forall_mem_cons.1 h
    obtain ⟨x, hx, hxs⟩ := Option.bind_eq_some_iff.1 hxs
    obtain ⟨ys, hys, hxs⟩ := Option.bind_eq_some_iff.1 hxs
    cases hxs
    obtain ⟨ps, hfst, hsnd, hps⟩ := ih hys hes
    refine ⟨(e.tree 0, x) :: ps, ?_, ?_, List.forall_mem_cons.2 ⟨he x hx, hps⟩⟩
    · rw [List.map_cons, hfst, trees]
    · rw [List.map_cons, hsnd]

/-- The tree of an expression has the value of the expression. -/
theorem value_tree {e : Expression} {x : Float} (h : e.value lookup = some x) (bound : Nat) :
    (e.tree bound).value lookup = .ok (.float x) := by
  induction e using Expression.induction generalizing x bound with
  | number d =>
    cases h
    rfl
  | constant k =>
    show readConstant lookup k.name = _
    rw [readConstant, show lookup k.name = some x from h]
  | negate e ih =>
    obtain ⟨y, hy, rfl⟩ := Option.map_eq_some_iff.1 h
    refine value_grouped _ ((value_node (values_singleton (ih hy negationLevel))).trans ?_)
    rfl
  | binary o left right ihl ihr =>
    obtain ⟨y, hy, h⟩ := Option.bind_eq_some_iff.1 h
    obtain ⟨z, hz, h⟩ := Option.bind_eq_some_iff.1 h
    cases h
    have hvalues : Tree.values lookup [right.tree (o.level + 1), left.tree o.level] =
        .ok [.float z, .float y] := by
      rw [Tree.values, values_singleton (ihl hy _), ihr hz _]
      rfl
    refine value_grouped _ ((value_node hvalues).trans ?_)
    exact apply_operation o y z
  | call f args ih =>
    obtain ⟨xs, hxs, h⟩ := Option.bind_eq_some_iff.1 h
    have happly : f.apply xs = .ok x := by
      cases hf : f.apply xs with
      | ok y =>
        rw [hf] at h
        cases h
        rfl
      | error fault =>
        rw [hf] at h
        cases h
    obtain ⟨ps, hfst, hsnd, hps⟩ := exists_pairs hxs fun a ha y hy => ih a ha hy 0
    obtain ⟨v, hv, hargs⟩ := exists_arguments hps
    rw [hfst] at hv
    rw [hsnd] at hargs
    refine (value_node (values_singleton hv)).trans ?_
    show callFunction f.name v = _
    rw [callFunction, ofName?_name]
    show (arguments v >>= fun xs => f.apply xs >>= fun x => pure (Value.float x)) = _
    rw [hargs]
    show (f.apply xs >>= fun x => pure (Value.float x)) = _
    rw [happly]
    rfl

end Expression

end Formula

/-! ## The query -/

namespace Calculator

open Formula (Expression)

/-- The text of an expression evaluates to the value of the expression. -/
theorem evaluate_text (c : Calculator) {e : Expression} {x : Float}
    (h : e.value c.symbols.find? = some x) : c.evaluate e.text = .ok (.number x) := by
  have htree : (Formula.Tree.node .group [e.tree 0]).value c.symbols.find? = .ok (.float x) :=
    Formula.value_group (Expression.value_tree h 0)
  rw [evaluate, Expression.parse_text, Formula.tree_tokens]
  show ((Formula.Tree.node .group [e.tree 0]).value c.symbols.find? >>= Answer.ofValue) = _
  rw [htree]
  rfl

/-- A well-formed expression has a value, and the query that is its text is worth that value.
The first candidate is the whole text, and it is the one that counts. -/
theorem resolve_text (c : Calculator) (e : Expression) (h : e.WellFormed c.symbols.find?) :
    ∃ x, e.value c.symbols.find? = some x ∧ (candidates e.text).head? = some e.text ∧
      c.evaluate (Text.upper e.text) = .ok (.number x) ∧
      c.resolve e.text = some (.number x) := by
  obtain ⟨x, hx⟩ := Expression.exists_value_iff.2 h
  have hevaluate : c.evaluate (Text.upper e.text) = .ok (.number x) := by
    rw [e.upper_text]
    exact c.evaluate_text hx
  refine ⟨x, hx, e.head?_candidates_text, hevaluate, ?_⟩
  obtain ⟨shorter, hcandidates⟩ := List.head?_eq_some_iff.1 e.head?_candidates_text
  rw [resolve, Reckoner.resolve, hcandidates, List.findSome?_cons, hevaluate]
  rfl

/-! ## A query with parentheses, a constant and a call of two arguments -/

/-- A calculator with one constant. -/
def rated : Calculator := ⟨Symbols.empty.insert "RATE".toList 0.5⟩

/-- The difference between a product and the larger of two numbers. -/
def difference : Expression :=
  let digits (t : Text) (hne : t ≠ []) (ht : t.all Text.isAsciiDigit = true) : Expression :=
    .number (.natural t hne ht)
  .binary .subtract
    (.binary .multiply
      (.binary .add (digits ['1'] (by decide) (by decide))
        (digits ['2'] (by decide) (by decide)))
      (.negate (digits ['3'] (by decide) (by decide))))
    (.call .maximum
      [.constant ⟨"RATE".toList, by decide, by decide, rfl⟩,
        digits ['1', '0'] (by decide) (by decide)])

theorem wellFormed_difference : difference.WellFormed rated.symbols.find? := by
  refine .binary (.binary (.binary (.number _) (.number _)) (.negate (.number _))) ?_
  refine .call (by decide) fun a ha => ?_
  simp only [List.mem_cons, List.not_mem_nil, or_false] at ha
  rcases ha with rfl | rfl
  · exact .constant rfl
  · exact .number _

theorem resolve_text_difference :
    difference.WellFormed rated.symbols.find? ∧
      difference.text = "( 1 + 2 ) * - 3 - MAX ( RATE , 10 )".toList ∧
      rated.resolve "( 1 + 2 ) * - 3 - MAX ( RATE , 10 )".toList = some (.number (-19)) := by
  have htext : difference.text = "( 1 + 2 ) * - 3 - MAX ( RATE , 10 )".toList := by decide
  have hvalue : difference.value rated.symbols.find? = some (-19) := by decide +kernel
  obtain ⟨x, hx, -, -, hresolve⟩ := resolve_text rated difference wellFormed_difference
  rw [hvalue] at hx
  rw [htext, ← Option.some.inj hx] at hresolve
  exact ⟨wellFormed_difference, htext, hresolve⟩

end Calculator

end Reckoner
