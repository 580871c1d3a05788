import Reckoner.Formula.Evaluation
import Reckoner.Proofs.Leaves

/-!
# What an evaluation gives

`Operator.Gives` lists what an operator may give for its arguments.  An argument, or all of them
as a tuple.  What a leaf writes.  Two texts joined.  An integer, if there is one among the
arguments.  Any float or truth value.  Nothing else comes out of an operator (`gives_apply`), so a
property of values that every such step keeps holds of the value of a tree
(`Tree.value_invariant`).
-/

namespace Reckoner.Formula

/-! ## What an operator gives -/

/-- The values that an operator may give for its arguments. -/
inductive Operator.Gives (op : Operator) (vs : List Value) : Value → Prop
  | argument {v : Value} : v ∈ vs → Gives op vs v
  | tuple : Gives op vs (.tuple vs)
  | literal {v : Value} : op = .literal v → Gives op vs v
  | written {name : Text} : op = .write name → Gives op vs (.text name)
  | joined {s t : Text} : .text s ∈ vs → .text t ∈ vs → Gives op vs (.text (s ++ t))
  | integer {m : Int} (n : Int) : .integer m ∈ vs → Gives op vs (.integer n)
  | float (x : Float) : Gives op vs (.float x)
  | truth (b : Bool) : Gives op vs (.truth b)
  | empty : Gives op vs .empty

open Operator (Gives)

section Operations

variable {op : Operator} {v w u : Value}

theorem gives_integers {a : Arithmetic} {m n : Int} (h : a.integers m n = .ok u) :
    Gives op [.integer m, .integer n] u := by
  unfold Arithmetic.integers at h
  split at h
  · split at h
    · cases h
      exact .integer _ List.mem_cons_self
    · cases h
  · cases h

theorem gives_arithmetic {a : Arithmetic} (h : a.apply v w = .ok u) : Gives op [v, w] u := by
  unfold Arithmetic.apply at h
  split at h
  · exact gives_integers h
  · obtain ⟨p, -, rfl⟩ := exists_of_map_eq_ok h
    exact .float _

theorem gives_sum (h : sum v w = .ok u) : Gives op [v, w] u := by
  unfold sum at h
  obtain ⟨_, -, h⟩ := exists_of_bind_eq_ok h
  obtain ⟨_, -, h⟩ := exists_of_bind_eq_ok h
  split at h
  · cases h
    exact .joined List.mem_cons_self (List.mem_cons_of_mem _ List.mem_cons_self)
  · split at h
    · cases h
    · exact gives_arithmetic h

theorem gives_order {order : Order} (h : order.apply v w = .ok u) : Gives op [v, w] u := by
  unfold Order.apply at h
  obtain ⟨_, -, h⟩ := exists_of_bind_eq_ok h
  obtain ⟨_, -, h⟩ := exists_of_bind_eq_ok h
  split at h
  · cases h
    exact .truth _
  · cases h
    exact .truth _
  · obtain ⟨_, -, h⟩ := exists_of_bind_eq_ok h
    cases h
    exact .truth _

theorem gives_binary {b : Binary} (h : b.apply v w = .ok u) : Gives op [v, w] u := by
  unfold Binary.apply at h
  split at h
  · exact gives_sum h
  · exact gives_arithmetic h
  · obtain ⟨p, -, rfl⟩ := exists_of_map_eq_ok h
    exact .float _
  · cases h
    exact .truth _
  · cases h
    exact .truth _
  iterate 4 exact gives_order h
  all_goals
    obtain ⟨_, -, h⟩ := exists_of_bind_eq_ok h
    obtain ⟨_, -, h⟩ := exists_of_bind_eq_ok h
    cases h
    exact .truth _

theorem gives_callFunction {name : Text} (h : callFunction name v = .ok u) : Gives op [v] u := by
  unfold callFunction at h
  split at h
  · cases h
  · obtain ⟨_, -, h⟩ := exists_of_bind_eq_ok h
    obtain ⟨_, -, h⟩ := exists_of_bind_eq_ok h
    cases h
    exact .float _

theorem gives_opposite (h : opposite v = .ok u) : Gives op [v] u := by
  unfold opposite at h
  split at h
  · split at h
    · cases h
    · cases h
      exact .integer _ List.mem_cons_self
  · obtain ⟨_, -, rfl⟩ := exists_of_map_eq_ok h
    exact .float _

end Operations

variable {lookup : Text → Option Float}

theorem readConstant_inv {name : Text} {v : Value} (h : readConstant lookup name = .ok v) :
    ∃ x, lookup name = some x ∧ v = .float x := by
  unfold readConstant at h
  split at h
  · next x hx => exact ⟨x, hx, (Except.ok.inj h).symm⟩
  · cases h

theorem gives_apply {op : Operator} {vs : List Value} {u : Value}
    (h : op.apply lookup vs = .ok u) : Gives op vs u := by
  unfold Operator.apply at h
  split at h
  case h_1 =>
    cases h
    cases vs with
    | nil => exact .empty
    | cons v vs => exact .argument List.mem_cons_self
  case h_2 =>
    cases h
    exact .tuple
  case h_3 =>
    split at h
    · next hlast =>
      cases h
      exact .argument (List.mem_of_getLast? hlast)
    · cases h
  case h_4 v =>
    cases h
    exact .literal rfl
  case h_6 =>
    obtain ⟨x, -, rfl⟩ := readConstant_inv h
    exact .float x
  case h_8 =>
    cases h
    exact .written rfl
  case h_10 => exact gives_callFunction h
  case h_12 => exact gives_opposite h
  case h_14 =>
    obtain ⟨b, -, rfl⟩ := exists_of_map_eq_ok h
    exact .truth _
  case h_16 => exact gives_binary h
  all_goals cases h

/-! ## What a tree gives -/

namespace Tree

@[elab_as_elim]
theorem induction {motive : Tree → Prop}
    (node : ∀ op kids, (∀ kid ∈ kids, motive kid) → motive (node op kids)) (t : Tree) :
    motive t :=
  Tree.rec node (fun _ h => nomatch h)
    (fun _ _ hkid hkids k hk => (List.mem_cons.1 hk).elim (fun h => h ▸ hkid) (hkids k)) t

theorem mem_leavesAll {op : Operator} {kids : List Tree} :
    op ∈ leavesAll kids ↔ ∃ kid ∈ kids, op ∈ kid.leaves := by
  induction kids with
  | nil => simp
  | cons kid kids ih => simp [ih, or_comm]

theorem value_node_inv {op : Operator} {kids : List Tree} {v : Value}
    (h : (node op kids).value lookup = .ok v) :
    ∃ vs, values lookup kids = .ok vs ∧ op.apply lookup vs.reverse = .ok v :=
  exists_of_bind_eq_ok h

theorem values_inv {kids : List Tree} {vs : List Value} (h : values lookup kids = .ok vs) :
    (∀ kid ∈ kids, ∃ v, kid.value lookup = .ok v) ∧
      ∀ v ∈ vs, ∃ kid ∈ kids, kid.value lookup = .ok v := by
  induction kids generalizing vs with
  | nil =>
    cases h
    simp
  | cons kid kids ih =>
    obtain ⟨ws, hws, h⟩ := exists_of_bind_eq_ok h
    obtain ⟨w, hw, h⟩ := exists_of_bind_eq_ok h
    cases h
    obtain ⟨hkids, hvalues⟩ := ih hws
    refine ⟨fun k hk => ?_, fun v hv => ?_⟩
    · rcases List.mem_cons.1 hk with rfl | hk
      · exact ⟨w, hw⟩
      · exact hkids k hk
    · rcases List.mem_cons.1 hv with rfl | hv
      · exact ⟨kid, List.mem_cons_self, hw⟩
      · obtain ⟨k, hk, hvalue⟩ := hvalues v hv
        exact ⟨k, List.mem_cons_of_mem _ hk, hvalue⟩

/-- A property that every operator of a tree keeps holds of the value of the tree.  An operator
without arguments is a leaf of the tree. -/
theorem value_invariant (property : Value → Prop) {t : Tree}
    (step : ∀ op vs u, (op.isLeaf = true → op ∈ t.leaves) → (∀ v ∈ vs, property v) →
      Gives op vs u → property u) {v : Value} (hv : t.value lookup = .ok v) : property v := by
  induction t using Tree.induction generalizing v with
  | node op kids ih =>
    obtain ⟨vs, hvs, happly⟩ := value_node_inv hv
    refine step op vs.reverse v (fun hleaf => ?_) (fun w hw => ?_) (gives_apply happly)
    · exact List.mem_append_left _ (by simp [hleaf])
    · obtain ⟨kid, hkid, hvalue⟩ := (values_inv hvs).2 w (List.mem_reverse.1 hw)
      refine ih kid hkid (fun op vs u hop => step op vs u fun hleaf => ?_) hvalue
      exact List.mem_append_right _ (mem_leavesAll.2 ⟨kid, hkid, hop hleaf⟩)

end Tree

end Reckoner.Formula
