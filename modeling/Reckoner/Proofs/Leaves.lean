import Reckoner.Basic
import Reckoner.Formula.Tree

/-!
# The leaves of a tree

A tree shows its tokens in order.  The leaves of a tree, read from left to right, are the values
and names among the tokens it was grown from, a call apart (`leaves_tree`).  Every step keeps
this: a node is placed behind the leaves that are there, and a full node that gives away its last
argument gives it to a node without leaves of its own.
-/

namespace Reckoner.Formula

namespace Tree

/-! ## The leaves -/

mutual

/-- The operators of the leaves, in the order of the text. -/
def leaves : Tree → List Operator
  | .node op kids => (if op.isLeaf then [op] else []) ++ leavesAll kids

/-- The leaves of trees listed from the latest on.  A stack is listed in this way too. -/
def leavesAll : List Tree → List Operator
  | [] => []
  | kid :: earlier => leavesAll earlier ++ kid.leaves

end

@[simp] theorem leavesAll_nil : leavesAll [] = [] := rfl

@[simp] theorem leavesAll_cons (kid : Tree) (earlier : List Tree) :
    leavesAll (kid :: earlier) = leavesAll earlier ++ kid.leaves := rfl

theorem leaves_node (op : Operator) (kids : List Tree) :
    (node op kids).leaves = (leaf op).leaves ++ leavesAll kids := by
  simp [leaf, leaves]

theorem leaves_leaf_eq_nil {op : Operator} (h : op.isLeaf = false) : (leaf op).leaves = [] := by
  simp [leaf, leaves, h]

theorem leaves_append (t kid : Tree) : (t.append kid).leaves = t.leaves ++ kid.leaves := by
  cases t with
  | node op kids =>
    rw [append, leaves_node, leaves_node, leavesAll_cons, List.append_assoc]

@[simp] theorem leaves_emptyGroup : emptyGroup.leaves = [] := rfl

/-! ## Placing a node -/

/-- A tree that is placed: a finished group, or a node without arguments. -/
def Placed (new : Tree) : Prop := new.op.isGroup = true ∨ new.kids = []

/-- A rotation that succeeds gives the last argument to the new node, which is no leaf, and which
is empty if it is a group. -/
theorem rotate_inv {op : Operator} {last : Tree} {earlier : List Tree} {new t : Tree}
    (h : rotate op last earlier new = .ok t) :
    new.op.isLeaf = false ∧ (new.op.isGroup = true → new.kids = []) ∧
      t = node op (new.append last :: earlier) := by
  unfold rotate at h
  split at h
  · cases h
  · next hleaf =>
    split at h
    · cases h
    · split at h
      · cases h
      · next hgroup =>
        refine ⟨Bool.eq_false_iff.2 hleaf, fun hnew => ?_, (Except.ok.inj h).symm⟩
        cases hkids : new.kids with
        | nil => rfl
        | cons _ _ => exact absurd (by simp [hnew, hkids]) hgroup

theorem leaves_rotate {op : Operator} {last : Tree} {earlier : List Tree} {new t : Tree}
    (hnew : Placed new) (h : rotate op last earlier new = .ok t) :
    t.leaves = (node op (last :: earlier)).leaves ++ new.leaves := by
  obtain ⟨hleaf, hgroup, rfl⟩ := rotate_inv h
  have hkids : new.kids = [] := hnew.elim hgroup id
  have hnone : new.leaves = [] := by
    cases new with
    | node newOp kids =>
      cases hkids
      exact leaves_leaf_eq_nil hleaf
  rw [leaves_node, leavesAll_cons, leaves_append, leaves_node op, leavesAll_cons, hnone,
    List.nil_append, List.append_nil]

theorem leaves_place {new t t' : Tree} {top : Bool} (hnew : Placed new)
    (h : place new top t = .ok t') :
    t'.op = t.op ∧ t'.leaves = t.leaves ++ new.leaves := by
  fun_induction place new top t generalizing t' with
  | case1 => cases h
  | case2 => cases h
  | case3 => cases h
  | case4 _ _ _ _ last earlier _ _ ih =>
    obtain ⟨last', hlast, rfl⟩ := exists_of_map_eq_ok h
    refine ⟨rfl, ?_⟩
    rw [leaves_node, leavesAll_cons, (ih hlast).2, leaves_node, leavesAll_cons]
    simp only [List.append_assoc]
  | case5 =>
    obtain ⟨-, -, rfl⟩ := rotate_inv h
    exact ⟨rfl, leaves_rotate hnew h⟩
  | case6 top op kids =>
    cases h
    refine ⟨rfl, ?_⟩
    rw [leaves_node, leavesAll_cons, leaves_node op kids, List.append_assoc]

/-! ## The stack -/

/-- What waits on the stack: groups and sequences. -/
def Frames (stack : List Tree) : Prop :=
  ∀ t ∈ stack, t.op.isGroup = true ∨ t.op.isSequence = true

theorem frames_cons {t : Tree} {stack : List Tree} :
    Frames (t :: stack) ↔ (t.op.isGroup = true ∨ t.op.isSequence = true) ∧ Frames stack := by
  simp [Frames]

theorem op_append (t kid : Tree) : (t.append kid).op = t.op := by
  cases t
  rfl

theorem leavesAll_push {new : Tree} {stack stack' : List Tree} (hnew : Placed new)
    (hs : Frames stack) (h : push new stack = .ok stack') :
    Frames stack' ∧ leavesAll stack' = leavesAll stack ++ new.leaves := by
  cases stack with
  | nil => cases h
  | cons top stack =>
    obtain ⟨op, kids⟩ := top
    obtain ⟨htop, hstack⟩ := frames_cons.1 hs
    unfold push at h
    dsimp only at h
    split at h
    · split at h
      · obtain ⟨last', hlast, rfl⟩ := exists_of_map_eq_ok h
        refine ⟨frames_cons.2 ⟨htop, hstack⟩, ?_⟩
        rw [leavesAll_cons, leavesAll_cons, leaves_node, leavesAll_cons,
          (leaves_place hnew hlast).2, leaves_node op, leavesAll_cons]
        simp only [List.append_assoc]
      · cases h
    · obtain ⟨top', htop', rfl⟩ := exists_of_map_eq_ok h
      obtain ⟨hop, hleaves⟩ := leaves_place hnew htop'
      refine ⟨frames_cons.2 ⟨hop ▸ htop, hstack⟩, ?_⟩
      rw [leavesAll_cons, hleaves, leavesAll_cons, List.append_assoc]

theorem leavesAll_close {goal : Operator} {inner inner' : Tree} {stack stack' : List Tree}
    (hs : Frames (inner :: stack)) (h : close goal inner stack = .ok (inner', stack')) :
    Frames (inner' :: stack') ∧ leavesAll (inner' :: stack') = leavesAll (inner :: stack) := by
  induction stack generalizing inner with
  | nil => cases h
  | cons outer stack ih =>
    obtain ⟨-, houter⟩ := frames_cons.1 hs
    unfold close at h
    split at h
    · have hframes : Frames (outer.append inner :: stack) := by
        rw [frames_cons, op_append]
        exact frames_cons.1 houter
      obtain ⟨hkept, hleaves⟩ := ih hframes h
      refine ⟨hkept, hleaves.trans ?_⟩
      simp only [leavesAll_cons, leaves_append, List.append_assoc]
    · cases h
      exact ⟨hs, rfl⟩

theorem isLeaf_of_isSequence {op : Operator} (h : op.isSequence = true) : op.isLeaf = false := by
  have harity : op.arity = none := by simpa [Operator.isSequence] using h
  simp [Operator.isLeaf, harity]

theorem leavesAll_separate {sep : Operator} {stack stack' : List Tree}
    (hsep : sep.isSequence = true) (hs : Frames stack) (h : separate sep stack = .ok stack') :
    Frames stack' ∧ leavesAll stack' = leavesAll stack := by
  have hleaf : (leaf sep).leaves = [] := leaves_leaf_eq_nil (isLeaf_of_isSequence hsep)
  cases stack with
  | nil => cases h
  | cons top stack =>
    obtain ⟨htop, hstack⟩ := frames_cons.1 hs
    unfold separate at h
    dsimp only at h
    split at h
    · cases h
      refine ⟨frames_cons.2 ⟨by rwa [op_append], hstack⟩, ?_⟩
      simp [leaves_append]
    · split at h
      · cases h
        refine ⟨frames_cons.2 ⟨.inr hsep, frames_cons.2 ⟨.inl rfl, hstack⟩⟩, ?_⟩
        simp [leaves_node sep, hleaf]
      · split at h
        · split at h
          · next op last earlier _ _ _ =>
            cases h
            refine ⟨frames_cons.2 ⟨.inr hsep, frames_cons.2 ⟨htop, hstack⟩⟩, ?_⟩
            simp [leaves_node sep, leaves_node op, hleaf]
          · cases h
        · obtain ⟨⟨inner, rest⟩, hclose, rfl⟩ := exists_of_map_eq_ok h
          obtain ⟨hkept, hleaves⟩ := leavesAll_close hs hclose
          refine ⟨frames_cons.2 ⟨.inr hsep, (frames_cons.1 hkept).2⟩, ?_⟩
          rw [← hleaves]
          simp [leaves_node sep, hleaf]

/-- What is finished is a group. -/
theorem leavesAll_finish {inner : Tree} {stack stack' : List Tree}
    (hs : Frames (inner :: stack)) (h : finish inner stack = .ok stack') :
    ∃ group rest, stack' = group :: rest ∧ group.op.isGroup = true ∧ Frames stack' ∧
      leavesAll stack' = leavesAll (inner :: stack) := by
  induction stack generalizing inner with
  | nil =>
    unfold finish at h
    split at h
    · next hgroup =>
      split at h
      · cases h
      · cases h
        exact ⟨inner, [], rfl, hgroup, hs, rfl⟩
    · cases h
  | cons outer stack ih =>
    obtain ⟨hinner, houter⟩ := frames_cons.1 hs
    unfold finish at h
    split at h
    · next hgroup =>
      split at h
      · cases h
      · cases h
        exact ⟨inner, outer :: stack, rfl, hgroup, hs, rfl⟩
    · next hgroup =>
      rw [if_pos (hinner.resolve_left hgroup)] at h
      have hframes : Frames (outer.append inner :: stack) := by
        rw [frames_cons, op_append]
        exact frames_cons.1 houter
      obtain ⟨group, rest, heq, hop, hkept, hleaves⟩ := ih hframes h
      refine ⟨group, rest, heq, hop, hkept, hleaves.trans ?_⟩
      simp only [leavesAll_cons, leaves_append, List.append_assoc]

theorem leavesAll_closeGroup {stack stack' : List Tree} (hs : Frames stack)
    (h : closeGroup stack = .ok stack') :
    Frames stack' ∧ leavesAll stack' = leavesAll stack := by
  unfold closeGroup at h
  split at h
  · split at h
    · cases h
    · cases h
    · next hfinish =>
      obtain ⟨group, rest, heq, hgroup, hkept, hleaves⟩ := leavesAll_finish hs hfinish
      cases heq
      obtain ⟨hframes, hpush⟩ := leavesAll_push (.inl hgroup) (frames_cons.1 hkept).2 h
      exact ⟨hframes, hpush.trans hleaves⟩
  · cases h

end Tree

/-! ## The operands of tokens -/

/-- The leaf that a token becomes, if it becomes one. -/
def Token.operand? (next : Option Token) : Token → Option Operator
  | .name t => if (nameOperator t next).isLeaf then some (nameOperator t next) else none
  | .value v => some (.literal v)
  | _ => none

/-- The leaves that tokens become. -/
def operands : List Token → List Operator
  | [] => []
  | token :: rest => (token.operand? rest.head?).toList ++ operands rest

open Reckoner.Formula.Tree

theorem leavesAll_addToken {afterValue : Bool} {token : Token} {next : Option Token}
    {stack stack' : List Tree} (hs : Frames stack)
    (h : addToken afterValue token next stack = .ok stack') :
    Frames stack' ∧ leavesAll stack' = leavesAll stack ++ (token.operand? next).toList := by
  cases token with
  | openParen =>
    cases h
    exact ⟨frames_cons.2 ⟨.inl rfl, hs⟩, rfl⟩
  | closeParen =>
    obtain ⟨hframes, hleaves⟩ := leavesAll_closeGroup hs h
    exact ⟨hframes, hleaves.trans (List.append_nil _).symm⟩
  | comma =>
    obtain ⟨hframes, hleaves⟩ := leavesAll_separate rfl hs h
    exact ⟨hframes, hleaves.trans (List.append_nil _).symm⟩
  | semicolon =>
    obtain ⟨hframes, hleaves⟩ := leavesAll_separate rfl hs h
    exact ⟨hframes, hleaves.trans (List.append_nil _).symm⟩
  | minus =>
    have hnone : (leaf (if afterValue then .binary (.arithmetic .subtract) else .negate)).leaves =
        [] := by cases afterValue <;> rfl
    obtain ⟨hframes, hleaves⟩ := leavesAll_push (.inr rfl) hs h
    exact ⟨hframes, by rw [hleaves, hnone]; rfl⟩
  | not => exact leavesAll_push (.inr rfl) hs h
  | binary b => exact leavesAll_push (.inr rfl) hs h
  | assign plain => exact leavesAll_push (.inr rfl) hs h
  | value v => exact leavesAll_push (.inr rfl) hs h
  | name t =>
    obtain ⟨hframes, hleaves⟩ := leavesAll_push (.inr rfl) hs h
    refine ⟨hframes, ?_⟩
    rw [hleaves, Token.operand?]
    split
    · next hleaf => simp [leaf, leaves, hleaf]
    · next hleaf => simp [leaf, leaves, hleaf]

theorem leaves_grow {afterValue : Bool} {stack : List Tree} {ts : List Token} {t : Tree}
    (hs : Frames stack) (h : grow afterValue stack ts = .ok t) :
    t.leaves = leavesAll stack ++ operands ts := by
  induction ts generalizing afterValue stack with
  | nil =>
    cases stack with
    | nil => cases h
    | cons top stack =>
      rw [grow, finishAll] at h
      split at h
      · cases h
      · next hfinish =>
        cases h
        obtain ⟨_, _, -, -, -, hleaves⟩ := leavesAll_finish hs hfinish
        simpa [operands] using hleaves
      · cases h
      · cases h
  | cons token rest ih =>
    rw [grow] at h
    split at h
    · cases h
    · next hadd =>
      obtain ⟨hframes, hleaves⟩ := leavesAll_addToken hs hadd
      rw [ih hframes h, hleaves, operands, List.append_assoc]

/-- The leaves of a tree are the operands among its tokens, in order. -/
theorem leaves_tree {ts : List Token} {t : Tree} (h : tree ts = .ok t) :
    t.leaves = operands ts :=
  leaves_grow (frames_cons.2 ⟨.inl rfl, by simp [Frames]⟩) h

end Reckoner.Formula
