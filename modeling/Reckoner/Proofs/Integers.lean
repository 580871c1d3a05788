import Reckoner.Proofs.Outcomes

/-!
# Where integers come from

Evaluation is eager: a tree has a value only if all its subtrees have one, and each of these
values is computed.  No operation on floats, texts and truth values gives an integer.  So an
integer is computed exactly if a literal of the tree writes one (`computes_integer_iff`).
-/

namespace Reckoner.Formula

/-! ## Values that hold integers -/

mutual

/-- Whether a value is an integer or a tuple that holds one. -/
def Value.hasInteger : Value → Bool
  | .integer _ => true
  | .tuple vs => Value.anyInteger vs
  | _ => false

/-- Whether one of some values holds an integer. -/
def Value.anyInteger : List Value → Bool
  | [] => false
  | v :: vs => v.hasInteger || Value.anyInteger vs

end

theorem anyInteger_eq_false {vs : List Value} (h : ∀ v ∈ vs, v.hasInteger = false) :
    Value.anyInteger vs = false := by
  induction vs with
  | nil => rfl
  | cons v vs ih =>
    rw [Value.anyInteger, h v List.mem_cons_self, ih fun w hw => h w (List.mem_cons_of_mem _ hw)]
    rfl

/-- What is no integer literal gives no integer for arguments without one. -/
theorem hasInteger_of_gives {op : Operator} {vs : List Value} {u : Value} (h : op.Gives vs u)
    (hop : ∀ v, op = .literal v → v.hasInteger = false)
    (hvs : ∀ v ∈ vs, v.hasInteger = false) : u.hasInteger = false := by
  cases h with
  | argument hmem => exact hvs _ hmem
  | tuple => exact anyInteger_eq_false hvs
  | literal heq => exact hop _ heq
  | integer n hmem => exact absurd (hvs _ hmem) Bool.noConfusion
  | _ => rfl

variable {lookup : Text → Option Float}

/-! ## Subtrees -/

namespace Tree

/-- Whether one tree is another one or a part of it. -/
inductive Within : Tree → Tree → Prop
  | refl {t : Tree} : Within t t
  | kid {s kid : Tree} {op : Operator} {kids : List Tree} :
      kid ∈ kids → Within s kid → Within s (node op kids)

theorem exists_within_of_mem_leaves {op : Operator} {t : Tree} (h : op ∈ t.leaves) :
    ∃ kids, Within (node op kids) t := by
  induction t using Tree.induction with
  | node own kids ih =>
    rcases List.mem_append.1 h with h | h
    · split at h
      · rw [List.mem_singleton.1 h]
        exact ⟨kids, .refl⟩
      · cases h
    · obtain ⟨kid, hkid, hop⟩ := mem_leavesAll.1 h
      obtain ⟨ks, hwithin⟩ := ih kid hkid hop
      exact ⟨ks, .kid hkid hwithin⟩

theorem mem_leaves_of_within {s t : Tree} (h : Within s t) {op : Operator}
    (hop : op ∈ s.leaves) : op ∈ t.leaves := by
  induction h with
  | refl => exact hop
  | kid hkid _ ih => exact List.mem_append_right _ (mem_leavesAll.2 ⟨_, hkid, ih⟩)

/-! ## Values of subtrees -/

/-- A tree has a value only if its subtrees have one. -/
theorem exists_value_of_within {s t : Tree} (h : Within s t) {v : Value}
    (hv : t.value lookup = .ok v) : ∃ w, s.value lookup = .ok w := by
  induction h generalizing v with
  | refl => exact ⟨v, hv⟩
  | kid hkid _ ih =>
    obtain ⟨vs, hvs, -⟩ := value_node_inv hv
    obtain ⟨w, hw⟩ := (values_inv hvs).1 _ hkid
    exact ih hw

theorem eq_nil_of_apply_leaf {op : Operator} {vs : List Value} {v : Value}
    (hleaf : op.isLeaf = true) (h : op.apply lookup vs = .ok v) : vs = [] := by
  cases vs with
  | nil => rfl
  | cons w vs =>
    cases op with
    | literal _ => cases h
    | read _ => cases h
    | write _ => cases h
    | _ => cases hleaf

/-- The value of a leaf is what its operator gives without arguments. -/
theorem value_of_mem_leaves {op : Operator} {t : Tree} {v : Value} (hop : op ∈ t.leaves)
    (hleaf : op.isLeaf = true) (hv : t.value lookup = .ok v) :
    ∃ s w, Within s t ∧ s.value lookup = .ok w ∧ op.apply lookup [] = .ok w := by
  obtain ⟨kids, hwithin⟩ := exists_within_of_mem_leaves hop
  obtain ⟨w, hw⟩ := exists_value_of_within hwithin hv
  obtain ⟨vs, -, happly⟩ := value_node_inv hw
  have hnil := eq_nil_of_apply_leaf hleaf happly
  rw [hnil] at happly
  exact ⟨_, w, hwithin, hw, happly⟩

/-! ## What is computed -/

/-- Whether a value is that of a tree or of a part of it: an operand, an intermediate result or
the final one. -/
def Computes (lookup : Text → Option Float) (t : Tree) (v : Value) : Prop :=
  ∃ s, Within s t ∧ s.value lookup = .ok v

theorem hasInteger_eq_false {t : Tree} {v : Value} (hv : t.value lookup = .ok v)
    (hleaves : ∀ v, .literal v ∈ t.leaves → v.hasInteger = false) : v.hasInteger = false := by
  refine value_invariant (·.hasInteger = false) (fun op vs u hop hvs hgives => ?_) hv
  refine hasInteger_of_gives hgives (fun w hw => hleaves w ?_) hvs
  subst hw
  exact hop rfl

/-- Where a tree has a value, an integer is computed exactly if a literal writes one. -/
theorem computes_integer_iff {t : Tree} {v : Value} (hv : t.value lookup = .ok v) :
    (∃ u, t.Computes lookup u ∧ u.hasInteger = true) ↔
      ∃ u, .literal u ∈ t.leaves ∧ u.hasInteger = true := by
  constructor
  · rintro ⟨u, ⟨s, hwithin, hs⟩, hu⟩
    apply Classical.byContradiction
    intro hnone
    have hfalse : u.hasInteger = false := by
      refine hasInteger_eq_false hs fun w hw => Bool.eq_false_iff.2 fun htrue => hnone ?_
      exact ⟨w, mem_leaves_of_within hwithin hw, htrue⟩
    rw [hfalse] at hu
    cases hu
  · rintro ⟨u, hleaf, hu⟩
    obtain ⟨s, w, hwithin, hs, happly⟩ := value_of_mem_leaves hleaf rfl hv
    cases happly
    exact ⟨u, ⟨s, hwithin, hs⟩, hu⟩

/-- Where a tree has a value, the constants it reads are known. -/
theorem exists_of_read_mem_leaves {t : Tree} {v : Value} (hv : t.value lookup = .ok v)
    {name : Text} (hname : .read name ∈ t.leaves) : ∃ x, lookup name = some x := by
  obtain ⟨s, w, -, -, happly⟩ := value_of_mem_leaves hname rfl hv
  obtain ⟨x, hx, -⟩ := readConstant_inv happly
  exact ⟨x, hx⟩

end Tree

end Reckoner.Formula
