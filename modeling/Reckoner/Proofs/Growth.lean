import Reckoner.Proofs.Reading

/-!
# Growing the tree of an expression

Where the next token goes is settled at the right end of the innermost open group.  The nodes
there that wait for their last argument are *frames*, the innermost first.  `opened` is the group
while the argument is missing, and `plug` is the group with the argument in its place.

A place asks for operations of at least some level, and its frames admit these: each of them
takes an operation of that level or a higher one (`Admits`).  So the tokens of an expression that
is printed for the place turn `opened` into `plug`, whatever the frames are and whatever else is
on the stack (`Grows`, `grows`).

Arguments are grown one by one.  The first comma makes a tuple of the group with the first
argument, and each further comma opens one more element.
-/

namespace Reckoner.Formula

open Reckoner.Formula.Tree

/-! ## Frames -/

/-- A node that waits for its last argument. -/
structure Frame where
  /-- Its operator. -/
  op : Operator
  /-- The other arguments, the latest first. -/
  earlier : List Tree
  /-- One argument is missing. -/
  arity : op.arity = some (earlier.length + 1)
  /-- The operator binds less strongly than parentheses and leaves. -/
  weak : op.precedence < 200

namespace Tree

/-- A group with frames at its right end, the innermost first, and an argument in place. -/
def plug : List Frame → Tree → Tree
  | [], t => .node .group [t]
  | f :: fs, t => plug fs (.node f.op (t :: f.earlier))

/-- A group with frames at its right end, while the argument is missing. -/
def opened : List Frame → Tree
  | [] => emptyGroup
  | f :: fs => plug fs (.node f.op f.earlier)

theorem plug_eq_group (fs : List Frame) (t : Tree) : ∃ kids, plug fs t = .node .group kids := by
  induction fs generalizing t with
  | nil => exact ⟨[t], rfl⟩
  | cons f fs ih => exact ih _

theorem opened_eq_group (fs : List Frame) : ∃ kids, opened fs = .node .group kids := by
  cases fs with
  | nil => exact ⟨[], rfl⟩
  | cons f fs => exact plug_eq_group fs _

end Tree

theorem Frame.isGroup_eq_false (f : Frame) : f.op.isGroup = false := by
  have hweak := f.weak
  cases hop : f.op with
  | group =>
    rw [hop] at hweak
    exact absurd hweak (by decide)
  | _ => rfl

theorem Frame.takes_strong (f : Frame) {op : Operator} (h : op.precedence = 200) :
    f.op.takes op = true := by
  simp [Operator.takes, h, f.weak]

theorem Operator.takes_unary {op inner : Operator} (h : inner.isUnary = true) :
    op.takes inner = true := by
  simp [Operator.takes, h]

/-! ## Placing at the right end -/

namespace Tree

variable (new : Tree) {op : Operator} {t : Tree} {earlier : List Tree} {top : Bool}
  {fs : List Frame}

theorem place_slot (htakes : (op.takes new.op || top) = true)
    (harity : op.arity = some (earlier.length + 1)) :
    place new top (.node op earlier) = .ok (.node op (new :: earlier)) := by
  have hleaf : op.isLeaf = false := by simp [Operator.isLeaf, harity]
  rw [place.eq_def]
  simp [htakes, hleaf, harity]

theorem place_full (htakes : (op.takes new.op || top) = true)
    (harity : op.arity = some (earlier.length + 1)) :
    place new top (.node op (t :: earlier)) =
      if t.op.takes new.op then (place new false t).map fun t => .node op (t :: earlier)
      else rotate op t earlier new := by
  have hleaf : op.isLeaf = false := by simp [Operator.isLeaf, harity]
  rw [place.eq_def]
  simp [htakes, hleaf, harity]

/-- A node that all frames and the argument take is placed in the argument. -/
theorem place_plug (hfs : ∀ f ∈ fs, f.op.takes new.op = true) (ht : t.op.takes new.op = true) :
    place new true (plug fs t) = (place new false t).map (plug fs) := by
  induction fs generalizing t with
  | nil =>
    show place new true (.node .group [t]) = _
    rw [place_full new (Bool.or_true _) rfl, if_pos ht]
    rfl
  | cons f fs ih =>
    obtain ⟨hf, hfs⟩ := List.forall_mem_cons.1 hfs
    have hnode := ih (t := .node f.op (t :: f.earlier)) hfs hf
    rw [place_full new (by simp [hf]) f.arity, if_pos ht, map_map_except] at hnode
    exact hnode

/-- The missing argument is put in place. -/
theorem place_opened (hfs : ∀ f ∈ fs, f.op.takes new.op = true) :
    place new true (opened fs) = .ok (plug fs new) := by
  cases fs with
  | nil => exact place_slot new (Bool.or_true _) rfl
  | cons f fs =>
    obtain ⟨hf, hfs⟩ := List.forall_mem_cons.1 hfs
    have hplug := place_plug new (t := .node f.op f.earlier) hfs hf
    rw [place_slot new (by simp [hf]) f.arity] at hplug
    exact hplug

theorem rotate_binary (b : Binary) (h : op.isGroup = false ∨ earlier = []) :
    rotate op t earlier (leaf (.binary b)) = .ok (.node op (.node (.binary b) [t] :: earlier)) := by
  have hmissing : (op.isGroup && (!earlier.isEmpty || false)) = false := by
    rcases h with h | rfl
    · rw [h, Bool.false_and]
    · exact Bool.and_false _
  have hleaf : (leaf (.binary b)).op.isLeaf = false := rfl
  have hgroup : (leaf (.binary b)).op.isGroup = false := rfl
  rw [rotate, hleaf, hgroup, hmissing]
  rfl

/-- An operation that all frames take and the argument does not gets the argument as its own
first one. -/
theorem place_binary {b : Binary} (hfs : ∀ f ∈ fs, f.op.takes (.binary b) = true)
    (ht : t.op.takes (.binary b) = false) :
    place (leaf (.binary b)) true (plug fs t) = .ok (plug fs (.node (.binary b) [t])) := by
  have hnot : ¬ t.op.takes (leaf (.binary b)).op = true := by
    rw [show (leaf (.binary b)).op = .binary b from rfl, ht]
    exact Bool.false_ne_true
  cases fs with
  | nil =>
    show place _ true (.node .group [t]) = _
    rw [place_full _ (Bool.or_true _) rfl, if_neg hnot, rotate_binary b (.inr rfl)]
    rfl
  | cons f fs =>
    obtain ⟨hf, hfs⟩ := List.forall_mem_cons.1 hfs
    have hplug := place_plug (leaf (.binary b)) (t := .node f.op (t :: f.earlier)) hfs hf
    have htakes : (f.op.takes (leaf (.binary b)).op || false) = true := by
      rw [Bool.or_false]
      exact hf
    rw [place_full _ htakes f.arity, if_neg hnot,
      rotate_binary b (.inl f.isGroup_eq_false)] at hplug
    exact hplug

end Tree

/-! ## Levels -/

/-- Of two operations the left one takes the other exactly if the other is of a higher level. -/
theorem takes_binary (o inner : Operation) :
    (Operator.binary o.binary).takes (.binary inner.binary) = decide (o.level < inner.level) := by
  cases o <;> cases inner <;> rfl

theorem takes_negate (inner : Operation) :
    Operator.negate.takes (.binary inner.binary) = decide (negationLevel < inner.level) := by
  cases inner <;> rfl

/-- What binds more strongly than powers takes no operation. -/
theorem takes_eq_false_of_strong {op : Operator} (h : 120 < op.precedence) (o : Operation) :
    op.takes (.binary o.binary) = false := by
  have hle : (Operator.binary o.binary).precedence ≤ 120 := by
    cases o <;> decide
  have hunary : (Operator.binary o.binary).isUnary = false := rfl
  have hlt : ¬ op.precedence < (Operator.binary o.binary).precedence := by omega
  have hne : ¬ op.precedence = (Operator.binary o.binary).precedence := by omega
  simp only [Operator.takes, hunary, hlt, hne, decide_false, Bool.or_self, Bool.false_and]

/-- Whether frames take every operation of a level from `bound` on. -/
def Admits (fs : List Frame) (bound : Nat) : Prop :=
  ∀ f ∈ fs, ∀ o : Operation, bound ≤ o.level → f.op.takes (.binary o.binary) = true

theorem admits_nil (bound : Nat) : Admits [] bound := by
  intro f hf
  cases hf

theorem Admits.mono {fs : List Frame} {bound level : Nat} (h : Admits fs bound)
    (hle : bound ≤ level) : Admits fs level :=
  fun f hf o ho => h f hf o (Nat.le_trans hle ho)

namespace Frame

/-- An operation that waits for its right operand. -/
def operation (o : Operation) (left : Tree) : Frame where
  op := .binary o.binary
  earlier := [left]
  arity := rfl
  weak := by cases o <;> decide

/-- A minus that waits for its operand. -/
def negation : Frame where
  op := .negate
  earlier := []
  arity := rfl
  weak := by decide

/-- A function that waits for its parentheses. -/
def function (f : Function) : Frame where
  op := .call f.name
  earlier := []
  arity := rfl
  weak := show 190 < 200 by decide

end Frame

theorem admits_operation {fs : List Frame} {o : Operation} (h : Admits fs o.level) (left : Tree) :
    Admits (.operation o left :: fs) (o.level + 1) := by
  refine List.forall_mem_cons.2 ⟨fun inner hinner => ?_, h.mono (Nat.le_succ _)⟩
  show (Operator.binary o.binary).takes _ = true
  rw [takes_binary]
  exact decide_eq_true hinner

theorem admits_negation {fs : List Frame} (h : Admits fs negationLevel) :
    Admits (.negation :: fs) negationLevel := by
  refine List.forall_mem_cons.2 ⟨fun inner hinner => ?_, h⟩
  show Operator.negate.takes _ = true
  rw [takes_negate]
  refine decide_eq_true (Nat.lt_of_le_of_ne hinner ?_)
  -- no operation stands on the level of the minus
  cases inner <;> decide

/-! ## The tree of an expression -/

/-- A tree, as an argument of parentheses if they are needed. -/
def grouped (needed : Bool) (t : Tree) : Tree := if needed then .node .group [t] else t

/-- The group that the parentheses of a call become: empty, around the only argument, or around
a tuple of the arguments. -/
def argumentGroup : List Tree → Tree
  | [] => emptyGroup
  | [t] => .node .group [t]
  | ts => .node .group [.node .tuple (ts.map fun t => .node .group [t]).reverse]

namespace Expression

mutual

/-- The tree of an expression in a place that asks for the level `bound`. -/
def tree (bound : Nat) : Expression → Tree
  | .number d => leaf (.literal (.float d.float))
  | .constant k => leaf (.read k.name)
  | .negate e => grouped (negationLevel < bound) (.node .negate [tree negationLevel e])
  | .binary o left right =>
      grouped (o.level < bound)
        (.node (.binary o.binary) [tree (o.level + 1) right, tree o.level left])
  | .call f args => .node (.call f.name) [argumentGroup (trees args)]

/-- The trees of arguments, in order. -/
def trees : List Expression → List Tree
  | [] => []
  | e :: es => tree 0 e :: trees es

end

theorem takes_grouped {needed : Bool} {t : Tree} {o : Operation}
    (ht : needed = false → t.op.takes (.binary o.binary) = false) :
    (grouped needed t).op.takes (.binary o.binary) = false := by
  cases needed with
  | true =>
    show Operator.group.takes _ = false
    exact takes_eq_false_of_strong (by decide) o
  | false => exact ht rfl

/-- The tree of a left operand does not take the operation. -/
theorem takes_tree {o : Operation} {bound : Nat} (h : o.level ≤ bound) (e : Expression) :
    (e.tree bound).op.takes (.binary o.binary) = false := by
  cases e with
  | number d =>
    refine takes_eq_false_of_strong ?_ o
    show 120 < 200
    decide
  | constant k =>
    refine takes_eq_false_of_strong ?_ o
    show 120 < 200
    decide
  | negate e =>
    refine takes_grouped fun hneeded => ?_
    have hbound : bound ≤ negationLevel := Nat.not_lt.1 (of_decide_eq_false hneeded)
    show Operator.negate.takes _ = false
    rw [takes_negate]
    exact decide_eq_false (by omega)
  | binary inner left right =>
    refine takes_grouped fun hneeded => ?_
    have hbound : bound ≤ inner.level := Nat.not_lt.1 (of_decide_eq_false hneeded)
    show (Operator.binary inner.binary).takes _ = false
    rw [takes_binary]
    exact decide_eq_false (by omega)
  | call f args =>
    refine takes_eq_false_of_strong ?_ o
    show 120 < 190
    decide

end Expression

/-! ## One token -/

/-- A group on the stack: by itself, or as the last element of a tuple. -/
def held : Option (List Tree) → Tree → Tree
  | none, t => t
  | some earlier, t => .node .tuple (t :: earlier)

section Push

variable {fs : List Frame} {before : Option (List Tree)} {stack : List Tree}

theorem push_held {new t t' : Tree} (ht : ∃ kids, t = .node .group kids)
    (h : place new true t = .ok t') :
    push new (held before t :: stack) = .ok (held before t' :: stack) := by
  obtain ⟨kids, rfl⟩ := ht
  cases before with
  | none =>
    show (place new true (.node .group kids)).map (· :: stack) = _
    rw [h]
    rfl
  | some earlier =>
    show (place new true (.node .group kids)).map
      (fun last => .node .tuple (last :: earlier) :: stack) = _
    rw [h]
    rfl

theorem push_opened {new : Tree} (hfs : ∀ f ∈ fs, f.op.takes new.op = true) :
    push new (held before (opened fs) :: stack) = .ok (held before (plug fs new) :: stack) :=
  push_held (opened_eq_group fs) (place_opened new hfs)

theorem push_binary {b : Binary} {t : Tree} (hfs : ∀ f ∈ fs, f.op.takes (.binary b) = true)
    (ht : t.op.takes (.binary b) = false) :
    push (leaf (.binary b)) (held before (plug fs t) :: stack) =
      .ok (held before (plug fs (.node (.binary b) [t])) :: stack) :=
  push_held (plug_eq_group fs t) (place_binary hfs ht)

/-- A group of at most one tree is closed and put in place of the missing argument. -/
theorem closeGroup_group (kids : List Tree) (h : kids.length ≤ 1) :
    closeGroup (.node .group kids :: held before (opened fs) :: stack) =
      .ok (held before (plug fs (.node .group kids)) :: stack) := by
  have hfinish : finish (.node .group kids) (held before (opened fs) :: stack) =
      .ok (.node .group kids :: held before (opened fs) :: stack) :=
    if_neg (Nat.not_lt.2 h)
  rw [closeGroup, hfinish]
  exact push_opened fun f _ => f.takes_strong rfl

/-- A tuple is closed with the group it was started in. -/
theorem closeGroup_tuple (kids : List Tree) :
    closeGroup (.node .tuple kids :: emptyGroup :: held before (opened fs) :: stack) =
      .ok (held before (plug fs (.node .group [.node .tuple kids])) :: stack) :=
  closeGroup_group [.node .tuple kids] (Nat.le_refl 1)

end Push

theorem grow_cons {afterValue : Bool} {token : Token} {rest : List Token} {stack stack' : List Tree}
    (h : addToken afterValue token rest.head? stack = .ok stack') :
    grow afterValue stack (token :: rest) = grow token.endsValue stack' rest := by
  rw [grow, h]

/-! ## Runs of tokens -/

/-- Whether what follows leaves a name in front of it a constant that is read. -/
def Settles (ts : List Token) : Prop :=
  ∀ token, ts.head? = some token → token.startsValue = false ∧ token.isAssignment = false

/-- Tokens that grow into a tree in any place that asks for the level `bound`. -/
def Grows (bound : Nat) (ts : List Token) (t : Tree) : Prop :=
  ∀ fs before stack rest, Admits fs bound → Settles rest →
    grow false (held before (opened fs) :: stack) (ts ++ rest) =
      grow true (held before (plug fs t) :: stack) rest

theorem settles_cons {token : Token} {rest : List Token} (hvalue : token.startsValue = false)
    (hassign : token.isAssignment = false) : Settles (token :: rest) := by
  intro other hother
  cases hother
  exact ⟨hvalue, hassign⟩

theorem grows_value (bound : Nat) (v : Value) : Grows bound [.value v] (leaf (.literal v)) := by
  intro fs before stack rest _ _
  exact grow_cons (push_opened fun f _ => f.takes_strong rfl)

theorem grows_name (bound : Nat) (n : Text) : Grows bound [.name n] (leaf (.read n)) := by
  intro fs before stack rest _ hrest
  have hop : nameOperator n rest.head? = .read n := by
    unfold nameOperator
    cases hhead : rest.head? with
    | none => rfl
    | some token =>
      obtain ⟨hvalue, hassign⟩ := hrest token hhead
      simp [hvalue, hassign]
  refine grow_cons ?_
  show push (leaf (nameOperator n rest.head?)) _ = _
  rw [hop]
  exact push_opened fun f _ => f.takes_strong rfl

/-- Parentheses are a place of their own, with no frames in it. -/
theorem Grows.enclosed {level : Nat} {ts : List Token} {t : Tree} (h : Grows level ts t)
    (bound : Nat) :
    Grows bound (enclosed (level < bound) ts) (grouped (level < bound) t) := by
  intro fs before stack rest hfs hrest
  by_cases hneeded : level < bound
  · have htokens : Token.openParen :: ts ++ [.closeParen] ++ rest =
        .openParen :: (ts ++ .closeParen :: rest) := by simp
    rw [grouped, if_pos (decide_eq_true hneeded), Formula.enclosed,
      if_pos (decide_eq_true hneeded), htokens]
    calc grow false (held before (opened fs) :: stack) (.openParen :: (ts ++ .closeParen :: rest))
      _ = grow false (emptyGroup :: held before (opened fs) :: stack) (ts ++ .closeParen :: rest) :=
          grow_cons rfl
      _ = grow true (.node .group [t] :: held before (opened fs) :: stack) (.closeParen :: rest) :=
          h [] none _ _ (admits_nil level) (settles_cons rfl rfl)
      _ = grow true (held before (plug fs (.node .group [t])) :: stack) rest :=
          grow_cons (closeGroup_group [t] (Nat.le_refl 1))
  · rw [grouped, if_neg (by simpa using hneeded), Formula.enclosed,
      if_neg (by simpa using hneeded)]
    exact h fs before stack rest (hfs.mono (Nat.not_lt.1 hneeded)) hrest

theorem Grows.negate {ts : List Token} {t : Tree} (h : Grows negationLevel ts t) :
    Grows negationLevel (.minus :: ts) (.node .negate [t]) := by
  intro fs before stack rest hfs hrest
  have hpush : push (leaf .negate) (held before (opened fs) :: stack) =
      .ok (held before (opened (.negation :: fs)) :: stack) :=
    push_opened fun f _ => Operator.takes_unary rfl
  calc grow false (held before (opened fs) :: stack) (.minus :: (ts ++ rest))
    _ = grow false (held before (opened (.negation :: fs)) :: stack) (ts ++ rest) :=
        grow_cons hpush
    _ = grow true (held before (plug (.negation :: fs) t) :: stack) rest :=
        h _ before stack rest (admits_negation hfs) hrest

theorem addToken_operation (o : Operation) (next : Option Token) (stack : List Tree) :
    addToken true o.token next stack = push (leaf (.binary o.binary)) stack := by
  cases o <;> rfl

theorem settles_operation (o : Operation) (rest : List Token) : Settles (o.token :: rest) := by
  cases o <;> exact settles_cons rfl rfl

theorem endsValue_operation (o : Operation) : o.token.endsValue = false := by
  cases o <;> rfl

theorem Grows.binary {o : Operation} {ls rs : List Token} {l r : Tree} (hl : Grows o.level ls l)
    (htakes : l.op.takes (.binary o.binary) = false) (hr : Grows (o.level + 1) rs r) :
    Grows o.level (ls ++ o.token :: rs) (.node (.binary o.binary) [r, l]) := by
  intro fs before stack rest hfs hrest
  have hpush : addToken true o.token (rs ++ rest).head? (held before (plug fs l) :: stack) =
      .ok (held before (opened (.operation o l :: fs)) :: stack) := by
    rw [addToken_operation]
    exact push_binary (fun f hf => hfs f hf o (Nat.le_refl _)) htakes
  rw [List.append_assoc, List.cons_append]
  calc grow false (held before (opened fs) :: stack) (ls ++ o.token :: (rs ++ rest))
    _ = grow true (held before (plug fs l) :: stack) (o.token :: (rs ++ rest)) :=
        hl fs before stack _ hfs (settles_operation o _)
    _ = grow false (held before (opened (.operation o l :: fs)) :: stack) (rs ++ rest) := by
        rw [grow_cons hpush, endsValue_operation]
    _ = grow true (held before (plug (.operation o l :: fs) r) :: stack) rest :=
        hr _ before stack rest (admits_operation hfs l) hrest

/-! ## Arguments -/

/-- Arguments inside a tuple, each as a group. -/
theorem grow_elements {args : List Expression} (hne : args ≠ [])
    (h : ∀ a ∈ args, Grows 0 (a.tokens 0) (a.tree 0)) (earlier stack : List Tree)
    {rest : List Token} (hrest : Settles rest) :
    grow false (.node .tuple (emptyGroup :: earlier) :: stack)
        (Expression.argumentTokens args ++ rest) =
      grow true (.node .tuple
        (((Expression.trees args).map fun t => .node .group [t]).reverse ++ earlier) :: stack)
        rest := by
  induction args generalizing earlier with
  | nil => exact absurd rfl hne
  | cons a args ih =>
    obtain ⟨ha, hargs⟩ := List.forall_mem_cons.1 h
    cases args with
    | nil => exact ha [] (some earlier) stack rest (admits_nil 0) hrest
    | cons next args =>
      have hcomma : Settles (.comma :: (Expression.argumentTokens (next :: args) ++ rest)) :=
        settles_cons rfl rfl
      have helement := ha [] (some earlier) stack _ (admits_nil 0) hcomma
      have hfurther := ih (by simp) hargs (.node .group [a.tree 0] :: earlier)
      rw [Expression.argumentTokens_cons, List.append_assoc, List.cons_append]
      refine helement.trans (Eq.trans (grow_cons rfl) (hfurther.trans ?_))
      simp [Expression.trees]

/-- The parentheses of a call with the arguments in them. -/
theorem grow_arguments {args : List Expression} (h : ∀ a ∈ args, Grows 0 (a.tokens 0) (a.tree 0))
    (fs : List Frame) (before : Option (List Tree)) (stack : List Tree) (rest : List Token) :
    grow false (held before (opened fs) :: stack)
        (.openParen :: (Expression.argumentTokens args ++ .closeParen :: rest)) =
      grow true (held before (plug fs (argumentGroup (Expression.trees args))) :: stack) rest := by
  have hclose : Settles (.closeParen :: rest) := settles_cons rfl rfl
  refine Eq.trans (grow_cons rfl) ?_
  match args, h with
  | [], _ => exact grow_cons (closeGroup_group [] (Nat.zero_le 1))
  | [a], h =>
    have hargument := h a (by simp) [] none (held before (opened fs) :: stack) _ (admits_nil 0)
      hclose
    exact hargument.trans (grow_cons (closeGroup_group [a.tree 0] (Nat.le_refl 1)))
  | a :: next :: args, h =>
    obtain ⟨ha, hargs⟩ := List.forall_mem_cons.1 h
    have hcomma : Settles (.comma ::
        (Expression.argumentTokens (next :: args) ++ .closeParen :: rest)) :=
      settles_cons rfl rfl
    have hfirst := ha [] none (held before (opened fs) :: stack) _ (admits_nil 0) hcomma
    have hfurther := grow_elements (by simp) hargs [.node .group [a.tree 0]]
      (emptyGroup :: held before (opened fs) :: stack) hclose
    have hgroup : argumentGroup (Expression.trees (a :: next :: args)) =
        .node .group [.node .tuple
          (((Expression.trees (next :: args)).map fun t => .node .group [t]).reverse ++
            [.node .group [a.tree 0]])] := by
      rw [← List.reverse_cons]
      rfl
    rw [Expression.argumentTokens_cons, List.append_assoc, List.cons_append, hgroup]
    refine hfirst.trans (Eq.trans (grow_cons rfl) (hfurther.trans ?_))
    exact grow_cons (closeGroup_tuple _)

/-- The tokens of an expression grow into its tree. -/
theorem grows (e : Expression) (bound : Nat) : Grows bound (e.tokens bound) (e.tree bound) := by
  induction e using Expression.induction generalizing bound with
  | number d => exact grows_value bound _
  | constant k => exact grows_name bound k.name
  | negate e ih =>
    rw [Expression.tokens_negate]
    exact (ih negationLevel).negate.enclosed bound
  | binary o left right ihl ihr =>
    rw [Expression.tokens_binary]
    exact ((ihl o.level).binary (left.takes_tree (Nat.le_refl _)) (ihr _)).enclosed bound
  | call f args ih =>
    intro fs before stack rest hfs hrest
    have hpush : push (leaf (.call f.name)) (held before (opened fs) :: stack) =
        .ok (held before (opened (.function f :: fs)) :: stack) :=
      push_opened fun g _ => Operator.takes_unary rfl
    have htokens : (Expression.call f args).tokens bound ++ rest = .name f.name ::
        (.openParen :: (Expression.argumentTokens args ++ .closeParen :: rest)) := by
      simp [Expression.tokens_call]
    rw [htokens]
    refine Eq.trans (grow_cons hpush) ?_
    exact grow_arguments (fun a ha => ih a ha 0) (.function f :: fs) before stack rest

/-- The tokens of a whole expression form a group around its tree. -/
theorem tree_tokens (e : Expression) : tree (e.tokens 0) = .ok (.node .group [e.tree 0]) := by
  have hgrow := grows e 0 [] none [] [] (admits_nil 0) (fun _ h => nomatch h)
  rw [List.append_nil] at hgrow
  exact hgrow

end Reckoner.Formula
