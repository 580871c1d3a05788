import Reckoner.Formula.Token

/-!
# Trees

The tokens of a formula form a tree.  A node has an operator and its arguments so far, the
latest first, since the next token always goes to the right end of the tree.

A token is placed below the nodes at the right end that take it.  Where a node is full and its
last argument does not take the new node, the new node is put in place of that argument and has
it as its own first argument.

Open groups and sequences wait on a stack, the innermost first.

* An opening parenthesis opens a group, and a closing one finishes the sequences in it and
  places the group as an argument.
* A comma or semicolon that goes on with the innermost sequence opens the next element.  In a
  group it starts a sequence with the contents of the group as the first element.  A comma after
  an element of a chain starts a tuple with that element.  A semicolon after a tuple closes
  everything around it up to a chain.
* At the end the sequences are finished, and a single group has to be left.
-/

namespace Reckoner.Formula

/-- A node with its operator and its arguments, the latest first. -/
inductive Tree
  | node (op : Operator) (kids : List Tree)

namespace Tree

/-- The operator at the root. -/
def op : Tree → Operator
  | .node op _ => op

/-- The arguments, the latest first. -/
def kids : Tree → List Tree
  | .node _ kids => kids

/-- A tree with one more argument at the end. -/
def append : Tree → Tree → Tree
  | .node op kids, kid => .node op (kid :: kids)

/-- A node without arguments. -/
def leaf (op : Operator) : Tree := .node op []

/-- An empty group. -/
def emptyGroup : Tree := leaf .group

/-! ## Placing a node -/

/-- A full node gives its last argument to the new node, which takes its place.  A group that
holds anything but that argument, and a group beside a group, lack an operator between them. -/
def rotate (op : Operator) (last : Tree) (earlier : List Tree) (new : Tree) :
    Except Fault Tree :=
  if new.op.isLeaf then .error .leaf
  else if op.isGroup && (!earlier.isEmpty || new.op.isGroup) then .error .missingOperator
  else if new.op.isGroup && (!new.kids.isEmpty || last.op.isGroup) then .error .missingOperator
  else .ok (.node op (new.append last :: earlier))

/-- Places a node at the right end of a tree.  `top` says that the tree is an argument of
nothing. -/
def place (new : Tree) (top : Bool) : Tree → Except Fault Tree
  | .node op kids =>
      if !(op.takes new.op || top) then .error .precedence
      else if op.isLeaf then .error .leaf
      else if op.arity = some kids.length then
        match kids with
        | [] => .error .leaf
        | last :: earlier =>
            if last.op.takes new.op then
              (place new false last).map fun last => .node op (last :: earlier)
            else rotate op last earlier new
      else .ok (.node op (new :: kids))

/-! ## The stack -/

/-- Puts finished trees into the groups and chains around them, up to one that binds no more
strongly than `goal`. -/
def close (goal : Operator) (inner : Tree) : List Tree → Except Fault (Tree × List Tree)
  | [] => .error .unmatchedClosing
  | outer :: stack =>
      if goal.precedence < outer.op.precedence then close goal (outer.append inner) stack
      else .ok (inner, outer :: stack)

/-- Adds a comma or semicolon to the stack. -/
def separate (sep : Operator) : List Tree → Except Fault (List Tree)
  | [] => .error .unmatchedClosing
  | top :: stack =>
      if top.op.sameSequence sep then .ok (top.append emptyGroup :: stack)
      else if top.op.isGroup then .ok (.node sep [emptyGroup, top] :: emptyGroup :: stack)
      else if top.op.precedence < sep.precedence then
        match top with
        | .node op (last :: earlier) =>
            .ok (.node sep [emptyGroup, last] :: .node op earlier :: stack)
        | .node _ [] => .error .unmatchedClosing
      else
        (close sep top stack).map fun (inner, stack) => .node sep [inner] :: stack

/-- Adds any other node to the stack: to the last element of a sequence, or to a group. -/
def push (new : Tree) : List Tree → Except Fault (List Tree)
  | [] => .error .unmatchedClosing
  | .node op kids :: stack =>
      if op.isSequence then
        match kids with
        | last :: earlier =>
            (place new true last).map fun last => .node op (last :: earlier) :: stack
        | [] => .error .unmatchedClosing
      else (place new true (.node op kids)).map (· :: stack)

/-- Finishes the sequences above the innermost group. -/
def finish (inner : Tree) : List Tree → Except Fault (List Tree)
  | [] =>
      if inner.op.isGroup then
        if 1 < inner.kids.length then .error .missingOperator else .ok [inner]
      else .error .unmatchedClosing
  | outer :: stack =>
      if inner.op.isGroup then
        if 1 < inner.kids.length then .error .missingOperator else .ok (inner :: outer :: stack)
      else if inner.op.isSequence then finish (outer.append inner) stack
      else if inner.op.arity.any (· < inner.kids.length) then .error .missingOperator
      else .ok (inner :: outer :: stack)

/-- Closes the innermost group and places it. -/
def closeGroup : List Tree → Except Fault (List Tree)
  | top :: outer :: stack =>
      match finish top (outer :: stack) with
      | .error fault => .error fault
      | .ok [] => .error .unmatchedClosing
      | .ok (group :: stack) => push group stack
  | _ => .error .unmatchedClosing

/-- The tree that is left at the end. -/
def finishAll : List Tree → Except Fault Tree
  | [] => .error .unmatchedClosing
  | top :: stack =>
      match finish top stack with
      | .error fault => .error fault
      | .ok [tree] => .ok tree
      | .ok [] => .error .unmatchedClosing
      | .ok _ => .error .unmatchedOpening

end Tree

/-! ## From tokens to a tree -/

/-- Whether a token ends a value, so that a minus after it stands between two arguments. -/
def Token.endsValue : Token → Bool
  | .closeParen | .name _ | .value _ => true
  | _ => false

/-- Whether a token starts a value, so that a name before it is a function. -/
def Token.startsValue : Token → Bool
  | .openParen | .name _ | .value _ => true
  | _ => false

/-- Whether a token is an assignment, so that a name before it is written. -/
def Token.isAssignment : Token → Bool
  | .assign _ => true
  | _ => false

/-- The operator of a name, by the token after it. -/
def nameOperator (name : Text) (next : Option Token) : Operator :=
  if next.any Token.isAssignment then .write name
  else if next.any Token.startsValue then .call name
  else .read name

/-- Adds a token to the stack. -/
def addToken (afterValue : Bool) (token : Token) (next : Option Token) (stack : List Tree) :
    Except Fault (List Tree) :=
  match token with
  | .openParen => .ok (Tree.emptyGroup :: stack)
  | .closeParen => Tree.closeGroup stack
  | .comma => Tree.separate .tuple stack
  | .semicolon => Tree.separate .chain stack
  | .minus =>
      Tree.push (.leaf (if afterValue then .binary (.arithmetic .subtract) else .negate)) stack
  | .not => Tree.push (.leaf .not) stack
  | .binary b => Tree.push (.leaf (.binary b)) stack
  | .assign plain => Tree.push (.leaf (.assign plain)) stack
  | .name t => Tree.push (.leaf (nameOperator t next)) stack
  | .value v => Tree.push (.leaf (.literal v)) stack

/-- Adds tokens to the stack and finishes it. -/
def grow (afterValue : Bool) (stack : List Tree) : List Token → Except Fault Tree
  | [] => Tree.finishAll stack
  | token :: rest =>
      match addToken afterValue token rest.head? stack with
      | .error fault => .error fault
      | .ok stack => grow token.endsValue stack rest

/-- The tree of a formula's tokens. -/
def tree (ts : List Token) : Except Fault Tree := grow false [Tree.emptyGroup] ts

end Reckoner.Formula
