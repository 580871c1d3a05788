import Reckoner.Formula.Evaluation
import Reckoner.Proofs.Names
import Reckoner.Text.Split

/-!
# Expressions and how they are printed

An expression is what a user means by a formula: decimal literals, constants, the minus before
a number, the six operations between two numbers, and calls of the functions.

* Its value is computed from the leaves up with the operations on floats alone.  No token, no
  precedence and no value of the grammar takes part.
* It is printed with one space between two symbols.  An operand gets parentheses only where its
  own operation binds less strongly than its place asks for.  Powers bind more strongly than a
  minus before a number, that more strongly than products, and these more strongly than sums.
  All operations associate to the left, so the right operand has to bind more strongly than the
  operation itself.  As an operand of a power a minus has parentheses on either side.

An expression is well-formed if its constants are known and every function gets a number of
arguments that it accepts.  Exactly then it has a value (`exists_value_iff`).
-/

namespace Reckoner.Formula

open Number (Decimal ofDigits)
open Text (isAsciiDigit)

/-! ## Leaves -/

/-- A decimal literal without a sign: digits, and possibly a point with more digits. -/
structure Literal where
  /-- The digits in front of the point. -/
  whole : Text
  /-- The digits behind the point, if there is one. -/
  fraction : Option Text
  /-- There are digits in front of the point. -/
  nonempty : whole ≠ []
  /-- They are ASCII digits. -/
  digits : ∀ c ∈ whole, isAsciiDigit c = true
  /-- So are those behind it. -/
  places : ∀ t, fraction = some t → ∀ c ∈ t, isAsciiDigit c = true

/-- A literal of digits alone. -/
def Literal.natural (t : Text) (hne : t ≠ []) (ht : t.all isAsciiDigit = true) : Literal where
  whole := t
  fraction := none
  nonempty := hne
  digits := List.all_eq_true.1 ht
  places := fun _ h => nomatch h

/-- A literal as it is printed. -/
def Literal.text (d : Literal) : Text :=
  match d.fraction with
  | none => d.whole
  | some t => d.whole ++ '.' :: t

theorem Literal.text_of_none {d : Literal} (h : d.fraction = none) : d.text = d.whole := by
  rw [text, h]

theorem Literal.text_of_some {d : Literal} {t : Text} (h : d.fraction = some t) :
    d.text = d.whole ++ '.' :: t := by
  rw [text, h]

/-- The float nearest to the number that a literal writes. -/
def Literal.float (d : Literal) : Float :=
  let places := d.fraction.getD []
  Decimal.toFloat false ⟨ofDigits (d.whole ++ places), -places.length⟩

/-- The name of a constant: an identifier in upper case that is not the text of a float. -/
structure Constant where
  /-- The name. -/
  name : Text
  /-- It is an identifier. -/
  isName : IsName name
  /-- It is in upper case. -/
  upper : Text.upper name = name
  /-- It is not the text of a float, such as `NAN`. -/
  notNumeral : Number.numeral? name = none

/-! ## Operations -/

/-- The operations between two numbers. -/
inductive Operation
  | add | subtract | multiply | divide | modulo | power
deriving DecidableEq, Repr

namespace Operation

/-- The operator of the grammar. -/
def binary : Operation → Binary
  | .add => .arithmetic .add
  | .subtract => .arithmetic .subtract
  | .multiply => .arithmetic .multiply
  | .divide => .arithmetic .divide
  | .modulo => .arithmetic .modulo
  | .power => .power

/-- The sign it is printed as. -/
def sign : Operation → Sign
  | .add => .plus
  | .subtract => .minus
  | .multiply => .star
  | .divide => .slash
  | .modulo => .percent
  | .power => .hat

/-- The operation on floats. -/
def floats : Operation → Float → Float → Float
  | .add, x, y => x + y
  | .subtract, x, y => x - y
  | .multiply, x, y => x * y
  | .divide, x, y => x / y
  | .modulo, x, y => Number.remainder x y
  | .power, x, y => Float.pow x y

/-- How strongly it binds: sums, then products, then powers.  The place between the last two
is that of the minus before a number. -/
def level : Operation → Nat
  | .add | .subtract => 0
  | .multiply | .divide | .modulo => 1
  | .power => 3

end Operation

/-- How strongly the minus before a number binds. -/
def negationLevel : Nat := 2

/-- The numbers of arguments that a function accepts. -/
def Function.accepts : Function → Nat → Bool
  | .sum, _ => true
  | .minimum, n | .maximum, n | .average, n => decide (0 < n)
  | _, n => decide (n = 1)

theorem exists_apply_iff (f : Function) (xs : List Float) :
    (∃ x, f.apply xs = .ok x) ↔ f.accepts xs.length = true := by
  have hone : ∀ operation : Float → Float,
      (∃ x, f.one operation xs = .ok x) ↔ xs.length = 1 := by
    intro operation
    match xs with
    | [] => simp [Function.one]
    | [x] => simp [Function.one]
    | x :: y :: xs => simp [Function.one]
  have hsome : ∀ operation : List Float → Float,
      (∃ x, f.some operation xs = .ok x) ↔ 0 < xs.length := by
    intro operation
    cases xs with
    | nil => simp [Function.some]
    | cons x xs => simp [Function.some]
  cases f with
  | sum => simp [Function.apply, Function.accepts]
  | minimum => simpa [Function.apply, Function.accepts] using hsome _
  | maximum => simpa [Function.apply, Function.accepts] using hsome _
  | average => simpa [Function.apply, Function.accepts] using hsome _
  | _ => simpa [Function.apply, Function.accepts] using hone _

/-! ## Expressions -/

/-- An expression. -/
inductive Expression
  /-- A decimal literal. -/
  | number (d : Literal)
  /-- A constant. -/
  | constant (k : Constant)
  /-- The minus before an operand. -/
  | negate (e : Expression)
  /-- An operation between two operands. -/
  | binary (o : Operation) (left right : Expression)
  /-- A call of a function. -/
  | call (f : Function) (args : List Expression)

namespace Expression

@[elab_as_elim]
theorem induction {motive : Expression → Prop} (number : ∀ d, motive (number d))
    (constant : ∀ k, motive (constant k)) (negate : ∀ e, motive e → motive (negate e))
    (binary : ∀ o left right, motive left → motive right → motive (binary o left right))
    (call : ∀ f args, (∀ a ∈ args, motive a) → motive (call f args)) (e : Expression) :
    motive e :=
  Expression.rec number constant negate binary call (fun _ h => nomatch h)
    (fun _ _ ha has b hb => (List.mem_cons.1 hb).elim (fun h => h ▸ ha) (has b)) e

/-- Whether constants are known and functions get as many arguments as they accept. -/
inductive WellFormed (lookup : Text → Option Float) : Expression → Prop
  | number (d : Literal) : WellFormed lookup (number d)
  | constant {k : Constant} {x : Float} : lookup k.name = some x →
      WellFormed lookup (constant k)
  | negate {e : Expression} : WellFormed lookup e → WellFormed lookup (negate e)
  | binary {o : Operation} {left right : Expression} : WellFormed lookup left →
      WellFormed lookup right → WellFormed lookup (binary o left right)
  | call {f : Function} {args : List Expression} : f.accepts args.length = true →
      (∀ a ∈ args, WellFormed lookup a) → WellFormed lookup (call f args)

/-! ## Values -/

mutual

/-- The value of an expression.  There is none if a constant is unknown or a function does not
accept its number of arguments. -/
def value (lookup : Text → Option Float) : Expression → Option Float
  | .number d => some d.float
  | .constant k => lookup k.name
  | .negate e => (value lookup e).map fun x => -x
  | .binary o left right => do
      let x ← value lookup left
      let y ← value lookup right
      return o.floats x y
  | .call f args => do
      let xs ← values lookup args
      (f.apply xs).toOption

/-- The values of several expressions, in order. -/
def values (lookup : Text → Option Float) : List Expression → Option (List Float)
  | [] => some []
  | e :: es => do
      let x ← value lookup e
      let xs ← values lookup es
      return x :: xs

end

variable {lookup : Text → Option Float}

theorem length_of_values {es : List Expression} {xs : List Float}
    (h : values lookup es = some xs) : xs.length = es.length := by
  induction es generalizing xs with
  | nil =>
    cases h
    rfl
  | cons e es ih =>
    obtain ⟨x, -, h⟩ := Option.bind_eq_some_iff.1 h
    obtain ⟨ys, hys, h⟩ := Option.bind_eq_some_iff.1 h
    cases h
    simp [ih hys]

theorem exists_values_iff {es : List Expression} :
    (∃ xs, values lookup es = some xs) ↔ ∀ e ∈ es, ∃ x, value lookup e = some x := by
  induction es with
  | nil => simp [values]
  | cons e es ih =>
    rw [List.forall_mem_cons, ← ih]
    constructor
    · rintro ⟨xs, h⟩
      obtain ⟨x, hx, h⟩ := Option.bind_eq_some_iff.1 h
      obtain ⟨ys, hys, -⟩ := Option.bind_eq_some_iff.1 h
      exact ⟨⟨x, hx⟩, ys, hys⟩
    · rintro ⟨⟨x, hx⟩, xs, hxs⟩
      exact ⟨x :: xs, by simp [values, hx, hxs]⟩

/-- Exactly the well-formed expressions have a value. -/
theorem exists_value_iff {e : Expression} :
    (∃ x, e.value lookup = some x) ↔ e.WellFormed lookup := by
  induction e using Expression.induction with
  | number d => exact ⟨fun _ => .number d, fun _ => ⟨d.float, rfl⟩⟩
  | constant k =>
    constructor
    · rintro ⟨x, hx⟩
      exact .constant hx
    · rintro (_ | hx)
      exact ⟨_, hx⟩
  | negate e ih =>
    constructor
    · rintro ⟨x, hx⟩
      obtain ⟨y, hy, -⟩ := Option.map_eq_some_iff.1 hx
      exact .negate (ih.1 ⟨y, hy⟩)
    · rintro (_ | _ | he)
      obtain ⟨x, hx⟩ := ih.2 he
      exact ⟨-x, by simp [value, hx]⟩
  | binary o left right ihl ihr =>
    constructor
    · rintro ⟨x, hx⟩
      obtain ⟨y, hy, hx⟩ := Option.bind_eq_some_iff.1 hx
      obtain ⟨z, hz, -⟩ := Option.bind_eq_some_iff.1 hx
      exact .binary (ihl.1 ⟨y, hy⟩) (ihr.1 ⟨z, hz⟩)
    · rintro (_ | _ | _ | ⟨hl, hr⟩)
      obtain ⟨y, hy⟩ := ihl.2 hl
      obtain ⟨z, hz⟩ := ihr.2 hr
      exact ⟨o.floats y z, by simp [value, hy, hz]⟩
  | call f args ih =>
    constructor
    · rintro ⟨x, hx⟩
      obtain ⟨xs, hxs, hx⟩ := Option.bind_eq_some_iff.1 hx
      have happly : ∃ x, f.apply xs = .ok x := by
        cases hf : f.apply xs with
        | ok x => exact ⟨x, rfl⟩
        | error fault =>
          rw [hf] at hx
          cases hx
      refine .call ?_ fun a ha => (ih a ha).1 (exists_values_iff.1 ⟨xs, hxs⟩ a ha)
      rw [← length_of_values hxs]
      exact (exists_apply_iff f xs).1 happly
    · rintro (_ | _ | _ | _ | ⟨hcount, hargs⟩)
      obtain ⟨xs, hxs⟩ := exists_values_iff.2 fun a ha => (ih a ha).2 (hargs a ha)
      rw [← length_of_values hxs] at hcount
      obtain ⟨x, hx⟩ := (exists_apply_iff f xs).2 hcount
      exact ⟨x, by simp [value, hxs, hx, Except.toOption]⟩

end Expression

/-! ## Printing -/

/-- A part of a printed expression. -/
inductive Symbol
  | numeral (d : Literal)
  | name (t : Text)
  | sign (s : Sign)

/-- The characters of a symbol. -/
def Symbol.text : Symbol → Text
  | .numeral d => d.text
  | .name t => t
  | .sign s => [s.char]

/-- Symbols with a space between two of them. -/
def spaced (ss : List Symbol) : Text := Text.join ' ' (ss.map Symbol.text)

/-- Symbols, with parentheses around them if they are needed. -/
def enclose (needed : Bool) (ss : List Symbol) : List Symbol :=
  if needed then .sign .openParen :: ss ++ [.sign .closeParen] else ss

namespace Expression

mutual

/-- The symbols of an expression in a place that asks for an operation of at least the level
`bound`. -/
def symbols (bound : Nat) : Expression → List Symbol
  | .number d => [.numeral d]
  | .constant k => [.name k.name]
  | .negate e =>
      enclose (negationLevel < bound) (.sign .minus :: symbols negationLevel e)
  | .binary o left right =>
      enclose (o.level < bound)
        (symbols o.level left ++ .sign o.sign :: symbols (o.level + 1) right)
  | .call f args =>
      .name f.name :: .sign .openParen :: argumentSymbols args ++ [.sign .closeParen]

/-- The symbols of arguments, with a comma between two of them. -/
def argumentSymbols : List Expression → List Symbol
  | [] => []
  | [e] => symbols 0 e
  | e :: es => symbols 0 e ++ .sign .comma :: argumentSymbols es

end

/-- An expression as it is printed. -/
def text (e : Expression) : Text := spaced (e.symbols 0)

end Expression

example :
    let two : Expression := .number (.natural ['2'] (by decide) (by decide))
    (Expression.binary .power (.negate two) two).text = "( - 2 ) ^ 2".toList ∧
      (Expression.binary .power two (.negate two)).text = "2 ^ ( - 2 )".toList ∧
      (Expression.negate (.binary .power two two)).text = "- 2 ^ 2".toList ∧
      (Expression.binary .multiply two (.negate two)).text = "2 * - 2".toList := by
  decide

end Reckoner.Formula
