import Reckoner.Text.Class
import Reckoner.Text.Quoted

/-!
# Pieces

The first cut of a formula.

* Each of the sixteen signs is a piece of its own, and so is each blank.
* A quoted text is one piece.  Inside it, a backslash before a quote mark or a backslash stands
  for that character, and no other escape is allowed.
* `//` starts a comment that goes through the next line feed, and `/*` one that goes through the
  next `*/`.  A comment leaves nothing behind, so the characters before and after it may form
  one literal.
* The other characters form literals, each as long as possible.

`length_lt_of_quotedBody` and `length_lt_of_commentEnd` say that reading goes forward, which
bounds `pieces`.
-/

namespace Reckoner.Formula

/-! ## Signs -/

/-- The characters with a meaning of their own. -/
inductive Sign
  | plus | minus | star | slash | percent | hat
  | openParen | closeParen | comma | semicolon
  | equal | bang | greater | less | ampersand | bar
deriving DecidableEq, Repr

/-- The character of a sign. -/
def Sign.char : Sign → Char
  | .plus => '+'
  | .minus => '-'
  | .star => '*'
  | .slash => '/'
  | .percent => '%'
  | .hat => '^'
  | .openParen => '('
  | .closeParen => ')'
  | .comma => ','
  | .semicolon => ';'
  | .equal => '='
  | .bang => '!'
  | .greater => '>'
  | .less => '<'
  | .ampersand => '&'
  | .bar => '|'

/-- The signs, each once. -/
def Sign.all : List Sign :=
  [.plus, .minus, .star, .slash, .percent, .hat, .openParen, .closeParen, .comma, .semicolon,
    .equal, .bang, .greater, .less, .ampersand, .bar]

/-- The sign a character is, if it is one. -/
def Sign.ofChar? (c : Char) : Option Sign := Sign.all.find? fun s => s.char = c

theorem ofChar?_char (s : Sign) : Sign.ofChar? s.char = some s := by
  cases s <;> rfl

theorem char_of_ofChar? {c : Char} {s : Sign} (h : Sign.ofChar? c = some s) : s.char = c := by
  simpa using List.find?_some h

/-! ## Pieces -/

/-- A part of a formula after the first cut. -/
inductive Piece
  /-- A sign. -/
  | sign (s : Sign)
  /-- One blank character. -/
  | blank
  /-- A run of other characters. -/
  | literal (t : Text)
  /-- The contents of a quoted text. -/
  | quoted (t : Text)
deriving DecidableEq, Repr

/-- A piece as a message shows it. -/
def Piece.shown : Piece → Text
  | .sign s => [s.char]
  | .blank => [' ']
  | .literal t => t
  | .quoted t => Text.quoted t

/-- Why a text cannot be cut into pieces. -/
inductive CutFault
  /-- A quoted text does not end. -/
  | unmatchedQuote
  /-- A backslash in a quoted text stands before this character, or before the end. -/
  | illegalEscape (c : Option Char)
  /-- A comment does not end. -/
  | unmatchedComment
deriving DecidableEq, Repr

/-- The contents of a quoted text from after its first quote mark, and what follows it. -/
def quotedBody : Text → Except CutFault (Text × Text)
  | [] => .error .unmatchedQuote
  | '"' :: t => .ok ([], t)
  | ['\\'] => .error (.illegalEscape none)
  | '\\' :: c :: t =>
      if c = '"' ∨ c = '\\' then (quotedBody t).map fun r => (c :: r.1, r.2)
      else .error (.illegalEscape (some c))
  | c :: t => (quotedBody t).map fun r => (c :: r.1, r.2)

/-- What follows the first `*/` of a text. -/
def commentEnd : Text → Option Text
  | [] => none
  | '*' :: '/' :: t => some t
  | _ :: t => commentEnd t

theorem length_lt_of_quotedBody {t body rest : Text} (h : quotedBody t = .ok (body, rest)) :
    rest.length < t.length := by
  fun_induction quotedBody t generalizing body with
  | case1 => simp at h
  | case2 t => simp_all
  | case3 => simp at h
  | case4 c t hc ih =>
    cases hq : quotedBody t with
    | error e => simp [hq, Except.map] at h
    | ok r =>
      simp only [hq, Except.map, Except.ok.injEq, Prod.mk.injEq] at h
      have hr : quotedBody t = .ok (r.1, rest) := by rw [hq, ← h.2]
      have := ih hr
      simp only [List.length_cons]
      omega
  | case5 => simp at h
  | case6 c t _ _ _ ih =>
    cases hq : quotedBody t with
    | error e => simp [hq, Except.map] at h
    | ok r =>
      simp only [hq, Except.map, Except.ok.injEq, Prod.mk.injEq] at h
      have hr : quotedBody t = .ok (r.1, rest) := by rw [hq, ← h.2]
      have := ih hr
      simp only [List.length_cons]
      omega

theorem length_lt_of_commentEnd {t rest : Text} (h : commentEnd t = some rest) :
    rest.length < t.length := by
  fun_induction commentEnd t with
  | case1 => simp at h
  | case2 t =>
    cases h
    simp only [List.length_cons]
    omega
  | case3 c t _ ih =>
    have := ih h
    simp only [List.length_cons]
    omega

/-- A character in front of the pieces after it: it joins a literal that comes first. -/
def extendLiteral (c : Char) : List Piece → List Piece
  | .literal t :: ps => .literal (c :: t) :: ps
  | ps => .literal [c] :: ps

/-- The pieces of a formula. -/
def pieces (t : Text) : Except CutFault (List Piece) :=
  match t with
  | [] => .ok []
  | '"' :: t =>
      match h : quotedBody t with
      | .error e => .error e
      | .ok (body, rest) =>
          have := length_lt_of_quotedBody h
          (pieces rest).map (.quoted body :: ·)
  | '/' :: '/' :: t => pieces ((t.dropWhile (· ≠ '\n')).drop 1)
  | '/' :: '*' :: t =>
      match h : commentEnd t with
      | none => .error .unmatchedComment
      | some rest =>
          have := length_lt_of_commentEnd h
          pieces rest
  | c :: t =>
      match Sign.ofChar? c with
      | some s => (pieces t).map (.sign s :: ·)
      | none =>
          if Text.isBlank c then (pieces t).map (.blank :: ·) else (pieces t).map (extendLiteral c)
termination_by t.length
decreasing_by
  all_goals simp_wf
  · omega
  · have : (List.dropWhile (fun x => !decide (x = '\n')) t).length ≤ t.length :=
      (List.dropWhile_sublist _).length_le
    omega
  · omega

example : pieces "1/**/2 +".toList = .ok [.literal ['1', '2'], .blank, .sign .plus] := by cbv

example : pieces "\"a".toList = .error .unmatchedQuote := by cbv

end Reckoner.Formula
