import Reckoner.Text.Class

/-!
# Widening

Numbers in a formula are meant as floats: `7 / 2` is three and a half.  The grammar takes a
literal of digits alone for an integer, so `.0` is put behind each such literal before the
formula is read.

A lexeme is found at each place of the text, the first of these that fits.

* A quoted text: a quote mark, then characters other than quote marks and backslashes, or a
  backslash with any character but a line feed, then a quote mark.
* A name: a letter or underscore, then letters, numeric characters, underscores and colons.
* A number: decimal digits with an optional point and digits, or a point and digits, then an
  optional exponent.
* Otherwise one character.

Each is as long as possible.  A number that consists of ASCII digits alone is widened.  The scan
does not know comments, so a quote mark in a comment may hide a number from it.
-/

namespace Reckoner.Formula

open Text (isLetter isNumeric isDecimalDigit isAsciiDigit)

/-- A part of a formula as the scan sees it. -/
inductive Lexeme
  /-- A quoted text with its quote marks. -/
  | quoted (t : Text)
  /-- A name. -/
  | name (t : Text)
  /-- A number. -/
  | number (t : Text)
  /-- Any other character. -/
  | other (c : Char)
deriving DecidableEq, Repr

/-- The characters of a lexeme. -/
def Lexeme.text : Lexeme → Text
  | .quoted t | .name t | .number t => t
  | .other c => [c]

/-! ## The three kinds of run -/

/-- The run from after an opening quote mark through the closing one. -/
def quotedRun? : Text → Option Text
  | [] => none
  | ['\\'] => none
  | '"' :: _ => some ['"']
  | '\\' :: c :: t => if c = '\n' then none else (quotedRun? t).map ('\\' :: c :: ·)
  | c :: t => (quotedRun? t).map (c :: ·)

/-- Whether a name may start with a character. -/
def startsName (c : Char) : Bool := isLetter c || c = '_'

/-- Whether a name may go on with a character. -/
def continuesName (c : Char) : Bool := isLetter c || isNumeric c || c = '_' || c = ':'

/-- The name at the start of a text; empty if there is none. -/
def nameRun : Text → Text
  | [] => []
  | c :: t => if startsName c then c :: t.takeWhile continuesName else []

/-- The sign at the start of a text; empty if there is none. -/
def signRun : Text → Text
  | '+' :: _ => ['+']
  | '-' :: _ => ['-']
  | _ => []

/-- The exponent at the start of a text; empty if there is none. -/
def exponentRun : Text → Text
  | [] => []
  | c :: t =>
      let sign := signRun t
      let digits := (t.drop sign.length).takeWhile isDecimalDigit
      if (c = 'e' ∨ c = 'E') ∧ digits ≠ [] then c :: sign ++ digits else []

/-- The number at the start of a text without its exponent; empty if there is none. -/
def mantissaRun (t : Text) : Text :=
  let whole := t.takeWhile isDecimalDigit
  match t.drop whole.length with
  | '.' :: rest =>
      let places := rest.takeWhile isDecimalDigit
      if whole = [] ∧ places = [] then [] else whole ++ '.' :: places
  | _ => whole

/-- The number at the start of a text; empty if there is none. -/
def numberRun (t : Text) : Text :=
  let mantissa := mantissaRun t
  if mantissa = [] then [] else mantissa ++ exponentRun (t.drop mantissa.length)

/-! ## The scan -/

/-- The lexeme at the start of the text `c :: t`. -/
def firstLexeme (c : Char) (t : Text) : Lexeme :=
  match if c = '"' then quotedRun? t else none with
  | some run => .quoted (c :: run)
  | none =>
      let name := nameRun (c :: t)
      if name ≠ [] then .name name
      else
        let number := numberRun (c :: t)
        if number ≠ [] then .number number else .other c

/-- The lexemes of a text. -/
def lexemes (t : Text) : List Lexeme :=
  match t with
  | [] => []
  | c :: t =>
      let first := firstLexeme c t
      first :: lexemes (t.drop (first.text.length - 1))
termination_by t.length
decreasing_by
  simp only [List.length_drop, List.length_cons]
  omega

/-- A lexeme as it is evaluated: a number of ASCII digits alone becomes a float. -/
def Lexeme.widened : Lexeme → Text
  | .number t => if t.all isAsciiDigit then t ++ ['.', '0'] else t
  | lexeme => lexeme.text

/-- A formula in which every literal of digits alone is written as a float. -/
def widen (t : Text) : Text := (lexemes t).flatMap Lexeme.widened

example : widen "7/2 + A1".toList = "7.0/2.0 + A1".toList := by cbv

example : widen "1.5E3 \"8\" 9".toList = "1.5E3 \"8\" 9.0".toList := by cbv

end Reckoner.Formula
