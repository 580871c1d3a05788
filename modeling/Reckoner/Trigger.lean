import Reckoner.Text.Offset

/-!
# Triggers

A text triggers a calculation when it ends in `=`.  The query is what stands between that `=`
and the one before it, or the start of the text.  The span covers the query and the final `=`,
in columns.

A line is looked at up to the cursor, so what follows the cursor has no influence.  It is cut at
the byte offset of the cursor (`before?_eq`).
-/

namespace Reckoner

/-- A recognised trigger on one line. -/
structure Span where
  /-- The column where the query begins. -/
  start : Nat
  /-- The column right after the `=`. -/
  stop : Nat
  /-- The text between the two, without the `=`. -/
  query : Text
deriving DecidableEq, Repr

/-- The longest end of a text without `=`. -/
def lastPart (t : Text) : Text := (t.reverse.takeWhile (· ≠ '=')).reverse

/-- The trigger at the end of a text. -/
def Span.atEnd? (t : Text) : Option Span :=
  if t.getLast? = some '=' then
    let query := lastPart t.dropLast
    some ⟨t.length - query.length - 1, t.length, query⟩
  else none

/-- The trigger before a column of a line.  A column past the end counts as the end. -/
def Span.before? (line : Text) (column : Nat) : Option Span :=
  (Text.cut? line (Text.offset line column)).bind Span.atEnd?

theorem before?_eq (line : Text) (column : Nat) :
    Span.before? line column = Span.atEnd? (line.take column) := by
  rw [Span.before?, Text.cut?_offset]
  rfl

theorem atEnd?_nil : Span.atEnd? [] = none := rfl

/-- Only a text that ends in `=` triggers. -/
theorem isSome_atEnd?_iff (t : Text) : (Span.atEnd? t).isSome ↔ t.getLast? = some '=' := by
  unfold Span.atEnd?
  split <;> simp_all

example : Span.atEnd? "a=2 + 3=".toList = some ⟨2, 8, "2 + 3".toList⟩ := by decide

example : Span.atEnd? "==".toList = some ⟨1, 2, []⟩ := by decide

example : Span.before? "π=2".toList 2 = some ⟨0, 2, ['π']⟩ := by
  rw [before?_eq]
  decide

end Reckoner
