import Reckoner.Text.Offset
import Reckoner.Text.Split

/-!
# The text buffer

A document is a list of lines with a cursor.  Text is inserted into one line and never splits
it, also where it holds a line feed.  So the number of lines never changes.

An insertion needs an existing line and a column no greater than the length of that line.  It is
made at the byte offset of the column, which is never inside a character (`insert_eq`).  It does
not move the cursor; typing does.  A cursor that is set outside the document moves to the
nearest place.

A place is inside a document if its line exists and its column is at most the length of that
line.  There, insertion succeeds and splices the line (`insert_eq_ok`), and a cursor that is set
stays where it was put (`nearest_eq_self`).  A spliced line can be cut again behind what was
inserted (`take_spliced`).
-/

namespace Reckoner

/-- A place in a document. -/
structure Position where
  /-- The line, counted from zero. -/
  line : Nat
  /-- The number of characters before the place. -/
  column : Nat
deriving DecidableEq, Repr

/-- A document with a cursor. -/
structure Buffer where
  /-- The lines. -/
  lines : List Text
  /-- The cursor. -/
  cursor : Position
deriving DecidableEq, Repr

/-- Why text cannot be inserted. -/
inductive OutOfRange
  /-- There is no such line among the `count` lines. -/
  | line (line count : Nat)
  /-- The line has only `length` characters. -/
  | column (line column length : Nat)
deriving DecidableEq, Repr

/-- The message for a place outside the document. -/
def OutOfRange.message : OutOfRange → String
  | .line n count =>
      "line " ++ toString n ++ " out of range (buffer has " ++ toString count ++ " lines)"
  | .column n c length =>
      "column " ++ toString c ++ " out of range on line " ++ toString n ++ " (" ++
      toString length ++ " chars)"

namespace Buffer

/-! ## Construction -/

/-- The place at the start. -/
def origin : Position := ⟨0, 0⟩

/-- A document of one empty line. -/
def blank : Buffer := ⟨[[]], origin⟩

/-- The document of a text, with the cursor at the start. -/
def ofText (t : Text) : Buffer := ⟨Text.split '\n' t, origin⟩

/-- The place after the last character of the last line. -/
def endOf (lines : List Text) : Position :=
  ⟨lines.length - 1, (lines.getLast?.getD []).length⟩

/-- The document of a text, with the cursor at the end. -/
def ofTextAtEnd (t : Text) : Buffer :=
  let lines := Text.split '\n' t
  ⟨lines, endOf lines⟩

/-! ## Reading -/

/-- The whole text, with a line feed between two lines. -/
def text (b : Buffer) : Text := Text.join '\n' b.lines

/-- The number of lines. -/
def lineCount (b : Buffer) : Nat := b.lines.length

/-- A line; empty if there is none. -/
def line (b : Buffer) (n : Nat) : Text := b.lines[n]?.getD []

/-- The characters of a line from column `start` to before column `stop`. -/
def slice (b : Buffer) (n start stop : Nat) : Text := ((b.line n).drop start).take (stop - start)

/-! ## Changing -/

/-- A line with text inserted at a column. -/
def spliced (line : Text) (column : Nat) (t : Text) : Text :=
  line.take column ++ t ++ line.drop column

/-- Inserts text at a place. -/
def insert (b : Buffer) (place : Position) (t : Text) : Except OutOfRange Buffer :=
  match b.lines[place.line]? with
  | none => .error (.line place.line b.lineCount)
  | some line =>
      match Text.index? line place.column with
      | none => .error (.column place.line place.column line.length)
      | some offset =>
          let changed := (Text.insertAt? line offset t).getD line
          .ok { b with lines := b.lines.set place.line changed }

/-- Inserts text at a place, if that is possible. -/
def insertIfPossible (b : Buffer) (place : Position) (t : Text) : Buffer :=
  match b.insert place t with
  | .ok b => b
  | .error _ => b

/-- Inserts text at the cursor and moves the cursor behind it. -/
def type (b : Buffer) (t : Text) : Buffer :=
  match b.insert b.cursor t with
  | .ok changed => { changed with cursor := ⟨b.cursor.line, b.cursor.column + t.length⟩ }
  | .error _ => b

/-- The place of the document nearest to a given one: the last line for a line after it, and the
end of the line for a column after that. -/
def nearest (b : Buffer) (place : Position) : Position :=
  let n := min place.line (b.lineCount - 1)
  ⟨n, min place.column (b.line n).length⟩

/-- Sets the cursor. -/
def setCursor (b : Buffer) (place : Position) : Buffer := { b with cursor := b.nearest place }

/-! ## What the changes keep -/

theorem length_spliced (line : Text) (column : Nat) (t : Text) :
    (spliced line column t).length = line.length + t.length := by
  simp only [spliced, List.length_append, List.length_take, List.length_drop]
  omega

/-- To an existing line an insertion is a splice, if the column is one of the line. -/
theorem insert_eq {b : Buffer} {place : Position} {line : Text}
    (hline : b.lines[place.line]? = some line) (t : Text) :
    b.insert place t =
      if place.column ≤ line.length then
        .ok { b with lines := b.lines.set place.line (spliced line place.column t) }
      else .error (.column place.line place.column line.length) := by
  unfold insert
  rw [hline]
  dsimp only
  cases hindex : Text.index? line place.column with
  | none =>
    rw [Text.index?_eq] at hindex
    split at hindex
    · cases hindex
    · next hcolumn => rw [if_neg hcolumn]
  | some offset =>
    obtain ⟨-, hinsert⟩ := Text.insertAt?_index? hindex t
    rw [Text.index?_eq] at hindex
    split at hindex
    · next hcolumn =>
      rw [if_pos hcolumn]
      dsimp only
      rw [hinsert]
      rfl
    · cases hindex

/-- An insertion that is possible is at a place inside the document, and splices the line. -/
theorem insert_inv {b changed : Buffer} {place : Position} {t : Text}
    (h : b.insert place t = .ok changed) :
    ∃ line, b.lines[place.line]? = some line ∧ place.column ≤ line.length ∧
      changed = { b with lines := b.lines.set place.line (spliced line place.column t) } := by
  cases hline : b.lines[place.line]? with
  | none =>
    rw [insert, hline] at h
    cases h
  | some line =>
    rw [insert_eq hline] at h
    split at h
    · next hcolumn => exact ⟨line, rfl, hcolumn, (Except.ok.inj h).symm⟩
    · cases h

theorem cursor_insert {b changed : Buffer} {place : Position} {t : Text}
    (h : b.insert place t = .ok changed) : changed.cursor = b.cursor := by
  obtain ⟨line, -, -, rfl⟩ := insert_inv h
  rfl

theorem lineCount_insert {b changed : Buffer} {place : Position} {t : Text}
    (h : b.insert place t = .ok changed) : changed.lineCount = b.lineCount := by
  obtain ⟨line, -, -, rfl⟩ := insert_inv h
  simp [lineCount]

/-! ## Places inside -/

/-- Insertion at a place inside the document. -/
theorem insert_eq_ok {b : Buffer} {place : Position} {line : Text}
    (hline : b.lines[place.line]? = some line) (hcolumn : place.column ≤ line.length) (t : Text) :
    b.insert place t =
      .ok { b with lines := b.lines.set place.line (spliced line place.column t) } := by
  rw [insert_eq hline, if_pos hcolumn]

theorem insertIfPossible_eq {b : Buffer} {place : Position} {line : Text}
    (hline : b.lines[place.line]? = some line) (hcolumn : place.column ≤ line.length) (t : Text) :
    b.insertIfPossible place t =
      { b with lines := b.lines.set place.line (spliced line place.column t) } := by
  rw [insertIfPossible, insert_eq_ok hline hcolumn]

theorem line_eq {b : Buffer} {n : Nat} {line : Text} (h : b.lines[n]? = some line) :
    b.line n = line := by
  rw [Buffer.line, h]
  rfl

/-- A place inside the document is nearest to itself. -/
theorem nearest_eq_self {b : Buffer} {place : Position} {line : Text}
    (hline : b.lines[place.line]? = some line) (hcolumn : place.column ≤ line.length) :
    b.nearest place = place := by
  have hlt : place.line < b.lines.length := (List.getElem?_eq_some_iff.1 hline).1
  have hmin : min place.line (b.lineCount - 1) = place.line := by
    simp only [lineCount]
    omega
  have hlength : (b.line place.line).length = line.length := by rw [line_eq hline]
  have hcol : min place.column line.length = place.column := by omega
  simp only [nearest, hmin, hlength, hcol]

/-- The text before a place on a line of the document. -/
theorem slice_zero {b : Buffer} {n : Nat} {line : Text} (hline : b.lines[n]? = some line)
    (column : Nat) : b.slice n 0 column = line.take column := by
  simp [slice, line_eq hline]

/-- The line before and behind text that was inserted. -/
theorem take_spliced {line : Text} {column : Nat} (h : column ≤ line.length) (t : Text) :
    (spliced line column t).take (column + t.length) = line.take column ++ t ∧
      (spliced line column t).drop (column + t.length) = line.drop column := by
  have hfront : (line.take column ++ t).length = column + t.length := by
    rw [List.length_append, List.length_take_of_le h]
  rw [spliced, ← hfront]
  exact ⟨List.take_left, List.drop_left⟩

/-- Text inserted behind text that was inserted. -/
theorem spliced_spliced {line : Text} {column : Nat} (h : column ≤ line.length) (s t : Text) :
    spliced (spliced line column s) (column + s.length) t = spliced line column (s ++ t) := by
  obtain ⟨htake, hdrop⟩ := take_spliced h s
  rw [spliced, htake, hdrop, spliced, List.append_assoc (line.take column) s t]

example : (ofTextAtEnd "a\nbc".toList).cursor = ⟨1, 2⟩ := by decide

example : ((ofTextAtEnd "a=".toList).type " 1".toList).text = "a= 1".toList := by decide

end Buffer

end Reckoner
