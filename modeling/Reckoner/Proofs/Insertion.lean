import Reckoner.Proofs.Editing

/-!
# Inserting at a place

A place is a line and a column, and the line is changed at a byte offset.  The offset of a column
is where a character starts or the line ends, whatever the widths of the characters before it are
(`Text.insertAt?_index?`).  So an insertion splices the line by columns, and what is read back by
columns is the text in front, the text that was inserted, and the text behind (`slice_insert`).

There is one way to fail for the line and one for the column.  The line is looked at first
(`insert_eq_error_line`, `insert_eq_error_column`), and a failure leaves the document as it was.
-/

namespace Reckoner.Buffer

/-! ## Success -/

/-- A spliced line up to the column, from there over the inserted text, and behind that. -/
theorem parts_spliced {line : Text} {column : Nat} (h : column ≤ line.length) (t : Text) :
    (spliced line column t).take column = line.take column ∧
      ((spliced line column t).drop column).take t.length = t ∧
      (spliced line column t).drop (column + t.length) = line.drop column := by
  have hfront : (line.take column).length = column := List.length_take_of_le h
  have hsplit : spliced line column t = line.take column ++ (t ++ line.drop column) := by
    rw [spliced, List.append_assoc]
  refine ⟨?_, ?_, (take_spliced h t).2⟩
  · rw [hsplit, List.take_left' hfront]
  · rw [hsplit, List.drop_left' hfront, List.take_left]

theorem line_insert {b changed : Buffer} {place : Position} {t : Text}
    (h : b.insert place t = .ok changed) :
    changed.line place.line = spliced (b.line place.line) place.column t := by
  obtain ⟨line, hline, -, rfl⟩ := insert_inv h
  have hlt : place.line < b.lines.length := (List.getElem?_eq_some_iff.1 hline).1
  rw [line_eq hline]
  exact line_eq (List.getElem?_set_self hlt)

/-- What is read back by columns after an insertion. -/
theorem slice_insert {b changed : Buffer} {place : Position} {t : Text}
    (h : b.insert place t = .ok changed) :
    let line := b.line place.line
    let stop := place.column + t.length
    changed.slice place.line 0 place.column = line.take place.column ∧
      changed.slice place.line place.column stop = t ∧
      ∀ further, changed.slice place.line stop further =
        (line.drop place.column).take (further - stop) := by
  intro line stop
  have hcolumn : place.column ≤ line.length := by
    obtain ⟨l, hline, hcolumn, -⟩ := insert_inv h
    rwa [show line = l from line_eq hline]
  obtain ⟨hfront, hinserted, hbehind⟩ := parts_spliced hcolumn t
  refine ⟨?_, ?_, fun further => ?_⟩
  · rw [slice, line_insert h, List.drop_zero, Nat.sub_zero, hfront]
  · rw [slice, line_insert h, Nat.add_sub_cancel_left, hinserted]
  · rw [slice, line_insert h, hbehind]

/-! ## Failure -/

/-- Without the line, whatever the column is. -/
theorem insert_eq_error_line {b : Buffer} {place : Position} (h : b.lineCount ≤ place.line)
    (t : Text) : b.insert place t = .error (.line place.line b.lineCount) := by
  rw [insert, List.getElem?_eq_none h]

theorem insert_eq_error_column {b : Buffer} {place : Position} (hline : place.line < b.lineCount)
    (h : (b.line place.line).length < place.column) (t : Text) :
    b.insert place t = .error (.column place.line place.column (b.line place.line).length) := by
  have hget : b.lines[place.line]? = some b.lines[place.line] := List.getElem?_eq_getElem hline
  have heq : b.line place.line = b.lines[place.line] := line_eq hget
  rw [heq] at h ⊢
  rw [insert_eq hget, if_neg (Nat.not_le.2 h)]

theorem perform_insert_of_error {b : Buffer} {place : Position} {t : Text} {e : OutOfRange}
    (h : b.insert place t = .error e) : b.perform (.insert place t) = b := by
  rw [perform, h]

/-- Inserting a text at any place of any document succeeds exactly if the line exists and the
column is at most its length.

Then the line is changed at the byte offset of the column.  That is no place inside a character,
and the line becomes the characters before the column, the text, and the characters from the
column on.  The other lines and the cursor stay, and the three parts are read back by columns.

Otherwise the fault names the line if there is none, whatever the column is, and the column with
the length of the line if there is one.  The document stays as it was. -/
theorem insert_outcomes (b : Buffer) (place : Position) (t : Text) :
    let line := b.line place.line
    let front := line.take place.column
    let behind := line.drop place.column
    let stop := place.column + t.length
    ((∃ changed, b.insert place t = .ok changed) ↔
      place.line < b.lineCount ∧ place.column ≤ line.length) ∧
    (∀ changed, b.insert place t = .ok changed →
      (∃ offset, Text.index? line place.column = some offset ∧
        Text.isBoundary line offset = true ∧
        Text.insertAt? line offset t = some (front ++ t ++ behind)) ∧
      changed.lines = b.lines.set place.line (front ++ t ++ behind) ∧
      changed.cursor = b.cursor ∧
      changed.slice place.line 0 place.column = front ∧
      changed.slice place.line place.column stop = t ∧
      ∀ further, changed.slice place.line stop further = behind.take (further - stop)) ∧
    (b.lineCount ≤ place.line → b.insert place t = .error (.line place.line b.lineCount)) ∧
    (place.line < b.lineCount → line.length < place.column →
      b.insert place t = .error (.column place.line place.column line.length)) ∧
    ∀ e, b.insert place t = .error e → b.perform (.insert place t) = b := by
  intro line front behind stop
  refine ⟨⟨?_, ?_⟩, fun changed h => ?_, fun h => insert_eq_error_line h t,
    fun hline h => insert_eq_error_column hline h t, fun e h => perform_insert_of_error h⟩
  · rintro ⟨changed, h⟩
    obtain ⟨l, hline, hcolumn, -⟩ := insert_inv h
    have hinside : b.Inside place := inside_iff.2 ⟨l, hline, hcolumn⟩
    exact ⟨hinside.line_lt, hinside.column_le⟩
  · rintro ⟨hline, hcolumn⟩
    obtain ⟨l, hl, hle⟩ := inside_iff.1 ⟨hline, hcolumn⟩
    exact ⟨_, insert_eq_ok hl hle t⟩
  · obtain ⟨hfront, hinserted, hbehind⟩ := slice_insert h
    obtain ⟨l, hline, hcolumn, rfl⟩ := insert_inv h
    obtain rfl : line = l := line_eq hline
    have hindex : Text.index? line place.column = some (Text.bytes front).size := by
      rw [Text.index?_eq, if_pos hcolumn]
    obtain ⟨hboundary, hinsert⟩ := Text.insertAt?_index? hindex t
    exact ⟨⟨_, hindex, hboundary, hinsert⟩, rfl, rfl, hfront, hinserted, hbehind⟩

/-- Behind characters of one, two and four bytes. -/
example : ((ofText "aπ𝄞b".toList).insertIfPossible ⟨0, 3⟩ ['é']).text = "aπ𝄞éb".toList := by
  decide +kernel

end Reckoner.Buffer
