import Reckoner.Basic

/-!
# Byte offsets

Columns count characters, and a text in memory is its UTF-8 bytes.  A column is turned into the
offset of the byte where its character starts, and a text is cut at an offset.  An offset inside
a character is no place to cut at.

`cut?_offset` says that the offset of a column never is inside a character, and that the
characters before the column are left.  `insertAt?_index?` says the same of an insertion: at the
offset of a column, a text is put in between the characters before the column and those behind it.
-/

namespace Reckoner.Text

/-- A text in UTF-8. -/
def bytes (t : Text) : ByteArray := (String.ofList t).toByteArray

/-- The byte offset of the character at a column; none from the end of the text on. -/
def offset? : Text → Nat → Option Nat
  | [], _ => none
  | _ :: _, 0 => some 0
  | c :: t, column + 1 => (offset? t column).map (c.utf8Size + ·)

/-- The byte offset of a column.  From the end of the text on it is the number of bytes. -/
def offset (t : Text) (column : Nat) : Nat := (offset? t column).getD (bytes t).size

/-- The text before a byte offset; none inside a character. -/
def cut? (t : Text) (offset : Nat) : Option Text :=
  ((bytes t).extract 0 offset).utf8Decode?.map Array.toList

/-- The offsets where the characters of a text start that stands behind `n` bytes. -/
def startsFrom : Nat → Text → List Nat
  | _, [] => []
  | n, c :: t => n :: startsFrom (n + c.utf8Size) t

/-- The byte offset of a column for an insertion.  The end of the text is a column too. -/
def index? (t : Text) (column : Nat) : Option Nat :=
  (startsFrom 0 t ++ [(bytes t).size])[column]?

/-- Whether a character starts at a byte offset, or the text ends there. -/
def isBoundary (t : Text) (offset : Nat) : Bool := String.Pos.Raw.isValid (String.ofList t) ⟨offset⟩

/-- A text with another one put in at a byte offset; none inside a character and behind the
end. -/
def insertAt? (t : Text) (offset : Nat) (s : Text) : Option Text :=
  if isBoundary t offset then
    let b := bytes t
    (b.extract 0 offset ++ bytes s ++ b.extract offset b.size).utf8Decode?.map Array.toList
  else none

theorem bytes_append (s t : Text) : bytes (s ++ t) = bytes s ++ bytes t := by
  simp only [bytes, String.toByteArray_ofList, List.utf8Encode_append]

theorem size_bytes_cons (c : Char) (t : Text) :
    (bytes (c :: t)).size = c.utf8Size + (bytes t).size := by
  rw [← List.singleton_append, bytes_append, ByteArray.size_append, bytes,
    String.toByteArray_ofList, List.utf8Encode_singleton]
  simp

/-- A text can be cut behind every character. -/
theorem cut?_append (s t : Text) : cut? (s ++ t) (bytes s).size = some s := by
  rw [cut?, bytes_append, ByteArray.extract_append_eq_left rfl, bytes,
    String.toByteArray_ofList, List.utf8Decode?_utf8Encode]
  rfl

/-- The offset of a column is the number of bytes before it. -/
theorem offset_eq (t : Text) (column : Nat) :
    offset t column = (bytes (t.take column)).size := by
  induction t generalizing column with
  | nil => rw [List.take_nil]; rfl
  | cons c t ih =>
    cases column with
    | zero => rfl
    | succ column =>
      rw [List.take_succ_cons, size_bytes_cons, ← ih column, offset, offset, offset?,
        size_bytes_cons]
      cases offset? t column <;> rfl

/-- At the offset of a column a text can be cut, and the characters before it are left. -/
theorem cut?_offset (t : Text) (column : Nat) :
    cut? t (offset t column) = some (t.take column) := by
  have h := cut?_append (t.take column) (t.drop column)
  rwa [List.take_append_drop, ← offset_eq] at h

/-! ## Insertion -/

theorem getElem?_startsFrom (n : Nat) (t : Text) (column : Nat) :
    (startsFrom n t ++ [n + (bytes t).size])[column]? =
      if column ≤ t.length then some (n + (bytes (t.take column)).size) else none := by
  induction t generalizing n column with
  | nil => cases column <;> simp [startsFrom]
  | cons c t ih =>
    cases column with
    | zero => rfl
    | succ column =>
      have h := ih (n + c.utf8Size) column
      rw [Nat.add_assoc, Nat.add_assoc, ← size_bytes_cons, ← size_bytes_cons] at h
      simpa [startsFrom] using h

/-- The columns are those up to the end of the text, and the offset of a column is the number of
bytes before it. -/
theorem index?_eq (t : Text) (column : Nat) :
    index? t column =
      if column ≤ t.length then some (bytes (t.take column)).size else none := by
  simpa [index?] using getElem?_startsFrom 0 t column

theorem isBoundary_append (s t : Text) : isBoundary (s ++ t) (bytes s).size = true := by
  refine String.Pos.Raw.isValid_eq_true_iff.2 (String.Pos.Raw.isValid_iff_exists_append.2 ?_)
  exact ⟨String.ofList s, String.ofList t, String.ofList_append, rfl⟩

/-- Behind every character a text can be put in. -/
theorem insertAt?_append (s t u : Text) :
    insertAt? (s ++ t) (bytes s).size u = some (s ++ u ++ t) := by
  have hbehind : (bytes s ++ bytes t).extract (bytes s).size (bytes s ++ bytes t).size = bytes t :=
    ByteArray.extract_append_eq_right rfl ByteArray.size_append
  rw [insertAt?, if_pos (isBoundary_append s t), bytes_append]
  dsimp only
  rw [ByteArray.extract_append_eq_left rfl, hbehind, ← bytes_append, ← bytes_append, bytes,
    String.toByteArray_ofList, List.utf8Decode?_utf8Encode]
  rfl

/-- The offset of a column is no place inside a character, and what is put in there stands between
the characters before the column and those behind it. -/
theorem insertAt?_index? {t : Text} {column offset : Nat} (h : index? t column = some offset)
    (s : Text) :
    isBoundary t offset = true ∧
      insertAt? t offset s = some (t.take column ++ s ++ t.drop column) := by
  rw [index?_eq] at h
  split at h
  · have hoffset := Option.some.inj h
    have hboundary := isBoundary_append (t.take column) (t.drop column)
    have hinsert := insertAt?_append (t.take column) (t.drop column) s
    rw [List.take_append_drop, hoffset] at hboundary hinsert
    exact ⟨hboundary, hinsert⟩
  · cases h

example : offset "π=".toList 1 = 2 ∧ offset "π=".toList 7 = 3 := by decide

example : index? "π=".toList 2 = some 3 ∧ index? "π=".toList 3 = none := by decide

end Reckoner.Text
