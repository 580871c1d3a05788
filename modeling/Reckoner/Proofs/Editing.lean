import Reckoner.Buffer

/-!
# Editing a document

A document is made from a text and then edited in any order: text is inserted at a place, with
or without a report, text is typed at the cursor, and the cursor is set.  An edit puts one text
into one line, or it leaves the lines as they are (`lines_perform_cases`).  Everything else
follows from that.

* The number of lines stays what it was at the start (`lineCount_perform`).
* Lines only grow, so a place inside the document stays inside (`Inside.of_insert`).  That is why
  the cursor is inside after every edit (`inside_cursor_perform`), though an insertion does not
  move it and typing does not check it.
* A line feed never splits a line.  It stays in the line it was put into (`mem_lines_perform`),
  and the lines are no longer those of the text.

`run_fresh` says all this of a document made from a text and edited any number of times.
-/

namespace Reckoner

/-- What is done to a document. -/
inductive Edit
  /-- Text is inserted at a place, and a refusal is reported. -/
  | insert (place : Position) (t : Text)
  /-- Text is inserted at a place, if that is possible. -/
  | insertIfPossible (place : Position) (t : Text)
  /-- Text is typed at the cursor. -/
  | type (t : Text)
  /-- The cursor is set. -/
  | setCursor (place : Position)

namespace Buffer

/-- The documents that are made from a text. -/
inductive Fresh : Buffer → Prop
  | blank : Fresh blank
  | ofText (t : Text) : Fresh (ofText t)
  | ofTextAtEnd (t : Text) : Fresh (ofTextAtEnd t)

/-! ## Edits -/

/-- The document after an edit. -/
def perform (b : Buffer) : Edit → Buffer
  | .insert place t =>
      match b.insert place t with
      | .ok changed => changed
      | .error _ => b
  | .insertIfPossible place t => b.insertIfPossible place t
  | .type t => b.type t
  | .setCursor place => b.setCursor place

/-- The document after several edits in order. -/
def run (b : Buffer) (edits : List Edit) : Buffer := edits.foldl perform b

@[simp] theorem run_nil (b : Buffer) : b.run [] = b := rfl

@[simp] theorem run_cons (b : Buffer) (edit : Edit) (edits : List Edit) :
    b.run (edit :: edits) = (b.perform edit).run edits := rfl

/-- The text that an edit tries to put into a document, and where. -/
def attempt? (b : Buffer) : Edit → Option (Position × Text)
  | .insert place t | .insertIfPossible place t => some (place, t)
  | .type t => some (b.cursor, t)
  | .setCursor _ => none

/-- The text that an edit puts into a document.  There is none if it is refused. -/
def entered? (b : Buffer) (edit : Edit) : Option Text :=
  match b.attempt? edit with
  | none => none
  | some (place, t) =>
      match b.insert place t with
      | .ok _ => some t
      | .error _ => none

/-- The texts that edits put into a document, in order. -/
def entered (b : Buffer) : List Edit → List Text
  | [] => []
  | edit :: edits => (b.entered? edit).toList ++ (b.perform edit).entered edits

/-! ## Places inside -/

/-- A place inside a document. -/
structure Inside (b : Buffer) (place : Position) : Prop where
  /-- Its line exists. -/
  line_lt : place.line < b.lineCount
  /-- Its column is at most the length of the line. -/
  column_le : place.column ≤ (b.line place.line).length

theorem inside_iff {b : Buffer} {place : Position} :
    b.Inside place ↔ ∃ line, b.lines[place.line]? = some line ∧ place.column ≤ line.length := by
  constructor
  · intro h
    obtain ⟨line, hline⟩ : ∃ line, b.lines[place.line]? = some line :=
      ⟨_, List.getElem?_eq_getElem h.line_lt⟩
    have hcolumn := h.column_le
    rw [line_eq hline] at hcolumn
    exact ⟨line, hline, hcolumn⟩
  · rintro ⟨line, hline, hcolumn⟩
    refine ⟨(List.getElem?_eq_some_iff.1 hline).1, ?_⟩
    rwa [line_eq hline]

theorem inside_nearest {b : Buffer} (h : 0 < b.lineCount) (place : Position) :
    b.Inside (b.nearest place) where
  line_lt := by
    simp only [nearest]
    omega
  column_le := Nat.min_le_right _ _

theorem Fresh.inside_cursor {b : Buffer} (h : b.Fresh) : b.Inside b.cursor := by
  have hcount (t : Text) : 0 < (Text.split '\n' t).length :=
    List.length_pos_iff.2 (Text.split_ne_nil '\n' t)
  cases h with
  | blank => exact ⟨Nat.one_pos, Nat.le_refl 0⟩
  | ofText t => exact ⟨hcount t, Nat.zero_le _⟩
  | ofTextAtEnd t =>
    refine ⟨Nat.sub_lt (hcount t) Nat.one_pos, ?_⟩
    show _ ≤ ((Text.split '\n' t)[(Text.split '\n' t).length - 1]?.getD []).length
    rw [← List.getLast?_eq_getElem?]
    exact Nat.le_refl _

/-! ## One edit -/

/-- To the lines every edit is an insertion where that is possible, or nothing. -/
theorem lines_perform (b : Buffer) (edit : Edit) :
    (b.perform edit).lines =
      match b.attempt? edit with
      | none => b.lines
      | some (place, t) => (b.insertIfPossible place t).lines := by
  cases edit with
  | insert place t => rfl
  | insertIfPossible place t => rfl
  | type t =>
    show (b.type t).lines = (b.insertIfPossible b.cursor t).lines
    rw [type, insertIfPossible]
    cases b.insert b.cursor t <;> rfl
  | setCursor place => rfl

/-- An edit enters no text and leaves the lines alone, or it enters a text at a place inside. -/
theorem lines_perform_cases (b : Buffer) (edit : Edit) :
    (b.entered? edit = none ∧ (b.perform edit).lines = b.lines) ∨
      ∃ place t changed, b.entered? edit = some t ∧ b.insert place t = .ok changed ∧
        (b.perform edit).lines = changed.lines := by
  rw [lines_perform, entered?]
  cases b.attempt? edit with
  | none => exact .inl ⟨rfl, rfl⟩
  | some attempt =>
    obtain ⟨place, t⟩ := attempt
    dsimp only
    rw [insertIfPossible]
    cases h : b.insert place t with
    | error e => exact .inl ⟨rfl, rfl⟩
    | ok changed => exact .inr ⟨place, t, changed, rfl, h, rfl⟩

theorem lineCount_perform (b : Buffer) (edit : Edit) :
    (b.perform edit).lineCount = b.lineCount := by
  rcases lines_perform_cases b edit with ⟨-, hlines⟩ | ⟨place, t, changed, -, hinsert, hlines⟩
  · rw [lineCount, hlines, lineCount]
  · rw [lineCount, hlines]
    exact lineCount_insert hinsert

/-- A place inside a document is inside after an insertion. -/
theorem Inside.of_insert {b changed : Buffer} {place other : Position} {t : Text}
    (h : b.Inside other) (hinsert : b.insert place t = .ok changed) : changed.Inside other := by
  obtain ⟨old, hold, hcolumn⟩ := inside_iff.1 h
  obtain ⟨line, hline, -, rfl⟩ := insert_inv hinsert
  refine inside_iff.2 ?_
  show ∃ new, (b.lines.set place.line (spliced line place.column t))[other.line]? = some new ∧ _
  by_cases heq : place.line = other.line
  · rw [heq, hold] at hline
    cases hline
    have hlt : other.line < b.lines.length := (List.getElem?_eq_some_iff.1 hold).1
    refine ⟨spliced old place.column t, by rw [heq]; simp [hlt], ?_⟩
    rw [length_spliced]
    omega
  · exact ⟨old, by rw [List.getElem?_set_ne heq, hold], hcolumn⟩

/-- Typing at a cursor inside a document is not refused, and the new column of the cursor is at
most the length of the new line. -/
theorem type_of_inside {b : Buffer} (h : b.Inside b.cursor) (t : Text) :
    ∃ changed, b.insert b.cursor t = .ok changed ∧
      b.type t = { changed with cursor := ⟨b.cursor.line, b.cursor.column + t.length⟩ } ∧
      (b.type t).Inside ⟨b.cursor.line, b.cursor.column + t.length⟩ := by
  obtain ⟨line, hline, hcolumn⟩ := inside_iff.1 h
  have hinsert := insert_eq_ok hline hcolumn t
  have htype : b.type t = ⟨b.lines.set b.cursor.line (spliced line b.cursor.column t),
      ⟨b.cursor.line, b.cursor.column + t.length⟩⟩ := by rw [type, hinsert]
  refine ⟨_, hinsert, htype, inside_iff.2 ⟨spliced line b.cursor.column t, ?_, ?_⟩⟩
  · have hlt : b.cursor.line < b.lines.length := h.line_lt
    rw [htype]
    simp [hlt]
  · rw [length_spliced]
    exact Nat.add_le_add_right hcolumn _

/-- Every edit leaves the cursor inside the document. -/
theorem inside_cursor_perform {b : Buffer} (h : b.Inside b.cursor) (edit : Edit) :
    (b.perform edit).Inside (b.perform edit).cursor := by
  have hinsert (place : Position) (t : Text) :
      (b.insertIfPossible place t).Inside (b.insertIfPossible place t).cursor := by
    unfold insertIfPossible
    split
    · next changed hok => exact cursor_insert hok ▸ h.of_insert hok
    · exact h
  cases edit with
  | insert place t => exact hinsert place t
  | insertIfPossible place t => exact hinsert place t
  | type t =>
    -- the one edit that moves the cursor without looking at the new line
    obtain ⟨changed, -, htype, hinside⟩ := type_of_inside h t
    show (b.type t).Inside (b.type t).cursor
    rwa [show (b.type t).cursor = ⟨b.cursor.line, b.cursor.column + t.length⟩ by rw [htype]]
  | setCursor place =>
    have hnearest := inside_nearest (Nat.zero_lt_of_lt h.line_lt) place
    exact ⟨hnearest.line_lt, hnearest.column_le⟩

/-- The characters of the lines after an insertion are those before it and those inserted. -/
theorem mem_lines_insert {b changed : Buffer} {place : Position} {t : Text}
    (h : b.insert place t = .ok changed) (c : Char) :
    c ∈ changed.lines.flatten ↔ c ∈ b.lines.flatten ∨ c ∈ t := by
  obtain ⟨line, hline, -, rfl⟩ := insert_inv h
  obtain ⟨hlt, hget⟩ := List.getElem?_eq_some_iff.1 hline
  have hlines : b.lines.flatten = (b.lines.take place.line).flatten ++
      (line ++ (b.lines.drop (place.line + 1)).flatten) := by
    rw [← List.flatten_cons, ← List.flatten_append, ← hget, List.getElem_cons_drop,
      List.take_append_drop]
  have hspliced : c ∈ spliced line place.column t ↔ c ∈ line ∨ c ∈ t := by
    rw [spliced, List.mem_append, List.mem_append, or_right_comm, ← List.mem_append,
      List.take_append_drop]
  show c ∈ (b.lines.set place.line (spliced line place.column t)).flatten ↔ _
  rw [List.set_eq_take_append_cons_drop, if_pos hlt, hlines]
  simp only [List.flatten_append, List.flatten_cons, List.mem_append, hspliced]
  grind

theorem mem_lines_perform (b : Buffer) (edit : Edit) (c : Char) :
    c ∈ (b.perform edit).lines.flatten ↔
      c ∈ b.lines.flatten ∨ ∃ t ∈ (b.entered? edit).toList, c ∈ t := by
  rcases lines_perform_cases b edit with ⟨hnone, hlines⟩ | ⟨_, t, _, hsome, hinsert, hlines⟩
  · simp [hnone, hlines]
  · rw [hlines, mem_lines_insert hinsert, hsome]
    simp

/-! ## Many edits -/

theorem lineCount_run (b : Buffer) (edits : List Edit) :
    (b.run edits).lineCount = b.lineCount := by
  induction edits generalizing b with
  | nil => rfl
  | cons edit edits ih => rw [run_cons, ih, lineCount_perform]

theorem inside_cursor_run {b : Buffer} (h : b.Inside b.cursor) (edits : List Edit) :
    (b.run edits).Inside (b.run edits).cursor := by
  induction edits generalizing b with
  | nil => exact h
  | cons edit edits ih => exact ih (inside_cursor_perform h edit)

/-- The characters of the lines are those from the start and those of the entered texts. -/
theorem mem_lines_run (b : Buffer) (edits : List Edit) (c : Char) :
    c ∈ (b.run edits).lines.flatten ↔ c ∈ b.lines.flatten ∨ ∃ t ∈ b.entered edits, c ∈ t := by
  induction edits generalizing b with
  | nil => simp [entered]
  | cons edit edits ih =>
    rw [run_cons, ih, mem_lines_perform, entered, or_assoc]
    simp only [List.mem_append, or_and_right, exists_or]

theorem Fresh.lineFeed_not_mem {b : Buffer} (h : b.Fresh) : '\n' ∉ b.lines.flatten := by
  have hsplit (t : Text) : '\n' ∉ (Text.split '\n' t).flatten := by
    intro hmem
    obtain ⟨line, hline, hc⟩ := List.mem_flatten.1 hmem
    exact Text.not_mem_of_mem_split hline hc
  cases h with
  | blank => simp [Buffer.blank]
  | ofText t => exact hsplit t
  | ofTextAtEnd t => exact hsplit t

/-- The lines of a document are those of its text exactly if none holds a line feed. -/
theorem lines_ofText_text_iff {b : Buffer} (h : 0 < b.lineCount) :
    (ofText b.text).lines = b.lines ↔ '\n' ∉ b.lines.flatten := by
  show Text.split '\n' (Text.join '\n' b.lines) = b.lines ↔ _
  rw [Text.split_join_iff (List.length_pos_iff.1 h), List.mem_flatten]
  simp

/-- A document made from a text and edited any number of times.  It has as many lines as at the
start, and at least one.  Its cursor is inside.  So typing is never refused, and the new column of
the cursor is at most the length of a line, which fits into memory.  The cursor can be set to any
place, since the line it then stands on exists.  The lines are those of the text of the document
exactly if no text that was entered holds a line feed. -/
theorem run_fresh {start : Buffer} (hstart : start.Fresh) (edits : List Edit) :
    let b := start.run edits
    (b.lineCount = start.lineCount ∧ 1 ≤ b.lineCount) ∧
    (b.cursor.line < b.lineCount ∧ b.cursor.column ≤ (b.line b.cursor.line).length) ∧
    (∀ t, ∃ changed, b.insert b.cursor t = .ok changed ∧
      b.type t = { changed with cursor := ⟨b.cursor.line, b.cursor.column + t.length⟩ } ∧
      b.cursor.column + t.length ≤ ((b.type t).line b.cursor.line).length) ∧
    (∀ place, (b.nearest place).line < b.lineCount ∧
      (b.nearest place).column ≤ (b.line (b.nearest place).line).length) ∧
    ((ofText b.text).lines = b.lines ↔ ∀ t ∈ start.entered edits, '\n' ∉ t) := by
  intro b
  have hcursor : b.Inside b.cursor := inside_cursor_run hstart.inside_cursor edits
  have hpos : 0 < b.lineCount := Nat.zero_lt_of_lt hcursor.line_lt
  refine ⟨⟨lineCount_run start edits, hpos⟩, ⟨hcursor.line_lt, hcursor.column_le⟩, fun t => ?_,
    fun place => ?_, ?_⟩
  · obtain ⟨changed, hinsert, htype, hinside⟩ := type_of_inside hcursor t
    exact ⟨changed, hinsert, htype, hinside.column_le⟩
  · have hnearest := inside_nearest hpos place
    exact ⟨hnearest.line_lt, hnearest.column_le⟩
  · rw [lines_ofText_text_iff hpos, mem_lines_run]
    simp [hstart.lineFeed_not_mem]

/-- A cursor set far outside, a refused insertion, and a line feed inserted before the cursor. -/
theorem run_fresh_lineFeed :
    let start := ofText "é=\n".toList
    let edits := [.setCursor ⟨0, 0xFFFFFFFFFFFFFFFF⟩, .type "π".toList, .insert ⟨2, 0⟩ "\n".toList,
      .insertIfPossible ⟨0, 1⟩ "a\nb".toList]
    start.Fresh ∧ (start.run edits).lines = ["éa\nb=π".toList, []] ∧
      (start.run edits).lineCount = 2 ∧ (start.run edits).cursor = ⟨0, 3⟩ ∧
      (ofText (start.run edits).text).lines ≠ (start.run edits).lines := by
  intro start edits
  have hstart : start.Fresh := .ofText _
  obtain ⟨⟨hcount, -⟩, -, -, -, htext⟩ := run_fresh hstart edits
  refine ⟨hstart, by decide +kernel, hcount.trans (by decide), by decide +kernel, fun hlines => ?_⟩
  exact htext.1 hlines "a\nb".toList (by decide +kernel) (by decide)

end Buffer

end Reckoner
