import Reckoner.Proofs.Editing
import Reckoner.Proofs.Search
import Reckoner.Session

/-!
# Triggers along a line

The cursor may stand at any column of a line, or behind its end.  There is a trigger exactly where
the character in front of the cursor is `=` (`isSome_before?_iff`), and every `=` of a line is in
the span of one trigger: the spans begin where the one before ends, and cover the line up to its
last `=` (`along_disjoint`, `exists_along_iff`).

A session reads the line by columns, and not by byte offsets.  It finds the same trigger
(`triggerAt?_eq`), at places inside the document.
-/

namespace Reckoner

/-! ## One column -/

theorem before?_eq_some_iff {t : Text} {column : Nat} {s : Span} :
    Span.before? t column = some s ↔ s.Covers (t.take column) := by
  rw [before?_eq, atEnd?_eq_some_iff]

theorem isSome_before?_iff (t : Text) (column : Nat) :
    (Span.before? t column).isSome ↔
      0 < min column t.length ∧ t[min column t.length - 1]? = some '=' := by
  rw [before?_eq, isSome_atEnd?_iff, List.take_eq_take_min]
  generalize hn : min column t.length = n
  have hle : n ≤ t.length := hn ▸ Nat.min_le_right _ _
  rw [List.getLast?_take]
  split
  · next hzero => simp [hzero]
  · next hzero =>
    have hlt : n - 1 < t.length := by omega
    rw [List.getElem?_eq_getElem hlt, Option.some_or]
    exact ⟨fun h => ⟨by omega, h⟩, And.right⟩

namespace Span.Covers

variable {s : Span} {t : Text}

/-- The characters of the query and the `=`, by their columns. -/
theorem getElem?_eq (h : s.Covers t) (i : Nat) : t[s.start + i]? = (s.query ++ ['='])[i]? := by
  rw [← h.drop_eq, List.getElem?_drop]

theorem getElem?_last (h : s.Covers t) : t[s.stop - 1]? = some '=' := by
  rw [← h.length_eq, Nat.add_sub_cancel, h.getElem?_eq, List.getElem?_concat_length]

theorem getElem?_ne (h : s.Covers t) {column : Nat} (hstart : s.start ≤ column)
    (hstop : column + 1 < s.stop) : t[column]? ≠ some '=' := by
  intro heq
  have hlength := h.length_eq
  rw [← Nat.add_sub_cancel' hstart, h.getElem?_eq, List.getElem?_append_left (by omega)] at heq
  exact h.not_mem (List.mem_of_getElem? heq)

end Span.Covers

/-! ## All columns -/

/-- The triggers before all columns of a line, from the left to the right. -/
def Span.along (line : Text) : List Span :=
  (List.range (line.length + 1)).filterMap (Span.before? line)

theorem mem_along {line : Text} {s : Span} :
    s ∈ Span.along line ↔ ∃ column ≤ line.length, s.Covers (line.take column) := by
  simp only [Span.along, List.mem_filterMap, List.mem_range, Nat.lt_succ_iff,
    before?_eq_some_iff]

/-- A span lies in the line, and its last character is an `=` of the line. -/
theorem Span.Covers.line_last {s : Span} {t : Text} {column : Nat}
    (h : s.Covers (t.take column)) : t[s.stop - 1]? = some '=' := by
  have hlast := h.getElem?_last
  rw [List.getElem?_take] at hlast
  split at hlast
  · exact hlast
  · cases hlast

/-- The span of a trigger ends before the next one begins. -/
theorem along_disjoint (line : Text) :
    (Span.along line).Pairwise fun s s' => s.stop ≤ s'.start := by
  rw [Span.along, List.pairwise_filterMap]
  refine List.pairwise_lt_range.imp_of_mem fun {column column'} _ hmem' hlt s hs s' hs' => ?_
  have hcovers := before?_eq_some_iff.1 hs
  have hcovers' := before?_eq_some_iff.1 hs'
  have hlength := hcovers.length_eq
  have hstop : s.stop ≤ column := hcovers.stop_eq ▸ List.length_take_le column line
  have hstop' : s'.stop = column' := by
    rw [hcovers'.stop_eq, List.length_take_of_le (Nat.lt_succ_iff.1 (List.mem_range.1 hmem'))]
  refine Nat.le_of_not_lt fun hstart => ?_
  -- The `=` of the first span would be in the query of the second.
  refine hcovers'.getElem?_ne (Nat.le_sub_one_of_lt hstart) (by omega) ?_
  rw [List.getElem?_take, if_pos (by omega), hcovers.line_last]

/-- The spans of a line cover every column up to its last `=`. -/
theorem exists_along_iff (line : Text) (column : Nat) :
    (∃ s ∈ Span.along line, s.start ≤ column ∧ column < s.stop) ↔ '=' ∈ line.drop column := by
  constructor
  · rintro ⟨s, hs, -, hstop⟩
    obtain ⟨_, -, hcovers⟩ := mem_along.1 hs
    refine List.mem_of_getElem? (i := s.stop - 1 - column) ?_
    rw [List.getElem?_drop, Nat.add_sub_cancel' (by omega), hcovers.line_last]
  · intro hmem
    obtain ⟨q, rest, hdrop, hq⟩ := List.eq_append_cons_of_mem hmem
    -- The first `=` from the column on ends the span that the column is in.
    have htake : line.take (column + q.length + 1) = line.take column ++ q ++ ['='] := by
      rw [Nat.add_assoc, List.take_add, hdrop, List.take_length_add_append, List.append_assoc]
      rfl
    have hle : column + q.length + 1 ≤ line.length := by
      have hlength := congrArg List.length hdrop
      rw [List.length_drop, List.length_append, List.length_cons] at hlength
      omega
    obtain ⟨r, hr⟩ := exists_endsInQuery (t := line.take (column + q.length + 1))
      (by rw [htake, List.getLast?_concat])
    have hqr : q <:+ r := hr.suffix_of_not_mem (by simp [htake]) hq
    refine ⟨_, mem_along.2 ⟨_, hle, hr.covers⟩, ?_, ?_⟩
    · have := hqr.length_le
      simp only [List.length_take_of_le hle]
      omega
    · simp only [List.length_take_of_le hle]
      omega

/-! ## Documents -/

namespace Session

/-- A session finds the trigger before a column of the line. -/
theorem triggerAt?_eq (b : Buffer) (place : Position) :
    triggerAt? b place =
      match b.lines[place.line]? with
      | none => none
      | some line => (Span.before? line place.column).map (·.onLine place.line) := by
  show (Span.atEnd? (b.slice place.line 0 place.column)).map _ = _
  cases hline : b.lines[place.line]? with
  | none => simp [Buffer.slice, Buffer.line, hline, atEnd?_nil]
  | some line => rw [Buffer.slice_zero hline, ← before?_eq]

/-- A trigger is inside the document, and between its places stand the query and the `=`. -/
theorem inside_triggerAt? {b : Buffer} {place : Position} {t : Trigger}
    (h : triggerAt? b place = some t) :
    b.Inside t.start ∧ b.Inside t.stop ∧
      b.slice place.line t.start.column t.stop.column = t.query ++ ['='] := by
  rw [triggerAt?_eq] at h
  cases hline : b.lines[place.line]? with
  | none => rw [hline] at h; cases h
  | some line =>
    rw [hline] at h
    obtain ⟨s, hs, rfl⟩ := Option.map_eq_some_iff.1 h
    have hcovers := before?_eq_some_iff.1 hs
    have hlength := hcovers.length_eq
    have hstop : s.stop = min place.column line.length := by
      rw [hcovers.stop_eq, List.length_take]
    refine ⟨Buffer.inside_iff.2 ⟨line, hline, ?_⟩, Buffer.inside_iff.2 ⟨line, hline, ?_⟩, ?_⟩
    · show s.start ≤ line.length
      omega
    · show s.stop ≤ line.length
      omega
    · have hslice := hcovers.slice_eq
      rw [List.drop_take, List.take_take, Nat.min_eq_left (by omega)] at hslice
      rw [Buffer.slice, Buffer.line_eq hline]
      exact hslice

/-- Looking for a trigger gives the one that the text before the place ends in. -/
theorem notice_snd (s : Session) (b : Buffer) (place : Position) :
    (s.notice b place).2 = triggerAt? b place := by
  rw [notice]
  cases triggerAt? b place <;> rfl

/-- The trigger before a cursor at any column of a line, also behind its end.  The line can be cut
at the byte offset of the column, and the trigger is that of the text before the column.  There is
one exactly if the character in front of the cursor is an `=`.  The spans along a line do not
overlap, and together they cover all columns up to the last `=`.  A session that looks at any place
of any document finds the trigger of the line there, and none if there is no such line.  Both ends
of that trigger are inside the document, and between them stand the query and the `=`. -/
theorem notice_along :
    (∀ (t : Text) (column : Nat),
      let n := min column t.length
      Text.cut? t (Text.offset t column) = some (t.take n) ∧
        Span.before? t column = Span.atEnd? (t.take n) ∧
        ((Span.before? t column).isSome ↔ 0 < n ∧ t[n - 1]? = some '=')) ∧
    (∀ line : Text,
      (Span.along line).Pairwise (fun s s' => s.stop ≤ s'.start) ∧
        ∀ column, (∃ s ∈ Span.along line, s.start ≤ column ∧ column < s.stop) ↔
          '=' ∈ line.drop column) ∧
    (∀ (s : Session) (b : Buffer) (place : Position),
      (s.notice b place).2 =
        (match b.lines[place.line]? with
        | none => none
        | some line => (Span.before? line place.column).map (·.onLine place.line)) ∧
      ∀ t, (s.notice b place).2 = some t → b.Inside t.start ∧ b.Inside t.stop ∧
        b.slice place.line t.start.column t.stop.column = t.query ++ ['=']) := by
  refine ⟨fun t column => ?_, fun line => ⟨along_disjoint line, exists_along_iff line⟩,
    fun s b place => ?_⟩
  · intro n
    have htake : t.take column = t.take n := List.take_eq_take_min
    exact ⟨htake ▸ Text.cut?_offset t column, htake ▸ before?_eq t column,
      isSome_before?_iff t column⟩
  · rw [notice_snd]
    exact ⟨triggerAt?_eq b place, fun t => inside_triggerAt?⟩

end Session

end Reckoner
