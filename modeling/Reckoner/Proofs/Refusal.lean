import Reckoner.Proofs.Acceptance
import Reckoner.Proofs.Editing

/-!
# Accepting at a place outside the document

A session remembers the place behind its trigger.  When a suggestion is accepted the document may
be another one, or shorter, and the host may have given a trigger of its own, so the place may be
outside.  Then the insertion is refused, and no line changes.

The cursor is moved all the same, to the place where it would stand behind the inserted text, or
the nearest one in the document (`insertAnswer_of_not_inside`).  So an acceptance changes the
lines completely or not at all, and the document as a whole stays as it was only if the cursor
already stands there.
-/

namespace Reckoner

namespace Buffer

/-- Outside the document nothing is inserted. -/
theorem insertIfPossible_of_not_inside {b : Buffer} {place : Position} (h : ¬ b.Inside place)
    (t : Text) : b.insertIfPossible place t = b := by
  rw [insertIfPossible]
  cases hinsert : b.insert place t with
  | error e => rfl
  | ok changed =>
    obtain ⟨line, hline, hcolumn, -⟩ := insert_inv hinsert
    exact absurd (inside_iff.2 ⟨line, hline, hcolumn⟩) h

theorem setCursor_eq_self_iff {b : Buffer} {place : Position} :
    b.setCursor place = b ↔ b.nearest place = b.cursor := by
  constructor
  · intro h
    exact congrArg Buffer.cursor h
  · intro h
    rw [setCursor, h]

end Buffer

namespace Session

theorem accept_of_trigger {s : Session} {t : Trigger} (h : s.state.trigger? = some t)
    (item : Suggestion) (b : Buffer) :
    s.accept item (some b) = (s.close, some (s.insertAnswer t item b)) := by
  rw [accept, h]
  rfl

/-- Where nothing can be inserted the cursor is set. -/
theorem insertAnswer_of_not_inside (s : Session) {t : Trigger} (item : Suggestion) {b : Buffer}
    (h : ¬ b.Inside t.stop) :
    s.insertAnswer t item b =
      b.setCursor (t.stop.advance (item.after s.settings.insertPrefix).length) := by
  show (b.insertIfPossible t.stop _).setCursor _ = _
  rw [Buffer.insertIfPossible_of_not_inside h]

/-- A session with a trigger accepts a suggestion into a document.  If the place behind the trigger
is inside the document the text is inserted there, and the cursor stands behind it.  The column of
the cursor is a word of 64 bits, and every line that fits into memory is short enough for it.

Otherwise the lines stay as they are.  The cursor goes to the place where it would stand behind the
text, with a column that starts again from zero at `2^64`, or to the nearest place in the document.
So the document is left as it was exactly if its cursor stands at that place already. -/
theorem accept_all_or_cursor {s : Session} {t : Trigger} (h : s.state.trigger? = some t)
    (item : Suggestion) (b : Buffer) :
    let inserted := s.settings.insertPrefix ++ item.answer.display
    let behind : Position := ⟨t.stop.line, (t.stop.column + inserted.length) % columnBound⟩
    ∃ changed, (s.accept item (some b)).2 = some changed ∧
      (∀ line, b.lines[t.stop.line]? = some line → t.stop.column ≤ line.length →
        changed.lines = b.lines.set t.stop.line
          (line.take t.stop.column ++ inserted ++ line.drop t.stop.column) ∧
        (line.length + inserted.length < columnBound →
          changed.cursor = ⟨t.stop.line, t.stop.column + inserted.length⟩)) ∧
      (¬ b.Inside t.stop →
        changed.lines = b.lines ∧ changed.cursor = b.nearest behind ∧
          (changed = b ↔ b.nearest behind = b.cursor)) := by
  intro inserted behind
  refine ⟨s.insertAnswer t item b, congrArg Prod.snd (accept_of_trigger h item b),
    fun line hline hcolumn => s.insertAnswer_buffer t item hline hcolumn, fun houtside => ?_⟩
  rw [s.insertAnswer_of_not_inside item houtside]
  exact ⟨rfl, rfl, Buffer.setCursor_eq_self_iff⟩

/-- A suggestion for a trigger in the middle of a line, and in a document without that line, whose
cursor stands where it would be moved to. -/
theorem accept_all_or_cursor_middle :
    let t : Trigger := ⟨⟨1, 0⟩, ⟨1, 4⟩, "π+1".toList⟩
    let s : Session := (Session.ofSettings .default).withState (.triggered t)
    let item : Suggestion := ⟨t.query, .number 2⟩
    let b : Buffer := ⟨["é".toList, "π+1=;".toList], ⟨0, 0⟩⟩
    let short : Buffer := ⟨["é".toList], ⟨0, 1⟩⟩
    s.state.trigger? = some t ∧
      (s.accept item (some b)).2 = some ⟨["é".toList, "π+1= 2;".toList], ⟨1, 6⟩⟩ ∧
      (s.accept item (some short)).2 = some short := by
  intro t s item b short
  have hdisplay : item.answer.display = ['2'] := by decide +kernel
  have htrigger : s.state.trigger? = some t := rfl
  obtain ⟨⟨lines, cursor⟩, haccept, hinside, -⟩ := accept_all_or_cursor htrigger item b
  obtain ⟨hlines, hcursor⟩ := hinside "π+1=;".toList rfl (by decide)
  rw [hdisplay] at hlines hcursor
  obtain ⟨changed, haccept', -, houtside⟩ := accept_all_or_cursor htrigger item short
  rw [hdisplay] at houtside
  have hrefused : ¬ short.Inside t.stop := fun h => absurd h.line_lt (by decide)
  refine ⟨rfl, ?_, ?_⟩
  · rw [haccept, show lines = _ from hlines, show cursor = _ from hcursor (by decide)]
    rfl
  · rw [haccept', (houtside hrefused).2.2.2 (by decide)]

/-- In another document nothing is inserted, but the cursor moves. -/
theorem accept_moves_cursor :
    let t : Trigger := ⟨⟨0, 0⟩, ⟨0, 4⟩, "1+1".toList⟩
    let s : Session := (Session.ofSettings .default).withState (.triggered t)
    let b : Buffer := ⟨["ab".toList, "cd".toList], ⟨0, 0⟩⟩
    s.state.trigger? = some t ∧ ¬ b.Inside t.stop ∧
      (s.accept ⟨t.query, .number 2⟩ (some b)).2 = some { b with cursor := ⟨0, 2⟩ } := by
  refine ⟨rfl, fun h => ?_, by decide +kernel⟩
  exact absurd h.column_le (by decide)

end Session

end Reckoner
