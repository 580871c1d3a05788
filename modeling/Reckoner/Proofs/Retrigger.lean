import Reckoner.Proofs.Characters
import Reckoner.Proofs.Display

/-!
# An accepted value does not trigger

A query has no `=`, and no value has an `=` that was not in the query (`eq_not_mem_display`).  So
text that is inserted behind a query ends in `=` only if the text in front of the value does and
the value is empty.  The cursor stands at the end of what was inserted, so the next event finds no
trigger there (`event_after_accept`).

Nothing is asked of the dispatcher but its first source, and nothing of the buffer: a list that an
event opens is for a query in front of the cursor, and the place behind that query is inside the
buffer (`triggerAt?_inv`).
-/

namespace Reckoner

/-- A value that a query without `=` resolves to is displayed without `=`. -/
theorem Calculator.eq_not_mem_display {c : Calculator} {query : Text} {answer : Answer}
    (h : c.resolve query = some answer) (hquery : '=' ∉ query) : '=' ∉ answer.display := by
  cases answer with
  | number x => exact not_mem_display x rfl (by decide)
  | text t =>
    intro hmem
    rcases mem_of_resolve_text h hmem (by decide) with hmem | hscan
    · exact hquery hmem
    · exact absurd hscan (by decide)

/-- What is inserted ends in `=` only if the text in front of the value does. -/
theorem Suggestion.getLast?_after {item : Suggestion} (h : '=' ∉ item.answer.display) {lead : Text}
    (hlead : lead.getLast? ≠ some '=') : (item.after lead).getLast? ≠ some '=' := by
  rw [after, List.getLast?_append]
  cases hlast : item.answer.display.getLast? with
  | none => exact hlead
  | some c =>
    intro heq
    cases heq
    exact h (List.mem_of_getLast? hlast)

namespace Session

/-- A trigger in a buffer is a query in front of a place, on a line of the buffer. -/
theorem triggerAt?_inv {b : Buffer} {place : Position} {t : Trigger}
    (h : triggerAt? b place = some t) :
    ∃ line, b.lines[place.line]? = some line ∧ EndsInQuery (line.take place.column) t.query ∧
      t.stop = ⟨place.line, min place.column line.length⟩ := by
  obtain ⟨s, hs, rfl⟩ := Option.map_eq_some_iff.1 h
  cases hline : b.lines[place.line]? with
  | none =>
    have hslice : Editor.slice b place.line 0 place.column = [] := by
      show b.slice place.line 0 place.column = []
      simp [Buffer.slice, Buffer.line, hline]
    rw [hslice] at hs
    cases hs
  | some line =>
    have hslice : Editor.slice b place.line 0 place.column = line.take place.column :=
      Buffer.slice_zero hline _
    rw [hslice] at hs
    obtain ⟨q, hq, rfl⟩ := atEnd?_inv hs
    exact ⟨line, rfl, hq, by rw [Span.onLine, List.length_take]⟩

theorem withState_of_close_eq {s s' : Session} (h : s.close = s'.close) (state : SessionState) :
    s.withState state = s'.withState state := by
  show s.close.withState state = s'.close.withState state
  rw [h]

/-- Text that does not end in `=`, inserted behind a query, leaves no trigger in front of the
cursor. -/
theorem triggerAt?_insertAnswer (s : Session) (t : Trigger) (item : Suggestion) {b : Buffer}
    {line : Text} (hline : b.lines[t.stop.line]? = some line)
    (hcolumn : t.stop.column ≤ line.length)
    (hne : item.after s.settings.insertPrefix ≠ [])
    (hlast : (item.after s.settings.insertPrefix).getLast? ≠ some '=')
    (hbound : ((s.insertAnswer t item b).line t.stop.line).length < columnBound) :
    triggerAt? (s.insertAnswer t item b) (s.insertAnswer t item b).cursor = none := by
  have hlength : ((s.insertAnswer t item b).line t.stop.line).length =
      line.length + (item.after s.settings.insertPrefix).length := by
    have hlt : t.stop.line < b.lines.length := (List.getElem?_eq_some_iff.1 hline).1
    rw [Buffer.line, (s.insertAnswer_buffer t item hline hcolumn).1, List.getElem?_set_self hlt,
      Option.getD_some, Buffer.length_spliced]
  rw [hlength] at hbound
  obtain ⟨hnew, hcursor⟩ := s.insertAnswer_cursor t item hline hcolumn hbound
  refine triggerAt?_cursor_eq_none hnew fun q hq => hlast ?_
  have hend := getLast?_of_endsInQuery hq
  rw [hcursor, (Buffer.take_spliced hcolumn _).1, List.getLast?_append] at hend
  cases hinserted : (item.after s.settings.insertPrefix).getLast? with
  | none => exact absurd (List.getLast?_eq_none_iff.1 hinserted) hne
  | some c => rwa [hinserted] at hend

end Session

namespace Dispatcher

variable {ε : Type} [Editor ε]

theorem shown_event_of_none (d : Dispatcher) {e : ε}
    (h : Session.triggerAt? e (Editor.cursor e) = none) : (d.event e).shown = none := by
  rw [event, ask_eq_none h]

/-- A list that an event opens, whatever came before, is for a trigger in front of the cursor that
the first source resolves. -/
theorem event_of_shown {d : Dispatcher} {first : Session} (hfirst : d.sources.head? = some first)
    {e : ε} (h : (d.event e).shown.isSome) :
    ∃ t answer rest, Session.triggerAt? e (Editor.cursor e) = some t ∧
      first.calculator.resolve t.query = some answer ∧
      d.event e = ⟨first.withState (.resolved t ⟨t.query, answer⟩) :: rest,
        some ⟨0, t, [⟨t.query, answer⟩]⟩⟩ := by
  have hhead : d.dismiss.sources.head?.map Session.close = some first.close := by
    rw [← List.head?_map, closed_sources_dismiss, List.head?_map, hfirst]
    rfl
  obtain ⟨s, hs, hclose⟩ := Option.map_eq_some_iff.1 hhead
  obtain ⟨rest, hsources⟩ := List.head?_eq_some_iff.1 hs
  have hcalculator : s.calculator = first.calculator :=
    show s.close.calculator = first.close.calculator from congrArg Session.calculator hclose
  cases ht : Session.triggerAt? e (Editor.cursor e) with
  | none =>
    rw [d.shown_event_of_none ht] at h
    cases h
  | some t =>
    cases ha : s.calculator.resolve t.query with
    | none =>
      rw [event, hsources, ask_cons_none ht ha] at h
      cases h
    | some answer =>
      refine ⟨t, answer, rest, rfl, hcalculator ▸ ha, ?_⟩
      rw [event, hsources, ask_cons_some ht ha, Session.withState_of_close_eq hclose]

/-- Let the first source put some text in front of a value, and let that text not end in `=`.
After an event that opens a list the first suggestion is accepted, and the next event opens none.
The column of the cursor is a word of 64 bits, and every line that fits into memory is short
enough for it.  A value that the query of a trigger resolves to is displayed without `=`, whatever
the constants are. -/
theorem event_after_accept {d : Dispatcher} {first : Session}
    (hfirst : d.sources.head? = some first) (hlead : first.settings.insertPrefix ≠ [])
    (hlast : first.settings.insertPrefix.getLast? ≠ some '=') {b : Buffer}
    (hshown : (d.event b).shown.isSome) :
    (∃ after changed, (d.event b).accept 0 (some b) = (after, some changed, true) ∧
      ((changed.line b.cursor.line).length < columnBound →
        (after.event changed).suggestions = [] ∧ (after.event changed).trigger? = none)) ∧
    ∀ (c : Calculator) (t : Text) (s : Span) (answer : Answer), Span.atEnd? t = some s →
      c.resolve s.query = some answer → '=' ∉ answer.display := by
  refine ⟨?_, fun c t s answer hs hanswer => ?_⟩
  · obtain ⟨t, answer, rest, htrigger, hanswer, hevent⟩ := event_of_shown hfirst hshown
    obtain ⟨line, hline, hquery, hstop⟩ := Session.triggerAt?_inv htrigger
    generalize hitem : (⟨t.query, answer⟩ : Suggestion) = item at hevent
    have haccept : (d.event b).accept 0 (some b) =
        (⟨first.close :: rest, none⟩, some (first.insertAnswer t item b), true) := by
      rw [hevent]
      rfl
    refine ⟨_, _, haccept, fun hbound => ?_⟩
    have hdisplay : '=' ∉ item.answer.display := by
      rw [← hitem]
      exact Calculator.eq_not_mem_display hanswer hquery.eq_not_mem
    have hplace : b.lines[t.stop.line]? = some line := by rwa [hstop]
    have hnone := first.triggerAt?_insertAnswer t item hplace
      (by rw [hstop]; exact Nat.min_le_right _ _)
      (List.append_ne_nil_of_left_ne_nil hlead _) (Suggestion.getLast?_after hdisplay hlast)
      (by rwa [hstop])
    rw [suggestions, trigger?, shown_event_of_none _ hnone]
    exact ⟨rfl, rfl⟩
  · obtain ⟨q, hq, rfl⟩ := atEnd?_inv hs
    exact Calculator.eq_not_mem_display hanswer hq.eq_not_mem

/-- An empty text is inserted as a space. -/
theorem event_after_accept_emptyText :
    let d := empty.register (.ofSettings .default)
    let b : Buffer := ⟨["v=\"\"=;".toList], ⟨0, 5⟩⟩
    (d.event b).suggestions.map (fun item => item.answer.display) = [[]] ∧
      ∃ after changed, (d.event b).accept 0 (some b) = (after, some changed, true) ∧
        changed = ⟨["v=\"\"= ;".toList], ⟨0, 6⟩⟩ ∧
        (after.event changed).suggestions = [] ∧ (after.event changed).trigger? = none := by
  intro d b
  have hdisplay : (d.event b).suggestions.map (fun item => item.answer.display) = [[]] := by
    decide +kernel
  have hchanged : ((d.event b).accept 0 (some b)).2 =
      (some ⟨["v=\"\"= ;".toList], ⟨0, 6⟩⟩, true) := by decide +kernel
  have hfirst : d.sources.head? = some (.ofSettings .default) := rfl
  have hshown : (d.event b).shown.isSome := by decide +kernel
  obtain ⟨⟨after, changed, haccept, hquiet⟩, -⟩ :=
    event_after_accept hfirst (by decide) (by decide) hshown
  rw [haccept] at hchanged
  cases hchanged
  exact ⟨hdisplay, after, _, haccept, rfl, hquiet (by decide)⟩

end Dispatcher

end Reckoner
