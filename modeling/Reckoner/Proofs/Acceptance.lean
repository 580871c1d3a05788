import Reckoner.Proofs.Dispatcher
import Reckoner.Proofs.Trigger

/-!
# From an event to an accepted value

An event in a document, and the acceptance of its first suggestion right after it.  What came
before has no influence: dismissal leaves every session as it was registered, so an event
depends on the first session and the text before the cursor alone (`event_of_trigger`,
`event_of_none`).

The text before the cursor ends in a query or it does not, and the first session resolves that
query or it does not.  In the one case where both hold, `accept_after_event` says what is shown,
what is inserted and where the cursor goes.  In every other case nothing is accepted.
-/

namespace Reckoner

namespace Session

theorem close_eq_self {s : Session} (h : s.state = .idle) : s.close = s := by
  cases s
  cases h
  rfl

/-- The trigger before the cursor of a buffer. -/
theorem triggerAt?_cursor {b : Buffer} {line q : Text}
    (hline : b.lines[b.cursor.line]? = some line) (hcolumn : b.cursor.column ≤ line.length)
    (hq : EndsInQuery (line.take b.cursor.column) q) :
    ∃ start, triggerAt? b b.cursor = some ⟨start, b.cursor, q⟩ := by
  have hlength : (line.take b.cursor.column).length = b.cursor.column :=
    List.length_take_of_le hcolumn
  have hslice : Editor.slice b b.cursor.line 0 b.cursor.column = line.take b.cursor.column :=
    Buffer.slice_zero hline _
  refine ⟨⟨b.cursor.line, b.cursor.column - q.length - 1⟩, ?_⟩
  rw [triggerAt?, hslice, atEnd?_of_endsInQuery hq, hlength]
  rfl

theorem triggerAt?_cursor_eq_none {b : Buffer} {line : Text}
    (hline : b.lines[b.cursor.line]? = some line)
    (h : ∀ q, ¬ EndsInQuery (line.take b.cursor.column) q) : triggerAt? b b.cursor = none := by
  have hslice : Editor.slice b b.cursor.line 0 b.cursor.column = line.take b.cursor.column :=
    Buffer.slice_zero hline _
  rw [triggerAt?, hslice, atEnd?_eq_none h]
  rfl

/-- An answer inserted at a place inside a buffer. -/
theorem insertAnswer_buffer (s : Session) (t : Trigger) (item : Suggestion) {b : Buffer}
    {line : Text} (hline : b.lines[t.stop.line]? = some line)
    (hcolumn : t.stop.column ≤ line.length) :
    let inserted := item.after s.settings.insertPrefix
    let changed := s.insertAnswer t item b
    changed.lines = b.lines.set t.stop.line (Buffer.spliced line t.stop.column inserted) ∧
    (line.length + inserted.length < columnBound →
      changed.cursor = ⟨t.stop.line, t.stop.column + inserted.length⟩) := by
  intro inserted changed
  have hinsert := Buffer.insertIfPossible_eq hline hcolumn inserted
  refine ⟨?_, fun hbound => ?_⟩
  · show (b.insertIfPossible t.stop inserted).lines = _
    rw [hinsert]
  · have hadvance : t.stop.advance inserted.length =
        ⟨t.stop.line, t.stop.column + inserted.length⟩ := by
      simp only [Position.advance]
      rw [Nat.mod_eq_of_lt (by omega)]
    have hlt : t.stop.line < b.lines.length := (List.getElem?_eq_some_iff.1 hline).1
    have hnew : (b.lines.set t.stop.line (Buffer.spliced line t.stop.column inserted))[
        t.stop.line]? = some (Buffer.spliced line t.stop.column inserted) := by simp [hlt]
    show (b.insertIfPossible t.stop inserted).nearest (t.stop.advance inserted.length) = _
    rw [hinsert, hadvance]
    refine Buffer.nearest_eq_self hnew ?_
    rw [Buffer.length_spliced]
    exact Nat.add_le_add_right hcolumn _

/-- The cursor stands behind the inserted text, on the line that was spliced. -/
theorem insertAnswer_cursor (s : Session) (t : Trigger) (item : Suggestion) {b : Buffer}
    {line : Text} (hline : b.lines[t.stop.line]? = some line)
    (hcolumn : t.stop.column ≤ line.length)
    (hbound : line.length + (item.after s.settings.insertPrefix).length < columnBound) :
    let inserted := item.after s.settings.insertPrefix
    let changed := s.insertAnswer t item b
    changed.lines[changed.cursor.line]? = some (Buffer.spliced line t.stop.column inserted) ∧
      changed.cursor.column = t.stop.column + inserted.length := by
  intro inserted changed
  obtain ⟨hlines, hcursor⟩ := s.insertAnswer_buffer t item hline hcolumn
  have hcursor : changed.cursor = ⟨t.stop.line, t.stop.column + inserted.length⟩ := hcursor hbound
  refine ⟨?_, congrArg Position.column hcursor⟩
  rw [hcursor, show changed.lines = _ from hlines]
  exact List.getElem?_set_self (List.getElem?_eq_some_iff.1 hline).1

end Session

namespace Dispatcher

variable {ε : Type} [Editor ε]

/-! ## Events after any run -/

theorem closed_sources_dismiss (d : Dispatcher) :
    d.dismiss.sources.map Session.close = d.sources.map Session.close := by
  rw [dismiss]
  split
  · rfl
  · refine List.ext_getElem (by simp) fun i _ _ => ?_
    simp only [List.getElem_map, List.getElem_modify]
    split <;> rfl

theorem sources_dismiss {d : Dispatcher} (hd : d.Consistent) :
    d.dismiss.sources = d.sources.map Session.close := by
  have hidle := (closed_dismiss hd).idle
  have hclose : d.dismiss.sources.map Session.close = d.dismiss.sources :=
    (List.map_congr_left fun s hs => Session.close_eq_self (hidle s hs)).trans (List.map_id _)
  rw [← hclose, closed_sources_dismiss]

/-- Without a trigger before the cursor an event closes the dispatcher. -/
theorem event_of_none {d : Dispatcher} (hd : d.Consistent) {e : ε}
    (h : Session.triggerAt? e (Editor.cursor e) = none) :
    d.event e = ⟨d.sources.map Session.close, none⟩ := by
  rw [event, sources_dismiss hd, ask_eq_none h, List.map_map]
  rfl

/-- With a trigger before the cursor an event asks the first session alone. -/
theorem event_of_trigger {d : Dispatcher} (hd : d.Consistent) {e : ε} {t : Trigger}
    {first : Session} {rest : List Session} (hsources : d.sources = first :: rest)
    (h : Session.triggerAt? e (Editor.cursor e) = some t) :
    d.event e =
      match first.calculator.resolve t.query with
      | some answer =>
          ⟨first.withState (.resolved t ⟨t.query, answer⟩) :: rest.map Session.close,
            some ⟨0, t, [⟨t.query, answer⟩]⟩⟩
      | none => ⟨first.close :: rest.map Session.close, none⟩ := by
  rw [event, sources_dismiss hd, hsources, List.map_cons]
  cases ha : first.calculator.resolve t.query with
  | some answer => rw [ask_cons_some h (s := first.close) ha]; rfl
  | none => rw [ask_cons_none h (s := first.close) ha]; rfl

/-! ## Acceptance right after an event -/

/-- After any run, an event in a buffer with its cursor inside, and acceptance of the first
suggestion in the unchanged buffer.  If the text before the cursor ends in a query that the
session registered first resolves, its answer is shown, it is inserted behind the cursor and
nothing else is changed, and the cursor stands behind it.  The column of the cursor is a word of
64 bits, and every line that fits into memory is short enough for it.  Otherwise nothing is
accepted or changed. -/
theorem accept_after_event (ops : List (Operation ε)) {first : Session}
    (hfirst : (empty.run ops).sources.head? = some first) {b : Buffer} {line : Text}
    (hline : b.lines[b.cursor.line]? = some line) (hcolumn : b.cursor.column ≤ line.length) :
    let before := line.take b.cursor.column
    let behind := line.drop b.cursor.column
    let d := (empty.run ops).event b
    (∀ q answer, EndsInQuery before q → first.calculator.resolve q = some answer →
      let inserted := first.settings.insertPrefix ++ answer.display
      d.rendered = [first.settings.renderPrefix ++ answer.display] ∧
      ∃ changed, (d.accept 0 (some b)).2 = (some changed, true) ∧
        changed.lines = b.lines.set b.cursor.line (before ++ inserted ++ behind) ∧
        ((before ++ inserted ++ behind).length < columnBound →
          changed.cursor = ⟨b.cursor.line, b.cursor.column + inserted.length⟩)) ∧
    ((∀ q answer, EndsInQuery before q → first.calculator.resolve q ≠ some answer) →
      (d.accept 0 (some b)).2 = (some b, false)) := by
  intro before behind d
  have hd := consistent_run ops
  obtain ⟨rest, hsources⟩ : ∃ rest, (empty.run ops).sources = first :: rest :=
    List.head?_eq_some_iff.1 hfirst
  refine ⟨fun q answer hq hanswer => ?_, fun hnone => ?_⟩
  · intro inserted
    obtain ⟨start, htrigger⟩ := Session.triggerAt?_cursor hline hcolumn hq
    have hevent : d = ⟨first.withState (.resolved ⟨start, b.cursor, q⟩ ⟨q, answer⟩) ::
        rest.map Session.close, some ⟨0, ⟨start, b.cursor, q⟩, [⟨q, answer⟩]⟩⟩ := by
      have heq := event_of_trigger hd hsources htrigger
      simpa only [hanswer] using heq
    have hlength : (before ++ inserted ++ behind).length = line.length + inserted.length :=
      Buffer.length_spliced line b.cursor.column inserted
    obtain ⟨hlines, hcursor⟩ :=
      first.insertAnswer_buffer ⟨start, b.cursor, q⟩ ⟨q, answer⟩ hline hcolumn
    refine ⟨by rw [hevent]; rfl, first.insertAnswer ⟨start, b.cursor, q⟩ ⟨q, answer⟩ b,
      by rw [hevent]; rfl, hlines, fun hbound => hcursor ?_⟩
    rwa [hlength] at hbound
  · have hclosed : d.shown = none := by
      by_cases hq : ∃ q, EndsInQuery before q
      · obtain ⟨q, hq⟩ := hq
        obtain ⟨start, htrigger⟩ := Session.triggerAt?_cursor hline hcolumn hq
        have hresolve : first.calculator.resolve q = none :=
          Option.eq_none_iff_forall_ne_some.2 fun answer => hnone q answer hq
        have heq := event_of_trigger hd hsources htrigger
        simp only [hresolve] at heq
        exact congrArg Dispatcher.shown heq
      · have htrigger := Session.triggerAt?_cursor_eq_none hline fun q h => hq ⟨q, h⟩
        exact congrArg Dispatcher.shown (event_of_none hd htrigger)
    rw [accept, hclosed]

/-- A constant in front of a digit, in the middle of a line of its own. -/
theorem accept_after_event_circle :
    let settings := Settings.default
    let b : Buffer := ⟨["up".toList, "r 2 * π=7".toList], ⟨1, 8⟩⟩
    let d := (empty.run [Operation.register (ε := Buffer) settings settings.calculator]).event b
    d.rendered = ["↵ 6.283185307179586".toList] ∧
    (d.accept 0 (some b)).2 =
      (some ⟨["up".toList, "r 2 * π= 6.2831853071795867".toList], ⟨1, 26⟩⟩, true) := by
  intro settings b d
  have hdisplay : (settings.calculator.resolve "r 2 * π".toList).map Answer.display =
      some "6.283185307179586".toList := by decide +kernel
  obtain ⟨answer, hresolve, hanswer⟩ := Option.map_eq_some_iff.1 hdisplay
  have hquery : EndsInQuery "r 2 * π=".toList "r 2 * π".toList :=
    ⟨[], by decide, by decide, .inl rfl⟩
  have hline : b.lines[b.cursor.line]? = some "r 2 * π=7".toList := rfl
  obtain ⟨hrendered, ⟨lines, cursor⟩, haccept, hlines, hcursor⟩ :=
    (accept_after_event [Operation.register (ε := Buffer) settings settings.calculator] rfl
      hline (by decide)).1 _ _ hquery hresolve
  rw [hanswer] at hrendered hlines hcursor
  refine ⟨hrendered, haccept.trans ?_⟩
  rw [show lines = _ from hlines, show cursor = _ from hcursor (by decide)]
  rfl

end Dispatcher

end Reckoner
