import Reckoner.Proofs.Editing
import Reckoner.Proofs.Independence

/-!
# Typing character by character

A user types one character at a time, and the host reports every one of them.  Lists open and
close on the way, one at each `=`.  None of that is left at the end: the document and the
dispatcher are those of a text that is typed at once and reported once.

* Typing goes on where it stopped: the cursor stands behind what was typed, in columns, wherever
  in the line it is (`type_append`).
* An event leaves nothing of an event before it.  It closes the list that is shown, and asks the
  sources afresh (`event_event`).

`keys_of_consistent` follows by induction on the text, and `keys_run` states it for everything
that runs lead to.
-/

namespace Reckoner

namespace Buffer

/-- Typing at a cursor inside the document splices its line. -/
theorem type_eq {b : Buffer} {line : Text} (hline : b.lines[b.cursor.line]? = some line)
    (hcolumn : b.cursor.column ≤ line.length) (t : Text) :
    b.type t = ⟨b.lines.set b.cursor.line (spliced line b.cursor.column t),
      ⟨b.cursor.line, b.cursor.column + t.length⟩⟩ := by
  rw [type, insert_eq_ok hline hcolumn]

/-- Typing two texts one after the other is typing them at once. -/
theorem type_append {b : Buffer} (h : b.Inside b.cursor) (s t : Text) :
    b.type (s ++ t) = (b.type s).type t := by
  obtain ⟨line, hline, hcolumn⟩ := inside_iff.1 h
  have hnew : (b.lines.set b.cursor.line (spliced line b.cursor.column s))[b.cursor.line]? =
      some (spliced line b.cursor.column s) := List.getElem?_set_self h.line_lt
  have hinside : b.cursor.column + s.length ≤ (spliced line b.cursor.column s).length := by
    rw [length_spliced]
    exact Nat.add_le_add_right hcolumn _
  rw [type_eq hline hcolumn, type_eq hline hcolumn, type_eq hnew hinside]
  simp only [List.set_set, spliced_spliced hcolumn, List.length_append, Nat.add_assoc]

end Buffer

namespace Dispatcher

/-- Types one character and reports it. -/
def key (p : Dispatcher × Buffer) (c : Char) : Dispatcher × Buffer :=
  let typed := p.2.type [c]
  (p.1.event typed, typed)

/-- Types a text character by character, and reports each of them. -/
def keys (d : Dispatcher) (b : Buffer) (t : Text) : Dispatcher × Buffer := t.foldl key (d, b)

@[simp] theorem keys_nil (d : Dispatcher) (b : Buffer) : d.keys b [] = (d, b) := rfl

@[simp] theorem keys_cons (d : Dispatcher) (b : Buffer) (c : Char) (t : Text) :
    d.keys b (c :: t) = (d.event (b.type [c])).keys (b.type [c]) t := rfl

variable {ε ε' : Type} [Editor ε] [Editor ε']

/-- To an event two dispatchers with the same sources are the same, however far each source has
come. -/
theorem event_congr {d d' : Dispatcher} (hd : d.Consistent) (hd' : d'.Consistent)
    (h : d.sources.map Session.close = d'.sources.map Session.close) (e : ε) :
    d.event e = d'.event e := by
  rw [event, event, sources_dismiss hd, sources_dismiss hd', h]

/-- An event leaves nothing of an event before it. -/
theorem event_event {d : Dispatcher} (hd : d.Consistent) (e : ε') (e' : ε) :
    (d.event e).event e' = d.event e' := by
  refine event_congr (consistent_event hd e) hd ?_ e'
  have hsources := closed_sources_perform d (.event e)
  rwa [Operation.registered, List.append_nil] at hsources

/-- Of a text that is typed character by character the last event is left, and every character. -/
theorem keys_of_consistent {d : Dispatcher} (hd : d.Consistent) {b : Buffer}
    (hb : b.Inside b.cursor) {t : Text} (ht : t ≠ []) :
    d.keys b t = (d.event (b.type t), b.type t) := by
  induction t generalizing d b with
  | nil => exact absurd rfl ht
  | cons c t ih =>
    rw [keys_cons]
    cases t with
    | nil => rfl
    | cons next t =>
      have hinside : (b.type [c]).Inside (b.type [c]).cursor :=
        Buffer.inside_cursor_perform hb (.type [c])
      have hrest := ih (consistent_event hd (b.type [c])) hinside (List.cons_ne_nil next t)
      rw [hrest, event_event hd, ← Buffer.type_append hb]
      rfl

/-- A text typed character by character, with an event after each, into any document that edits
lead to, with any dispatcher that a run leads to.  The document is that of the text typed at once,
with the same lines and the same cursor.  The dispatcher is that of one event after it: the same
list is open, for the same trigger and with the same suggestions, and every source is in the same
state. -/
theorem keys_run (ops : List (Operation ε)) {start : Buffer} (hstart : start.Fresh)
    (edits : List Edit) {t : Text} (ht : t ≠ []) :
    let d := empty.run ops
    let b := start.run edits
    d.keys b t = (d.event (b.type t), b.type t) :=
  keys_of_consistent (consistent_run ops) (Buffer.inside_cursor_run hstart.inside_cursor edits) ht

/-- A list that is open from another document, a place in the middle of a line, and a text that
opens two lists. -/
theorem keys_run_twice :
    let settings := Settings.default
    let ops : List (Operation Buffer) :=
      [.register settings settings.calculator, .event (.ofTextAtEnd "6=".toList)]
    let d := empty.run ops
    let b := (Buffer.ofText "up\n2 * π 7".toList).run [.setCursor ⟨1, 5⟩]
    d.rendered = ["↵ 6".toList] ∧
      (d.keys b "=1+1=".toList).1.rendered = ["↵ 2".toList] ∧
      (d.keys b "=1+1=".toList).2 = ⟨["up".toList, "2 * π=1+1= 7".toList], ⟨1, 10⟩⟩ := by
  intro settings ops d b
  have hkeys := keys_run ops (.ofText "up\n2 * π 7".toList) [.setCursor ⟨1, 5⟩]
    (t := "=1+1=".toList) (by decide)
  have htyped : b.type "=1+1=".toList = ⟨["up".toList, "2 * π=1+1= 7".toList], ⟨1, 10⟩⟩ := by
    decide +kernel
  refine ⟨by decide +kernel, ?_, ?_⟩
  · rw [show d.keys b "=1+1=".toList = _ from hkeys]
    decide +kernel
  · rw [show d.keys b "=1+1=".toList = _ from hkeys]
    exact htyped

end Dispatcher

end Reckoner
