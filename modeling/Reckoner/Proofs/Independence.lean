import Reckoner.Proofs.Acceptance

/-!
# What an event depends on

An event depends on the source that was registered first and on the text before the cursor.
Nothing else has an influence: not what happened before, not a list that is still open, not the
other sources, and of the document neither the text behind the cursor nor the other lines.

* After an event the list that is shown is a function of the first source and the trigger before
  the cursor (`shows_event`).
* That trigger is a function of the cursor and the text before it (`triggerAt?_congr`).
* The sources of a dispatcher are those that were registered, in order, however far each has come
  since (`closed_sources_run`).  If every source was registered with the calculator of its
  settings, it still has it.

`event_agrees` puts these together for two dispatchers and two documents.
-/

namespace Reckoner

/-- Only sources with the calculator of their settings are registered. -/
def Operation.Configured {ε : Type} : Operation ε → Prop
  | .register settings calculator => calculator = settings.calculator
  | .event _ | .accept _ _ | .dismiss => True

/-- The source that an operation registers, if any. -/
def Operation.registered {ε : Type} : Operation ε → List Session
  | .register settings calculator => [⟨settings, calculator, .idle⟩]
  | .event _ | .accept _ _ | .dismiss => []

namespace Session

theorem close_close (s : Session) : s.close.close = s.close := rfl

/-- What a source puts on show for the trigger before the cursor, as the first of the sources. -/
def offer (s : Session) : Option Trigger → Option Shown
  | none => none
  | some t => (s.calculator.resolve t.query).map fun answer => ⟨0, t, [⟨t.query, answer⟩]⟩

/-- The trigger before the cursor is read off the text before the cursor. -/
theorem triggerAt?_congr {b c : Buffer} (hcursor : b.cursor = c.cursor)
    (hbefore : (b.line b.cursor.line).take b.cursor.column =
      (c.line c.cursor.line).take c.cursor.column) :
    triggerAt? b b.cursor = triggerAt? c c.cursor := by
  have hslice : Editor.slice b b.cursor.line 0 b.cursor.column =
      Editor.slice c c.cursor.line 0 c.cursor.column := hbefore
  rw [triggerAt?, triggerAt?, hslice, hcursor]

end Session

namespace Dispatcher

variable {ε ε' : Type} [Editor ε] [Editor ε']

/-! ## What is shown after an event -/

/-- After an event the list is what the first source puts on show, and that source renders it. -/
theorem shows_event {d : Dispatcher} (hd : d.Consistent) {first : Session}
    (hfirst : d.sources.head? = some first) (e : ε) :
    (d.event e).shown = first.offer (Session.triggerAt? e (Editor.cursor e)) ∧
      (d.event e).rendered = (d.event e).suggestions.map first.render := by
  obtain ⟨rest, hsources⟩ := List.head?_eq_some_iff.1 hfirst
  cases ht : Session.triggerAt? e (Editor.cursor e) with
  | none =>
    rw [event_of_none hd ht]
    exact ⟨rfl, rfl⟩
  | some t =>
    rw [event_of_trigger hd hsources ht, Session.offer]
    cases first.calculator.resolve t.query with
    | none => exact ⟨rfl, rfl⟩
    | some answer => exact ⟨rfl, rfl⟩

/-! ## The sources of a run -/

theorem closed_sources_ask (e : ε) (sources : List Session) :
    (ask e sources).1.map Session.close = sources.map Session.close := by
  cases ht : Session.triggerAt? e (Editor.cursor e) with
  | none =>
    rw [ask_eq_none ht, List.map_map]
    rfl
  | some t =>
    cases sources with
    | nil => rfl
    | cons s rest =>
      cases ha : s.calculator.resolve t.query with
      | none => rw [ask_cons_none ht ha]; rfl
      | some answer => rw [ask_cons_some ht ha]; rfl

theorem closed_sources_accept (d : Dispatcher) (index : Nat) (active : Option ε) :
    (d.accept index active).1.sources.map Session.close = d.sources.map Session.close := by
  unfold accept
  split
  · rfl
  · next shown hshown =>
    split
    · next item s hitem hs =>
      obtain ⟨howner, rfl⟩ := List.getElem?_eq_some_iff.1 hs
      simp only [Session.accept_fst, List.map_set, Session.close_close]
      rw [← List.getElem_map Session.close (h := by simpa using howner), List.set_getElem_self]
    · exact d.closed_sources_dismiss

/-- An operation adds the source that it registers at the end. -/
theorem closed_sources_perform (d : Dispatcher) (op : Operation ε) :
    (d.perform op).sources.map Session.close = d.sources.map Session.close ++ op.registered := by
  cases op with
  | register settings calculator => exact List.map_append
  | event e =>
    rw [Operation.registered, List.append_nil, perform, event, closed_sources_ask,
      closed_sources_dismiss]
  | accept index active =>
    rw [Operation.registered, List.append_nil, perform, closed_sources_accept]
  | dismiss => rw [Operation.registered, List.append_nil, perform, closed_sources_dismiss]

/-- The sources of a dispatcher are those that were registered, in order. -/
theorem closed_sources_run (d : Dispatcher) (ops : List (Operation ε)) :
    (d.run ops).sources.map Session.close =
      d.sources.map Session.close ++ ops.flatMap Operation.registered := by
  induction ops generalizing d with
  | nil => simp
  | cons op ops ih =>
    rw [run_cons, ih, closed_sources_perform, List.flatMap_cons, List.append_assoc]

/-- The first source of a dispatcher is the one that was registered first. -/
theorem exists_head?_run (ops : List (Operation ε)) {s : Session}
    (h : (ops.flatMap Operation.registered).head? = some s) :
    ∃ first, (empty.run ops).sources.head? = some first ∧ first.close = s := by
  have hclosed := closed_sources_run empty ops
  rw [show empty.sources.map Session.close = [] from rfl, List.nil_append] at hclosed
  rwa [← hclosed, List.head?_map, Option.map_eq_some_iff] at h

/-- A source that was registered with the calculator of its settings still has it. -/
theorem calculator_of_configured {ops : List (Operation ε)} (hops : ∀ op ∈ ops, op.Configured)
    {s : Session} (hs : s ∈ (empty.run ops).sources) : s.calculator = s.settings.calculator := by
  have hclosed : s.close ∈ ops.flatMap Operation.registered := by
    have hmem := List.mem_map_of_mem (f := Session.close) hs
    rwa [closed_sources_run] at hmem
  obtain ⟨op, hop, hregistered⟩ := List.mem_flatMap.1 hclosed
  cases op with
  | register settings calculator =>
    have hconfigured : calculator = settings.calculator := hops _ hop
    have heq : s.close = ⟨settings, calculator, .idle⟩ := List.mem_singleton.1 hregistered
    calc s.calculator = s.close.calculator := rfl
      _ = s.close.settings.calculator := by rw [heq, hconfigured]
  | event e => cases hregistered
  | accept index active => cases hregistered
  | dismiss => cases hregistered

/-! ## Two dispatchers -/

/-- Two dispatchers after any runs, each with a source, and an event in each.  The sources that
were registered first have the same settings, and they have the same calculator, for instance
because every source was registered with the calculator of its settings.  The cursors of the two
documents agree, and so does the text before them.  Then the same suggestions are shown after the
two events, for the same trigger, and they are rendered in the same way. -/
theorem event_agrees (ops : List (Operation ε)) (others : List (Operation ε'))
    {first other : Session} (hfirst : (empty.run ops).sources.head? = some first)
    (hother : (empty.run others).sources.head? = some other)
    (hsettings : first.settings = other.settings)
    (hcalculators : first.calculator = other.calculator ∨
      (∀ op ∈ ops, op.Configured) ∧ ∀ op ∈ others, op.Configured)
    {b c : Buffer} (hcursor : b.cursor = c.cursor)
    (hbefore : (b.line b.cursor.line).take b.cursor.column =
      (c.line c.cursor.line).take c.cursor.column) :
    let d := (empty.run ops).event b
    let d' := (empty.run others).event c
    d.suggestions = d'.suggestions ∧ d.rendered = d'.rendered ∧ d.trigger? = d'.trigger? := by
  intro d d'
  have hd := consistent_run ops
  have hd' := consistent_run others
  have hcalculator : first.calculator = other.calculator := by
    rcases hcalculators with h | ⟨hops, hothers⟩
    · exact h
    · rw [calculator_of_configured hops (List.mem_of_head? hfirst),
        calculator_of_configured hothers (List.mem_of_head? hother), hsettings]
  obtain ⟨hshown, hrendered⟩ := shows_event hd hfirst b
  obtain ⟨hshown', hrendered'⟩ := shows_event hd' hother c
  have hsame : d.shown = d'.shown := by
    calc d.shown = first.offer (Session.triggerAt? b b.cursor) := hshown
      _ = other.offer (Session.triggerAt? c c.cursor) := by
        rw [Session.triggerAt?_congr hcursor hbefore]
        unfold Session.offer
        rw [hcalculator]
      _ = d'.shown := hshown'.symm
  have hsuggestions : d.suggestions = d'.suggestions := by rw [suggestions, hsame, suggestions]
  have hrender : first.render = other.render := by
    funext item
    rw [Session.render, hsettings, Session.render]
  refine ⟨hsuggestions, ?_, by rw [trigger?, hsame, trigger?]⟩
  calc d.rendered = d.suggestions.map first.render := hrendered
    _ = d'.suggestions.map other.render := by rw [hsuggestions, hrender]
    _ = d'.rendered := hrendered'.symm

/-- A list that is open and a second source on one side, an accepted value on the other, and
documents that differ behind the cursor and in their other lines. -/
theorem event_agrees_history :
    let settings : Settings := { renderPrefix := "> ".toList }
    let ops : List (Operation Buffer) := [.register settings settings.calculator,
      .register .default Settings.default.calculator, .event (.ofTextAtEnd "2*3=".toList)]
    let others : List (Operation Buffer) := [.register settings settings.calculator,
      .event (.ofTextAtEnd "7=".toList), .accept 0 none]
    let b : Buffer := ⟨["up".toList, "so 1+1=1".toList], ⟨1, 7⟩⟩
    let c : Buffer := ⟨["5=".toList, "so 1+1= and on".toList, []], ⟨1, 7⟩⟩
    (∀ op ∈ ops, op.Configured) ∧ (∀ op ∈ others, op.Configured) ∧
      ((empty.run ops).event b).rendered = ["> 2".toList] ∧
      ((empty.run others).event c).rendered = ["> 2".toList] := by
  intro settings ops others b c
  have hops : ∀ op ∈ ops, op.Configured := by simp [ops, Operation.Configured]
  have hothers : ∀ op ∈ others, op.Configured := by simp [others, Operation.Configured]
  obtain ⟨first, hfirst, hclose⟩ := exists_head?_run (s := ⟨settings, settings.calculator, .idle⟩)
    ops rfl
  obtain ⟨other, hother, hclose'⟩ :=
    exists_head?_run (s := ⟨settings, settings.calculator, .idle⟩) others rfl
  have hsettings : first.close.settings = other.close.settings := by rw [hclose, hclose']
  obtain ⟨-, hrendered, -⟩ := event_agrees ops others hfirst hother hsettings
    (.inr ⟨hops, hothers⟩) (b := b) (c := c) rfl (by decide)
  have hshown : ((empty.run others).event c).rendered = ["> 2".toList] := by decide +kernel
  exact ⟨hops, hothers, hrendered.trans hshown, hshown⟩

end Dispatcher

end Reckoner
