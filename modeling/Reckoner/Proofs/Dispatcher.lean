import Reckoner.Dispatcher

/-!
# Runs of a dispatcher

The state of a dispatcher is kept in two places: the list that is shown, and the state of each
session.  A dispatcher is *closed* if no list is shown and every session is idle.  It is *open*
if a list of one suggestion is shown, its owner has resolved the trigger of the list to this
suggestion, and every other session is idle.

All sessions look for a trigger in the same way, so only the session registered first is ever
asked for suggestions.  `ask_eq_none`, `ask_cons_some` and `ask_cons_none` say all that asking
can do.

* Registration keeps both kinds of state (`consistent_register`).
* An event leads to either kind (`consistent_event`).
* Acceptance and dismissal lead to a closed dispatcher (`closed_accept`, `closed_dismiss`).

So every run from the empty dispatcher ends in one of the two kinds (`consistent_run`).
-/

namespace Reckoner

/-- What a host does with a dispatcher, in documents of some kind. -/
inductive Operation (ε : Type)
  /-- A new session is registered. -/
  | register (settings : Settings) (calculator : Calculator)
  /-- A document was edited, or its cursor moved. -/
  | event (e : ε)
  /-- The suggestion at an index is taken over into the active document, if there is one. -/
  | accept (index : Nat) (active : Option ε)
  /-- The list is closed. -/
  | dismiss

namespace Dispatcher

variable {ε : Type} [Editor ε]

/-- The dispatcher after an operation. -/
def perform (d : Dispatcher) : Operation ε → Dispatcher
  | .register settings calculator => d.register ⟨settings, calculator, .idle⟩
  | .event e => d.event e
  | .accept index active => (d.accept index active).1
  | .dismiss => d.dismiss

/-- The dispatcher after several operations in order. -/
def run (d : Dispatcher) (ops : List (Operation ε)) : Dispatcher := ops.foldl perform d

@[simp] theorem run_nil (d : Dispatcher) : d.run ([] : List (Operation ε)) = d := rfl

@[simp] theorem run_cons (d : Dispatcher) (op : Operation ε) (ops : List (Operation ε)) :
    d.run (op :: ops) = (d.perform op).run ops := rfl

/-- No event of a run opens a list. -/
def Quiet (d : Dispatcher) : List (Operation ε) → Prop
  | [] => True
  | op :: ops => (∀ e, op = .event e → (d.event e).shown = none) ∧ Quiet (d.perform op) ops

/-! ## The two kinds of state -/

/-- No list is shown, and every session is idle. -/
structure Closed (d : Dispatcher) : Prop where
  /-- No list is shown. -/
  shown_eq : d.shown = none
  /-- Every session is idle. -/
  idle : ∀ s ∈ d.sources, s.state = .idle

/-- A list with one suggestion is shown, and the sessions agree with it. -/
structure Open (d : Dispatcher) (shown : Shown) (item : Suggestion) : Prop where
  /-- The list that is shown. -/
  shown_eq : d.shown = some shown
  /-- The owner is registered. -/
  owner_lt : shown.owner < d.sources.length
  /-- The list has one entry. -/
  items_eq : shown.items = [item]
  /-- The owner has resolved the trigger to this entry. -/
  owner : d.sources[shown.owner].state = .resolved shown.trigger item
  /-- The other sessions are idle. -/
  others : ∀ i (h : i < d.sources.length), i ≠ shown.owner → d.sources[i].state = .idle

/-- A dispatcher is closed or open. -/
def Consistent (d : Dispatcher) : Prop := d.Closed ∨ ∃ shown item, d.Open shown item

theorem closed_empty : empty.Closed := ⟨rfl, by simp [empty]⟩

theorem Consistent.closed_of_shown {d : Dispatcher} (hd : d.Consistent) (h : d.shown = none) :
    d.Closed := by
  rcases hd with hd | ⟨shown, item, hd⟩
  · exact hd
  · simp [hd.shown_eq] at h

theorem Consistent.open_of_shown {d : Dispatcher} {shown : Shown} (hd : d.Consistent)
    (h : d.shown = some shown) : ∃ item, d.Open shown item := by
  rcases hd with hd | ⟨other, item, hd⟩
  · simp [hd.shown_eq] at h
  · obtain rfl : other = shown := Option.some.inj (hd.shown_eq.symm.trans h)
    exact ⟨item, hd⟩

/-! ## Asking the sessions -/

/-- Without a trigger before the cursor every session is asked and becomes idle. -/
theorem ask_eq_none {e : ε} (h : Session.triggerAt? e (Editor.cursor e) = none)
    (sources : List Session) : ask e sources = (sources.map Session.close, none) := by
  induction sources with
  | nil => rfl
  | cons s rest ih => simp [ask, Session.notice, h, ih]

/-- With a trigger that it can resolve, the first session owns the new list. -/
theorem ask_cons_some {e : ε} {t : Trigger} {s : Session} {answer : Answer}
    (h : Session.triggerAt? e (Editor.cursor e) = some t)
    (ha : s.calculator.resolve t.query = some answer) (rest : List Session) :
    ask e (s :: rest) =
      (s.withState (.resolved t ⟨t.query, answer⟩) :: rest,
        some ⟨0, t, [⟨t.query, answer⟩]⟩) := by
  simp [ask, Session.notice, Session.suggest, Session.withState, h, ha]

/-- With a trigger that it cannot resolve, the first session ends the search all the same. -/
theorem ask_cons_none {e : ε} {t : Trigger} {s : Session}
    (h : Session.triggerAt? e (Editor.cursor e) = some t)
    (ha : s.calculator.resolve t.query = none) (rest : List Session) :
    ask e (s :: rest) = (s.close :: rest, none) := by
  simp [ask, Session.notice, Session.suggest, Session.withState, Session.close, h, ha]

/-! ## What the operations keep -/

theorem closed_dismiss {d : Dispatcher} (hd : d.Consistent) : d.dismiss.Closed := by
  rcases hd with hd | ⟨shown, item, hd⟩
  · rwa [dismiss, hd.shown_eq]
  · rw [dismiss, hd.shown_eq]
    refine ⟨rfl, fun s hs => ?_⟩
    obtain ⟨i, hi, rfl⟩ := List.getElem_of_mem hs
    rw [List.getElem_modify]
    split
    · rfl
    · next hne => exact hd.others i (by simpa using hi) (Ne.symm hne)

theorem closed_accept {d : Dispatcher} (hd : d.Consistent) (index : Nat) (active : Option ε) :
    (d.accept index active).1.Closed := by
  rcases hd with hd | ⟨shown, item, hd⟩
  · rwa [accept, hd.shown_eq]
  · have hclosed := closed_dismiss (.inr ⟨shown, item, hd⟩)
    rw [accept, hd.shown_eq]
    dsimp only
    split
    · next chosen s hitem hs =>
      refine ⟨rfl, fun other hother => ?_⟩
      obtain ⟨i, hi, rfl⟩ := List.getElem_of_mem hother
      rw [List.getElem_set]
      split
      · simp
      · next hne => exact hd.others i (by simpa using hi) (Ne.symm hne)
    · exact hclosed

/-- Nothing can be accepted from a closed dispatcher. -/
theorem accept_of_closed {d : Dispatcher} (hd : d.Closed) (index : Nat) (active : Option ε) :
    d.accept index active = (d, active, false) := by
  rw [accept, hd.shown_eq]

theorem Closed.register {d : Dispatcher} (hd : d.Closed) {s : Session} (hs : s.state = .idle) :
    (d.register s).Closed := by
  refine ⟨hd.shown_eq, fun other hother => ?_⟩
  rcases List.mem_append.1 hother with hmem | hmem
  · exact hd.idle other hmem
  · rwa [List.mem_singleton.1 hmem]

theorem Open.register {d : Dispatcher} {shown : Shown} {item : Suggestion}
    (hd : d.Open shown item) {s : Session} (hs : s.state = .idle) :
    (d.register s).Open shown item where
  shown_eq := hd.shown_eq
  owner_lt := by
    have := hd.owner_lt
    simp only [Dispatcher.register, List.length_append]
    omega
  items_eq := hd.items_eq
  owner := by
    simp only [Dispatcher.register]
    rw [List.getElem_append_left hd.owner_lt]
    exact hd.owner
  others := by
    intro i hi hne
    simp only [Dispatcher.register]
    rw [List.getElem_append]
    split
    · next hlt => exact hd.others i hlt hne
    · simpa using hs

theorem consistent_register {d : Dispatcher} (hd : d.Consistent) {s : Session}
    (hs : s.state = .idle) : (d.register s).Consistent := by
  rcases hd with hd | ⟨shown, item, hd⟩
  · exact .inl (hd.register hs)
  · exact .inr ⟨shown, item, hd.register hs⟩

theorem consistent_event {d : Dispatcher} (hd : d.Consistent) (e : ε) :
    (d.event e).Consistent := by
  have hidle := (closed_dismiss hd).idle
  unfold event
  cases ht : Session.triggerAt? e (Editor.cursor e) with
  | none =>
    rw [ask_eq_none ht]
    refine .inl ⟨rfl, fun s hs => ?_⟩
    obtain ⟨other, -, rfl⟩ := List.mem_map.1 hs
    rfl
  | some t =>
    cases hsources : d.dismiss.sources with
    | nil => exact .inl ⟨rfl, fun s hs => nomatch hs⟩
    | cons s rest =>
      rw [hsources] at hidle
      cases ha : s.calculator.resolve t.query with
      | none =>
        rw [ask_cons_none ht ha]
        refine .inl ⟨rfl, fun other hother => ?_⟩
        rcases List.mem_cons.1 hother with rfl | hmem
        · rfl
        · exact hidle other (.tail _ hmem)
      | some answer =>
        rw [ask_cons_some ht ha]
        refine .inr ⟨⟨0, t, [⟨t.query, answer⟩]⟩, ⟨t.query, answer⟩, rfl, by simp, rfl, rfl, ?_⟩
        intro i hi hne
        cases i with
        | zero => exact absurd rfl hne
        | succ i => exact hidle _ (.tail _ (List.getElem_mem (by simpa using hi)))

/-! ## Runs -/

/-- Every operation keeps the two kinds of state. -/
theorem consistent_perform {d : Dispatcher} (hd : d.Consistent) (op : Operation ε) :
    (d.perform op).Consistent := by
  cases op with
  | register settings calculator => exact consistent_register hd rfl
  | event e => exact consistent_event hd e
  | accept index active => exact .inl (closed_accept hd index active)
  | dismiss => exact .inl (closed_dismiss hd)

theorem Consistent.run {d : Dispatcher} (hd : d.Consistent) (ops : List (Operation ε)) :
    (d.run ops).Consistent := by
  induction ops generalizing d with
  | nil => exact hd
  | cons op ops ih => exact ih (consistent_perform hd op)

theorem consistent_run (ops : List (Operation ε)) : (empty.run ops).Consistent :=
  .run (.inl closed_empty) ops

/-- A closed dispatcher stays closed until an event opens a list. -/
theorem Closed.run {d : Dispatcher} (hd : d.Closed) {ops : List (Operation ε)}
    (hquiet : d.Quiet ops) : (d.run ops).Closed := by
  induction ops generalizing d with
  | nil => exact hd
  | cons op ops ih =>
    obtain ⟨hevent, hrest⟩ := hquiet
    refine ih ?_ hrest
    cases op with
    | register settings calculator => exact hd.register rfl
    | event e => exact (consistent_event (.inl hd) e).closed_of_shown (hevent e rfl)
    | accept index active => exact closed_accept (.inl hd) index active
    | dismiss => exact closed_dismiss (.inl hd)

/-- After any run the sessions agree with the list that is shown.  Without a list every session
is idle.  A list has one entry and an owner among the sessions, which has resolved the trigger
of the list to that entry, and the others are idle.  Acceptance and dismissal close the list and
leave every session idle, and from then on, until an event opens a list, nothing can be accepted
and no document changes. -/
theorem ownership_run (ops : List (Operation ε)) :
    let d := empty.run ops
    (d.shown = none → ∀ s ∈ d.sources, s.state = .idle) ∧
    (∀ shown, d.shown = some shown →
      ∃ (_ : shown.owner < d.sources.length) (item : Suggestion),
        shown.items = [item] ∧
        d.sources[shown.owner].state = .resolved shown.trigger item ∧
        ∀ i (_ : i < d.sources.length), i ≠ shown.owner → d.sources[i].state = .idle) ∧
    (∀ after, (after = d.dismiss ∨ ∃ index active, after = (d.accept (ε := ε) index active).1) →
      after.shown = none ∧ (∀ s ∈ after.sources, s.state = .idle) ∧
      ∀ more : List (Operation ε), after.Quiet more → ∀ index (active : Option ε),
        (after.run more).accept index active = (after.run more, active, false)) := by
  intro d
  have hd : d.Consistent := consistent_run ops
  refine ⟨fun h => (hd.closed_of_shown h).idle, fun shown h => ?_, fun after hafter => ?_⟩
  · obtain ⟨item, hopen⟩ := hd.open_of_shown h
    exact ⟨hopen.owner_lt, item, hopen.items_eq, hopen.owner, hopen.others⟩
  · have hclosed : after.Closed := by
      rcases hafter with rfl | ⟨index, active, rfl⟩
      · exact closed_dismiss hd
      · exact closed_accept hd index active
    refine ⟨hclosed.shown_eq, hclosed.idle, fun more hquiet index active => ?_⟩
    exact accept_of_closed (hclosed.run hquiet) index active

end Dispatcher

end Reckoner
