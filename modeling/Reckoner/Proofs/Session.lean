import Reckoner.Proofs.Trigger
import Reckoner.Session

/-!
# Runs of a session

A host calls a session in any order, with places, triggers and suggestions of its own.  What the
session remembers agrees with its calculator all the same: a state is *sound* if it is one that
noticing a trigger or resolving it could have led to (`SessionState.Sound`).

* A trigger that was noticed is the query and the `=` after it, on one line (`sound_notice`).
* A trigger that was resolved has the answer on offer, or none (`sound_suggest`).
* Acceptance and closing leave a session idle.  It stays idle until it notices a trigger or is
  given one (`idle_run`), and an idle session accepts nothing (`accept_of_idle`).

So every run leads to a sound state (`sound_run`), and no trigger is answered twice.
-/

namespace Reckoner

/-- A trigger that covers its query and one `=`, on one line. -/
structure Trigger.OnLine (t : Trigger) : Prop where
  /-- It ends on the line where it begins. -/
  line_eq : t.start.line = t.stop.line
  /-- The query holds no `=`. -/
  not_mem : '=' ∉ t.query
  /-- The query and the `=` fill the columns. -/
  column_eq : t.stop.column = t.start.column + t.query.length + 1

/-- The states that agree with a calculator. -/
inductive SessionState.Sound (c : Calculator) : SessionState → Prop
  | idle : Sound c .idle
  | triggered {t : Trigger} : t.OnLine → Sound c (.triggered t)
  | resolved {t : Trigger} {answer : Answer} :
      c.resolve t.query = some answer → Sound c (.resolved t ⟨t.query, answer⟩)
  | empty {t : Trigger} : c.resolve t.query = none → Sound c (.empty t)

namespace Session

/-- What a host does with a session, in documents of some kind. -/
inductive Action (ε : Type)
  /-- The session looks for a trigger before a place of a document. -/
  | notice (e : ε) (place : Position)
  /-- The session is asked for the suggestions for a trigger. -/
  | suggest (t : Trigger)
  /-- A suggestion is taken over into the active document, if there is one. -/
  | accept (item : Suggestion) (active : Option ε)
  /-- The session is closed. -/
  | close

variable {ε : Type} [Editor ε]

/-- An action that gives a session no trigger. -/
def Action.Quiet : Action ε → Prop
  | .notice e place => triggerAt? e place = none
  | .suggest _ => False
  | .accept _ _ | .close => True

/-- The session after an action. -/
def perform (s : Session) : Action ε → Session
  | .notice e place => (s.notice e place).1
  | .suggest t => (s.suggest t).1
  | .accept item active => (s.accept item active).1
  | .close => s.close

/-- The session after several actions in order. -/
def run (s : Session) (actions : List (Action ε)) : Session := actions.foldl perform s

@[simp] theorem run_nil (s : Session) : s.run ([] : List (Action ε)) = s := rfl

@[simp] theorem run_cons (s : Session) (action : Action ε) (actions : List (Action ε)) :
    s.run (action :: actions) = (s.perform action).run actions := rfl

/-! ## One action -/

theorem accept_of_idle {s : Session} (h : s.state = .idle) (item : Suggestion)
    (active : Option ε) : (s.accept item active).2 = active := by
  rw [accept, h]
  rfl

/-- No action changes the calculator. -/
theorem calculator_perform (s : Session) (action : Action ε) :
    (s.perform action).calculator = s.calculator := by
  cases action with
  | notice e place =>
    rw [perform, notice]
    split <;> rfl
  | suggest t =>
    rw [perform, suggest]
    split <;> rfl
  | accept item active => rw [perform, accept_fst]; rfl
  | close => rfl

theorem onLine_triggerAt? {e : ε} {place : Position} {t : Trigger}
    (h : triggerAt? e place = some t) : t.OnLine := by
  obtain ⟨span, hspan, rfl⟩ := Option.map_eq_some_iff.1 h
  obtain ⟨q, hq, rfl⟩ := atEnd?_inv hspan
  have hlength := hq.length_lt
  obtain ⟨-, -, hmem, -⟩ := hq
  refine ⟨rfl, hmem, ?_⟩
  simp only [Span.onLine]
  omega

theorem sound_notice (s : Session) (e : ε) (place : Position) (c : Calculator) :
    (s.notice e place).1.state.Sound c := by
  cases ht : triggerAt? e place with
  | none => rw [notice, ht]; exact .idle
  | some t => rw [notice, ht]; exact .triggered (onLine_triggerAt? ht)

theorem sound_suggest (s : Session) (t : Trigger) :
    (s.suggest t).1.state.Sound s.calculator := by
  cases ha : s.calculator.resolve t.query with
  | none => rw [suggest, ha]; exact .empty ha
  | some answer => rw [suggest, ha]; exact .resolved ha

/-- Every action leads to a sound state, whatever the state before it was. -/
theorem sound_perform (s : Session) (action : Action ε) :
    (s.perform action).state.Sound s.calculator := by
  cases action with
  | notice e place => exact s.sound_notice e place s.calculator
  | suggest t => exact s.sound_suggest t
  | accept item active => rw [perform, accept_fst]; exact .idle
  | close => exact .idle

/-- A quiet action leaves a session idle, whatever the state before it was. -/
theorem idle_perform (s : Session) {action : Action ε} (hquiet : action.Quiet) :
    (s.perform action).state = .idle := by
  cases action with
  | notice e place => rw [perform, notice, show triggerAt? e place = none from hquiet]; rfl
  | suggest t => exact hquiet.elim
  | accept item active => rw [perform, accept_fst]; rfl
  | close => rfl

/-! ## Many actions -/

theorem sound_run {s : Session} (h : s.state.Sound s.calculator) (actions : List (Action ε)) :
    (s.run actions).state.Sound s.calculator := by
  induction actions generalizing s with
  | nil => exact h
  | cons action actions ih =>
    have hcalculator := calculator_perform s action
    rw [run_cons, ← hcalculator]
    exact ih (hcalculator ▸ sound_perform s action)

theorem idle_run {s : Session} (h : s.state = .idle) {actions : List (Action ε)}
    (hquiet : ∀ action ∈ actions, action.Quiet) : (s.run actions).state = .idle := by
  induction actions generalizing s with
  | nil => exact h
  | cons action actions ih =>
    obtain ⟨hfirst, hrest⟩ := List.forall_mem_cons.1 hquiet
    exact ih (idle_perform s hfirst) hrest

/-- After any run of a new session its state agrees with its calculator.  A trigger that is not
resolved yet is a query without `=` and the `=` after it, on one line.  An answer on offer is the
one that the calculator gives for the query of the trigger, and a trigger without an answer has a
query that the calculator gives none for.  Acceptance and closing leave the session idle, and from
then on, until it notices a trigger or is given one, nothing can be accepted. -/
theorem states_run (settings : Settings) (calculator : Calculator) (actions : List (Action ε)) :
    let s := (⟨settings, calculator, .idle⟩ : Session).run actions
    (∀ t, s.state = .triggered t →
      t.start.line = t.stop.line ∧ '=' ∉ t.query ∧
        t.stop.column = t.start.column + t.query.length + 1) ∧
    (∀ t item, s.state = .resolved t item →
      item.query = t.query ∧ calculator.resolve t.query = some item.answer) ∧
    (∀ t, s.state = .empty t → calculator.resolve t.query = none) ∧
    (s.state = .idle → ∀ item (active : Option ε), (s.accept item active).2 = active) ∧
    (∀ after, (after = s.close ∨ ∃ item active, after = (s.accept (ε := ε) item active).1) →
      after.state = .idle ∧
      ∀ more : List (Action ε), (∀ action ∈ more, action.Quiet) →
        ∀ item (active : Option ε), ((after.run more).accept item active).2 = active) := by
  intro s
  have hsound : s.state.Sound calculator :=
    sound_run (s := ⟨settings, calculator, .idle⟩) .idle actions
  refine ⟨fun t h => ?_, fun t item h => ?_, fun t h => ?_, accept_of_idle, fun after hafter => ?_⟩
  · rw [h] at hsound
    cases hsound with
    | triggered ht => exact ⟨ht.line_eq, ht.not_mem, ht.column_eq⟩
  · rw [h] at hsound
    cases hsound with
    | resolved ha => exact ⟨rfl, ha⟩
  · rw [h] at hsound
    cases hsound with
    | empty ha => exact ha
  · obtain rfl : after = s.close := by
      rcases hafter with h | ⟨item, active, h⟩
      · exact h
      · rw [h, accept_fst]
    refine ⟨rfl, fun more hquiet item active => ?_⟩
    exact accept_of_idle (idle_run rfl hquiet) item active

end Session

end Reckoner
