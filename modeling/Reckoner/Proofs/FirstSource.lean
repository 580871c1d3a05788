import Reckoner.Proofs.Editing
import Reckoner.Proofs.Retrigger

/-!
# Only the first source counts

All sources look for triggers in the same way, and the first one that notices a trigger ends the
search.  So the others are never asked for suggestions: a dispatcher with many sources does what
a dispatcher with the first of them does.

The two are compared at a desk, that is together with the document that is worked in, over a run
of everything that can happen there.  `SameFirst` relates two dispatchers that differ behind the
first source.  Each operation keeps the relation, and a registration keeps it though it takes place
on one side alone (`Follows.register`, `Follows.perform`).  Related desks look alike
(`Follows.view_eq`), so the registrations after the first can be left out of a run (`view_run`).
-/

namespace Reckoner

/-! ## Desks -/

/-- A dispatcher and the document that is worked in. -/
structure Desk where
  /-- The dispatcher. -/
  dispatcher : Dispatcher
  /-- The active document, if there is one. -/
  active : Option Buffer
  /-- Whether the latest acceptance found a suggestion, if there was one. -/
  answer : Option Bool

/-- What can happen at a desk.  Some documents may be of another kind than the active one. -/
inductive Step (ε : Type)
  /-- A source with some settings is registered. -/
  | register (settings : Settings)
  /-- The active document is reported, if there is one. -/
  | event
  /-- Some document is reported. -/
  | eventIn (e : ε)
  /-- The suggestion at an index is taken over into the active document. -/
  | accept (index : Nat)
  /-- The list is closed. -/
  | dismiss
  /-- The active document is edited, without a report. -/
  | edit (edit : Edit)
  /-- Another document becomes the active one, or none is. -/
  | activate (b : Option Buffer)

/-- Whether a step is no registration. -/
def Step.keeps {ε : Type} : Step ε → Bool
  | .register _ => false
  | _ => true

/-- What can be seen of a desk. -/
structure View where
  /-- The suggestions that are shown. -/
  suggestions : List Suggestion
  /-- The list as it is rendered. -/
  rendered : List Text
  /-- The trigger of the list. -/
  trigger : Option Trigger
  /-- The active document. -/
  active : Option Buffer
  /-- Whether the latest acceptance found a suggestion. -/
  answer : Option Bool

namespace Desk

/-- A desk without sources. -/
def start (active : Option Buffer) : Desk := ⟨.empty, active, none⟩

/-- What can be seen. -/
def view (d : Desk) : View where
  suggestions := d.dispatcher.suggestions
  rendered := d.dispatcher.rendered
  trigger := d.dispatcher.trigger?
  active := d.active
  answer := d.answer

variable {ε : Type} [Editor ε]

/-- The desk after a step. -/
def perform (d : Desk) : Step ε → Desk
  | .register settings => { d with dispatcher := d.dispatcher.register (.ofSettings settings) }
  | .event =>
      match d.active with
      | none => d
      | some b => { d with dispatcher := d.dispatcher.event b }
  | .eventIn e => { d with dispatcher := d.dispatcher.event e }
  | .accept index =>
      let (dispatcher, active, answer) := d.dispatcher.accept index d.active
      ⟨dispatcher, active, some answer⟩
  | .dismiss => { d with dispatcher := d.dispatcher.dismiss }
  | .edit edit => { d with active := d.active.map (·.perform edit) }
  | .activate b => { d with active := b }

/-- The desk after several steps in order. -/
def run (d : Desk) (steps : List (Step ε)) : Desk := steps.foldl perform d

@[simp] theorem run_nil (d : Desk) : d.run ([] : List (Step ε)) = d := rfl

@[simp] theorem run_cons (d : Desk) (step : Step ε) (steps : List (Step ε)) :
    d.run (step :: steps) = (d.perform step).run steps := rfl

end Desk

/-! ## Dispatchers with the same first source -/

/-- The second dispatcher has the first source of the first one and no other, they show the same
list, and it is that source's.  The source was registered as `origin`. -/
structure SameFirst (origin : Session) (many one : Dispatcher) : Prop where
  /-- The sources. -/
  sources : ∃ first rest, first.close = origin ∧ many.sources = first :: rest ∧
    one.sources = [first]
  /-- The list that is shown. -/
  shown_eq : many.shown = one.shown
  /-- Its owner. -/
  owner_eq : ∀ shown, one.shown = some shown → shown.owner = 0

namespace SameFirst

variable {ε : Type} [Editor ε] {origin : Session} {many one : Dispatcher}

/-- Without a list the first source is all that counts. -/
theorem closed (first : Session) (h : first.close = origin) (rest : List Session) :
    SameFirst origin ⟨first :: rest, none⟩ ⟨[first], none⟩ := by
  refine ⟨⟨first, rest, h, rfl, rfl⟩, rfl, ?_⟩
  rintro shown ⟨⟩

theorem register (h : SameFirst origin many one) (s : Session) :
    SameFirst origin (many.register s) one := by
  obtain ⟨first, rest, horigin, hmany, hone⟩ := h.sources
  refine ⟨⟨first, rest ++ [s], horigin, ?_, hone⟩, h.shown_eq, h.owner_eq⟩
  rw [Dispatcher.register, hmany]
  rfl

theorem dismiss (h : SameFirst origin many one) :
    SameFirst origin many.dismiss one.dismiss := by
  cases hone : one.shown with
  | none =>
    rw [Dispatcher.dismiss, h.shown_eq, hone, Dispatcher.dismiss, hone]
    exact h
  | some shown =>
    obtain ⟨first, rest, horigin, hmany, hsingle⟩ := h.sources
    rw [Dispatcher.dismiss, h.shown_eq, hone, Dispatcher.dismiss, hone]
    dsimp only
    rw [h.owner_eq shown hone, hmany, hsingle]
    exact closed first.close horigin rest

theorem event (h : SameFirst origin many one) (e : ε) :
    SameFirst origin (many.event e) (one.event e) := by
  obtain ⟨first, rest, horigin, hmany, hsingle⟩ := h.dismiss.sources
  rw [Dispatcher.event, Dispatcher.event, hmany, hsingle]
  cases ht : Session.triggerAt? e (Editor.cursor e) with
  | none =>
    rw [Dispatcher.ask_eq_none ht, Dispatcher.ask_eq_none ht]
    exact closed first.close horigin _
  | some t =>
    cases ha : first.calculator.resolve t.query with
    | none =>
      rw [Dispatcher.ask_cons_none ht ha, Dispatcher.ask_cons_none ht ha]
      exact closed first.close horigin rest
    | some answer =>
      rw [Dispatcher.ask_cons_some ht ha, Dispatcher.ask_cons_some ht ha]
      refine ⟨⟨first.withState (.resolved t ⟨t.query, answer⟩), rest, horigin, rfl, rfl⟩, rfl, ?_⟩
      rintro shown ⟨⟩
      rfl

theorem accept (h : SameFirst origin many one) (index : Nat) (active : Option ε) :
    SameFirst origin (many.accept index active).1 (one.accept index active).1 ∧
      (many.accept index active).2 = (one.accept index active).2 := by
  cases hone : one.shown with
  | none =>
    rw [Dispatcher.accept, h.shown_eq, hone, Dispatcher.accept, hone]
    exact ⟨h, rfl⟩
  | some shown =>
    obtain ⟨first, rest, horigin, hmany, hsingle⟩ := h.sources
    have hfirst : many.sources[shown.owner]? = some first ∧
        one.sources[shown.owner]? = some first := by
      rw [h.owner_eq shown hone, hmany, hsingle]
      exact ⟨rfl, rfl⟩
    rw [Dispatcher.accept, h.shown_eq, hone, Dispatcher.accept, hone]
    dsimp only
    rw [hfirst.1, hfirst.2]
    cases shown.items[index]? with
    | none => exact ⟨h.dismiss, rfl⟩
    | some item =>
      rw [h.owner_eq shown hone, hmany, hsingle]
      refine ⟨closed _ ?_ rest, rfl⟩
      rw [Session.accept_fst]
      exact horigin

theorem rendered_eq (h : SameFirst origin many one) : many.rendered = one.rendered := by
  obtain ⟨first, rest, -, hmany, hsingle⟩ := h.sources
  rw [Dispatcher.rendered, Dispatcher.rendered, h.shown_eq]
  cases hone : one.shown with
  | none => rfl
  | some shown =>
    dsimp only
    rw [h.owner_eq shown hone, hmany, hsingle]
    rfl

end SameFirst

/-! ## Desks with the same first source -/

/-- Two desks with such dispatchers, the same active document and the same answer. -/
structure Desk.Follows (origin : Session) (many one : Desk) : Prop where
  /-- The dispatchers have the same first source. -/
  same : SameFirst origin many.dispatcher one.dispatcher
  /-- The active document. -/
  active_eq : many.active = one.active
  /-- What the latest acceptance said. -/
  answer_eq : many.answer = one.answer

namespace Desk

variable {ε : Type} [Editor ε] {origin : Session} {many one : Desk}

/-- A registration that only one of them sees goes unnoticed. -/
theorem Follows.register (h : Follows origin many one) (settings : Settings) :
    Follows origin (many.perform (.register settings : Step ε)) one :=
  ⟨h.same.register _, h.active_eq, h.answer_eq⟩

/-- Every other step keeps the desks together. -/
theorem Follows.perform (h : Follows origin many one) {step : Step ε}
    (hstep : step.keeps = true) : Follows origin (many.perform step) (one.perform step) := by
  cases step with
  | register settings => cases hstep
  | event =>
    unfold Desk.perform
    rw [h.active_eq]
    cases one.active with
    | none => exact h
    | some b => exact ⟨h.same.event b, rfl, h.answer_eq⟩
  | eventIn e => exact ⟨h.same.event e, h.active_eq, h.answer_eq⟩
  | accept index =>
    obtain ⟨hsame, hresult⟩ := h.same.accept index one.active
    unfold Desk.perform
    rw [h.active_eq]
    exact ⟨hsame, congrArg Prod.fst hresult, congrArg (some ·.2) hresult⟩
  | dismiss => exact ⟨h.same.dismiss, h.active_eq, h.answer_eq⟩
  | edit edit =>
    have hedited :
        many.active.map (Buffer.perform · edit) = one.active.map (Buffer.perform · edit) :=
      congrArg _ h.active_eq
    exact ⟨h.same, hedited, h.answer_eq⟩
  | activate b => exact ⟨h.same, rfl, h.answer_eq⟩

/-- A run on one side is followed by the same run without its registrations. -/
theorem Follows.run (h : Follows origin many one) (steps : List (Step ε)) :
    Follows origin (many.run steps) (one.run (steps.filter Step.keeps)) := by
  induction steps generalizing many one with
  | nil => exact h
  | cons step steps ih =>
    rw [run_cons]
    cases hstep : step.keeps with
    | true =>
      rw [List.filter_cons_of_pos hstep, run_cons]
      exact ih (h.perform hstep)
    | false =>
      rw [List.filter_cons_of_neg (by simp [hstep])]
      cases step with
      | register settings => exact ih (h.register settings)
      | _ => cases hstep

theorem Follows.view_eq (h : Follows origin many one) : many.view = one.view := by
  unfold view
  rw [Dispatcher.suggestions, Dispatcher.suggestions, Dispatcher.trigger?, Dispatcher.trigger?,
    h.same.shown_eq, h.same.rendered_eq, h.active_eq, h.answer_eq]

/-- Sources registered one after another, any steps after that, and further registrations among
them.  What can be seen is what can be seen if only the first source is ever registered.  A list
that is shown belongs to the first source, and where an event finds a trigger that the first
source cannot resolve, nothing is shown, whatever the others could resolve. -/
theorem view_run (first : Settings) (others : List Settings) (active : Option Buffer)
    (steps : List (Step ε)) :
    let many := (start active).run (.register first :: (others.map Step.register ++ steps))
    let one := (start active).run (.register first :: steps.filter Step.keeps)
    many.view = one.view ∧
    (∀ shown, many.dispatcher.shown = some shown → shown.owner = 0) ∧
    ∀ (e : ε) (t : Trigger), Session.triggerAt? e (Editor.cursor e) = some t →
      first.calculator.resolve t.query = none → (many.dispatcher.event e).shown = none := by
  intro many one
  have hstart : Follows (.ofSettings first)
      ((start active).perform (.register first : Step ε))
      ((start active).perform (.register first : Step ε)) :=
    ⟨.closed (.ofSettings first) rfl [], rfl, rfl⟩
  have hfilter : (others.map Step.register ++ steps).filter Step.keeps =
      steps.filter Step.keeps := by
    rw [List.filter_append, List.filter_eq_nil_iff.2, List.nil_append]
    rintro _ hstep
    obtain ⟨settings, -, rfl⟩ := List.mem_map.1 hstep
    exact Bool.noConfusion
  have hfollows : Follows (.ofSettings first) many one := by
    have hrun := hstart.run (others.map Step.register ++ steps)
    rwa [hfilter] at hrun
  refine ⟨hfollows.view_eq, fun shown hshown => ?_, fun e t ht hnone => ?_⟩
  · exact hfollows.same.owner_eq shown (hfollows.same.shown_eq ▸ hshown)
  · obtain ⟨source, rest, horigin, hsources, -⟩ := hfollows.same.sources
    have hsource : many.dispatcher.sources.head? = some source := by rw [hsources]; rfl
    have hcalculator : source.calculator = first.calculator :=
      show source.close.calculator = _ from congrArg Session.calculator horigin
    refine Option.eq_none_iff_forall_ne_some.2 fun shown hshown => ?_
    obtain ⟨t', answer, -, ht', hanswer, -⟩ :=
      Dispatcher.event_of_shown hsource (Option.isSome_iff_exists.2 ⟨shown, hshown⟩)
    cases ht.symm.trans ht'
    rw [hcalculator, hnone] at hanswer
    cases hanswer

/-- A second source that knows a constant, registered before and during a run. -/
theorem view_run_rate :
    let second : Settings := { constants := NameMap.empty.insert "rate".toList 3 }
    let steps : List (Step Buffer) :=
      [.event, .register second, .accept 0, .edit (.type "; rate=".toList), .event]
    let many := (start (some (.ofTextAtEnd "1+1=".toList))).run
      (.register .default :: ([second].map Step.register ++ steps))
    let b : Buffer := ⟨["1+1= 2; rate=".toList], ⟨0, 13⟩⟩
    many.view.active = some b ∧ many.view.answer = some true ∧
      (second.calculator.resolve " 2; rate".toList).isSome ∧
      (many.dispatcher.event b).shown = none := by
  intro second steps many b
  obtain ⟨hview, -, hnothing⟩ :=
    view_run .default [second] (some (.ofTextAtEnd "1+1=".toList)) steps
  have hnone : Settings.default.calculator.resolve " 2; rate".toList = none := by
    refine Option.isNone_iff_eq_none.1 ?_
    decide +kernel
  have hactive : many.view.active = some b := by
    rw [show many.view = _ from hview]
    decide +kernel
  have hanswer : many.view.answer = some true := by
    rw [show many.view = _ from hview]
    decide +kernel
  exact ⟨hactive, hanswer, by decide +kernel,
    hnothing b ⟨⟨0, 4⟩, ⟨0, 13⟩, " 2; rate".toList⟩ (by decide) hnone⟩

end Desk

end Reckoner
