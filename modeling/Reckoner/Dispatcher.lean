import Reckoner.Session

/-!
# The dispatcher

Several sessions may be registered with one dispatcher, which shows at most one list of
suggestions.

Every event in a document first closes the list that is shown.  Then the sessions are asked in
order of registration.  The first that notices a trigger ends the search, whether it has
suggestions or not, and if it has, its list is shown.  The sessions asked before it have become
idle.
-/

namespace Reckoner

/-- The list of suggestions that is shown. -/
structure Shown where
  /-- The index of the session it comes from. -/
  owner : Nat
  /-- The trigger it answers. -/
  trigger : Trigger
  /-- The suggestions. -/
  items : List Suggestion

/-- The registered sessions and the list that is shown. -/
structure Dispatcher where
  /-- The sessions, in order of registration. -/
  sources : List Session
  /-- The list that is shown, if there is one. -/
  shown : Option Shown

namespace Dispatcher

/-- A dispatcher without sessions. -/
def empty : Dispatcher := ⟨[], none⟩

/-- Registers a session. -/
def register (d : Dispatcher) (s : Session) : Dispatcher :=
  { d with sources := d.sources ++ [s] }

/-- The suggestions that are shown. -/
def suggestions (d : Dispatcher) : List Suggestion :=
  match d.shown with
  | some shown => shown.items
  | none => []

/-- The trigger of the list that is shown. -/
def trigger? (d : Dispatcher) : Option Trigger := d.shown.map Shown.trigger

/-- The suggestions as the session they come from renders them. -/
def rendered (d : Dispatcher) : List Text :=
  match d.shown with
  | none => []
  | some shown =>
      match d.sources[shown.owner]? with
      | none => []
      | some s => shown.items.map s.render

/-- Closes the list that is shown. -/
def dismiss (d : Dispatcher) : Dispatcher :=
  match d.shown with
  | none => d
  | some shown => ⟨d.sources.modify shown.owner Session.close, none⟩

variable {ε : Type} [Editor ε]

/-- Asks sessions in order, up to the first that notices a trigger. -/
def ask (e : ε) : List Session → List Session × Option Shown
  | [] => ([], none)
  | s :: rest =>
      match s.notice e (Editor.cursor e) with
      | (s, none) =>
          let (rest, shown) := ask e rest
          (s :: rest, shown.map fun shown => { shown with owner := shown.owner + 1 })
      | (s, some t) =>
          match s.suggest t with
          | (s, []) => (s.close :: rest, none)
          | (s, items) => (s :: rest, some ⟨0, t, items⟩)

/-- Handles an edit or a move of the cursor in a document. -/
def event (d : Dispatcher) (e : ε) : Dispatcher :=
  let (sources, shown) := ask e d.dismiss.sources
  ⟨sources, shown⟩

/-- Takes over the suggestion at an index, and says whether there is one.  The list is closed in
any case. -/
def accept (d : Dispatcher) (index : Nat) (active : Option ε) :
    Dispatcher × Option ε × Bool :=
  match d.shown with
  | none => (d, active, false)
  | some shown =>
      match shown.items[index]?, d.sources[shown.owner]? with
      | some item, some s =>
          let (s, active) := s.accept item active
          (⟨d.sources.set shown.owner s, none⟩, active, true)
      | _, _ => (d.dismiss, active, false)

end Dispatcher

end Reckoner
