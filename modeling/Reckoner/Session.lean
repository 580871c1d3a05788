import Reckoner.Buffer
import Reckoner.Calculator
import Reckoner.Settings.Basic
import Reckoner.Trigger

/-!
# Sessions

A session offers the value of a formula while it is typed.  It reads and changes a document
through an `Editor`, of which `Buffer` is one.

* `notice` looks at the line before the cursor.  A trigger there is remembered, and without one
  the session is idle.
* `suggest` resolves the query of a trigger.  The answer is the only suggestion.
* `accept` inserts the answer after the trigger and moves the cursor behind it.  The session is
  idle after it, so one trigger is answered once.

The place after the inserted text is computed in words of 64 bits.  The cursor is moved there
even if the place of the trigger is outside the document and nothing could be inserted.
-/

namespace Reckoner

/-- What a session can read and change in a document of some kind. -/
class Editor (ε : Type) where
  /-- The place of the cursor. -/
  cursor : ε → Position
  /-- The characters of a line from one column to before another. -/
  slice : ε → Nat → Nat → Nat → Text
  /-- The document with text inserted at a place, if that is possible. -/
  insertIfPossible : ε → Position → Text → ε
  /-- The document with its cursor set to a place. -/
  setCursor : ε → Position → ε

instance : Editor Buffer where
  cursor := Buffer.cursor
  slice := Buffer.slice
  insertIfPossible := Buffer.insertIfPossible
  setCursor := Buffer.setCursor

/-- A trigger at its place in a document. -/
structure Trigger where
  /-- Where the query begins. -/
  start : Position
  /-- The place right after the `=`. -/
  stop : Position
  /-- The query. -/
  query : Text
deriving DecidableEq, Repr

/-- A value that is on offer. -/
structure Suggestion where
  /-- The query it answers. -/
  query : Text
  /-- The value. -/
  answer : Answer

/-- The value of a suggestion after some text. -/
def Suggestion.after (s : Suggestion) (lead : Text) : Text := lead ++ s.answer.display

/-- The trigger of a span on a line. -/
def Span.onLine (s : Span) (line : Nat) : Trigger := ⟨⟨line, s.start⟩, ⟨line, s.stop⟩, s.query⟩

/-- The number of columns that words of 64 bits tell apart, `2^64`. -/
def columnBound : Nat := 0x10000000000000000

/-- The place `n` columns on, in words of 64 bits. -/
def Position.advance (p : Position) (n : Nat) : Position :=
  ⟨p.line, (p.column + n) % columnBound⟩

/-- Where a session stands. -/
inductive SessionState
  /-- There is no trigger before the cursor. -/
  | idle
  /-- There is a trigger that is not resolved yet. -/
  | triggered (t : Trigger)
  /-- The trigger has this answer. -/
  | resolved (t : Trigger) (s : Suggestion)
  /-- The trigger has no answer. -/
  | empty (t : Trigger)

/-- The trigger a session remembers. -/
def SessionState.trigger? : SessionState → Option Trigger
  | .idle => none
  | .triggered t | .resolved t _ | .empty t => some t

/-- A source of suggestions. -/
structure Session where
  /-- The settings of the host. -/
  settings : Settings
  /-- The calculator that resolves queries. -/
  calculator : Calculator
  /-- Where the session stands. -/
  state : SessionState

/-- The calculator with the constants of the settings. -/
def Settings.calculator (s : Settings) : Calculator := ⟨s.symbols⟩

namespace Session

/-- An idle session with the constants of its settings. -/
def ofSettings (s : Settings) : Session := ⟨s, s.calculator, .idle⟩

/-- The session in another state. -/
def withState (s : Session) (state : SessionState) : Session := { s with state := state }

/-- The session without a trigger. -/
def close (s : Session) : Session := s.withState .idle

variable {ε : Type} [Editor ε]

/-- The trigger before a place of a document. -/
def triggerAt? (e : ε) (place : Position) : Option Trigger :=
  (Span.atEnd? (Editor.slice e place.line 0 place.column)).map (·.onLine place.line)

/-- Looks for a trigger before a place of a document. -/
def notice (s : Session) (e : ε) (place : Position) : Session × Option Trigger :=
  match triggerAt? e place with
  | none => (s.close, none)
  | some t => (s.withState (.triggered t), some t)

/-- The suggestions for a trigger. -/
def suggest (s : Session) (t : Trigger) : Session × List Suggestion :=
  match s.calculator.resolve t.query with
  | some answer =>
      let suggestion : Suggestion := ⟨t.query, answer⟩
      (s.withState (.resolved t suggestion), [suggestion])
  | none => (s.withState (.empty t), [])

/-- A suggestion as it is shown in a list. -/
def render (s : Session) (item : Suggestion) : Text := item.after s.settings.renderPrefix

/-- A document with a suggestion inserted after a trigger. -/
def insertAnswer (s : Session) (t : Trigger) (item : Suggestion) (e : ε) : ε :=
  let inserted := item.after s.settings.insertPrefix
  Editor.setCursor (Editor.insertIfPossible e t.stop inserted) (t.stop.advance inserted.length)

/-- Takes a suggestion over into the active document, if there is one. -/
def accept (s : Session) (item : Suggestion) (active : Option ε) : Session × Option ε :=
  match s.state.trigger? with
  | none => (s.close, active)
  | some t => (s.close, active.map (s.insertAnswer t item))

@[simp] theorem state_close (s : Session) : s.close.state = .idle := rfl

theorem accept_fst (s : Session) (item : Suggestion) (active : Option ε) :
    (s.accept item active).1 = s.close := by
  unfold accept
  split <;> rfl

@[simp] theorem state_accept (s : Session) (item : Suggestion) (active : Option ε) :
    (s.accept item active).1.state = .idle := by
  rw [accept_fst, state_close]

end Session

end Reckoner
