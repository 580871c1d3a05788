import Reckoner.Json.Skip
import Reckoner.Settings.Basic

/-!
# Reading settings

Settings are read from a JSON object with the members `render_prefix`, `insert_prefix` and
`constants`, or from an array with these three in this order.  What is missing keeps its
default.

* Any other member of the object is skipped.  One of the three must not come twice, which is
  found as soon as its key has been read again.
* The array must not have a fourth element.
* The constants are an object of numbers.  Of two members with one key the later counts.
* After the settings only white space may follow.

Settings that are read have to be valid too.
-/

namespace Reckoner.Settings

open Json (Fault skipSpace mismatch colon)

/-- Why a text does not hold settings. -/
inductive Refusal
  /-- It cannot be read. -/
  | unreadable (fault : Fault)
  /-- This constant is not finite. -/
  | nonFinite (name : Text)
deriving DecidableEq, Repr

/-- The refusal of settings that are not valid. -/
def check (s : Settings) : Except Refusal Unit :=
  match s.firstNonFinite? with
  | some name => .error (.nonFinite name)
  | none => .ok ()

/-- The message about a constant that is not finite. -/
def nonFiniteMessage (name : Text) : String :=
  "constant " ++ String.ofList name ++ " is not a finite number"

/-! ## The values -/

/-- A string. -/
def readText (t : Text) : Except Fault (Text × Text) :=
  match skipSpace t with
  | [] => .error .ended
  | c :: r => if c = '"' then Json.stringBody r else .error (mismatch c r)

/-- A number. -/
def readNumber (t : Text) : Except Fault (Float × Text) :=
  match skipSpace t with
  | [] => .error .ended
  | c :: r =>
      if c = '-' ∨ Text.isAsciiDigit c then Json.number (c :: r) else .error (mismatch c r)

/-- The key after an opening bracket or a comma, of which there has to be one. -/
def readKeyText (t : Text) : Except Fault (Text × Text) :=
  match skipSpace t with
  | [] => .error .ended
  | c :: r => if c = '"' then Json.stringBody r else .error .malformed

/-- The next key of an object, if it does not end here.  Before every key but the first there
has to be a comma. -/
def readKey (first : Bool) (t : Text) : Except Fault (Option Text × Text) :=
  match skipSpace t with
  | [] => .error .ended
  | c :: r =>
      if c = '\x7d' then .ok (none, r)
      else if first then (readKeyText (c :: r)).map fun p => (some p.1, p.2)
      else if c = ',' then (readKeyText r).map fun p => (some p.1, p.2)
      else .error .malformed

theorem length_lt_of_readText {t s r : Text} (h : readText t = .ok (s, r)) :
    r.length < t.length := by
  unfold readText at h
  split at h
  · simp at h
  · next c q hq =>
    split at h
    · exact Nat.lt_trans (Json.length_lt_of_stringBody h) (Json.length_lt_of_skipSpace hq)
    · simp at h

theorem length_lt_of_readNumber {t r : Text} {x : Float} (h : readNumber t = .ok (x, r)) :
    r.length < t.length := by
  unfold readNumber at h
  split at h
  · simp at h
  · next c q hq =>
    have hspace := Json.length_skipSpace_le t
    rw [hq] at hspace
    split at h
    · exact Nat.lt_of_lt_of_le (Json.length_lt_of_number h) hspace
    · simp at h

theorem length_lt_of_readKeyText {t s r : Text} (h : readKeyText t = .ok (s, r)) :
    r.length < t.length := by
  unfold readKeyText at h
  split at h
  · simp at h
  · next c q hq =>
    split at h
    · exact Nat.lt_trans (Json.length_lt_of_stringBody h) (Json.length_lt_of_skipSpace hq)
    · simp at h

theorem length_lt_of_readKey {first : Bool} {t r : Text} {key : Option Text}
    (h : readKey first t = .ok (key, r)) : r.length < t.length := by
  unfold readKey at h
  split at h
  · simp at h
  · next c q hq =>
    have hspace := Json.length_skipSpace_le t
    rw [hq, List.length_cons] at hspace
    split at h
    · simp only [Except.ok.injEq, Prod.mk.injEq] at h
      rw [← h.2]
      omega
    · split at h
      · cases hk : readKeyText (c :: q) with
        | error fault => simp [hk, Except.map] at h
        | ok p =>
          simp only [hk, Except.map, Except.ok.injEq, Prod.mk.injEq] at h
          have := length_lt_of_readKeyText (s := p.1) (r := p.2) hk
          rw [List.length_cons] at this
          rw [← h.2]
          omega
      · split at h
        · cases hk : readKeyText q with
          | error fault => simp [hk, Except.map] at h
          | ok p =>
            simp only [hk, Except.map, Except.ok.injEq, Prod.mk.injEq] at h
            have := length_lt_of_readKeyText (s := p.1) (r := p.2) hk
            rw [← h.2]
            omega
        · simp at h

/-! ## The constants -/

/-- A colon and a number after it. -/
def readConstant (t : Text) : Except Fault (Float × Text) :=
  match colon t with
  | .error fault => .error fault
  | .ok r => readNumber r

theorem length_lt_of_readConstant {t r : Text} {x : Float} (h : readConstant t = .ok (x, r)) :
    r.length < t.length := by
  unfold readConstant at h
  split at h
  · simp at h
  · next q hq =>
    exact Nat.lt_trans (length_lt_of_readNumber h) (Json.length_lt_of_colon hq)

/-- The members of the constants, from after the opening bracket, added to those read before. -/
def readMembers (first : Bool) (constants : NameMap) (t : Text) :
    Except Fault (NameMap × Text) :=
  match hkey : readKey first t with
  | .error fault => .error fault
  | .ok (none, r) => .ok (constants, r)
  | .ok (some name, r) =>
      have := length_lt_of_readKey hkey
      match hvalue : readConstant r with
      | .error fault => .error fault
      | .ok (x, r) =>
          have := length_lt_of_readConstant hvalue
          readMembers false (constants.insert name x) r
termination_by t.length

/-- The constants. -/
def readConstants (t : Text) : Except Fault (NameMap × Text) :=
  match skipSpace t with
  | [] => .error .ended
  | c :: r => if c = '\x7b' then readMembers true .empty r else .error (mismatch c r)

theorem length_lt_of_readMembers {first : Bool} {constants result : NameMap} {t r : Text}
    (h : readMembers first constants t = .ok (result, r)) : r.length < t.length := by
  fun_induction readMembers first constants t with
  | case1 => simp at h
  | case2 first constants t q hkey =>
    simp only [Except.ok.injEq, Prod.mk.injEq] at h
    exact h.2 ▸ length_lt_of_readKey hkey
  | case3 => simp at h
  | case4 first constants t name q hkey hlt x p hvalue hlt' ih =>
    have := ih h
    omega

theorem length_lt_of_readConstants {result : NameMap} {t r : Text}
    (h : readConstants t = .ok (result, r)) : r.length < t.length := by
  unfold readConstants at h
  split at h
  · simp at h
  · next c q hq =>
    split at h
    · exact Nat.lt_trans (length_lt_of_readMembers h) (Json.length_lt_of_skipSpace hq)
    · simp at h

/-! ## The settings -/

/-- The three fields of the settings. -/
inductive Field
  | renderPrefix | insertPrefix | constants
deriving DecidableEq, Repr

/-- The field of a key. -/
def Field.ofKey? (key : Text) : Option Field :=
  if key = "render_prefix".toList then some .renderPrefix
  else if key = "insert_prefix".toList then some .insertPrefix
  else if key = "constants".toList then some .constants
  else none

/-- The value of a field, put into the settings. -/
def readField (s : Settings) (field : Field) (t : Text) : Except Fault (Settings × Text) :=
  match field with
  | .renderPrefix => (readText t).map fun p => ({ s with renderPrefix := p.1 }, p.2)
  | .insertPrefix => (readText t).map fun p => ({ s with insertPrefix := p.1 }, p.2)
  | .constants => (readConstants t).map fun p => ({ s with constants := p.1 }, p.2)

theorem length_lt_of_readField {s result : Settings} {field : Field} {t r : Text}
    (h : readField s field t = .ok (result, r)) : r.length < t.length := by
  cases field with
  | renderPrefix =>
    cases hv : readText t with
    | error fault => simp [readField, hv, Except.map] at h
    | ok p =>
      simp only [readField, hv, Except.map, Except.ok.injEq, Prod.mk.injEq] at h
      exact h.2 ▸ length_lt_of_readText (s := p.1) (r := p.2) hv
  | insertPrefix =>
    cases hv : readText t with
    | error fault => simp [readField, hv, Except.map] at h
    | ok p =>
      simp only [readField, hv, Except.map, Except.ok.injEq, Prod.mk.injEq] at h
      exact h.2 ▸ length_lt_of_readText (s := p.1) (r := p.2) hv
  | constants =>
    cases hv : readConstants t with
    | error fault => simp [readField, hv, Except.map] at h
    | ok p =>
      simp only [readField, hv, Except.map, Except.ok.injEq, Prod.mk.injEq] at h
      have hp : readConstants t = .ok (p.1, p.2) := hv
      exact h.2 ▸ length_lt_of_readConstants hp

/-- What follows the key of a member that is not wanted: a colon and a value. -/
def skipMember (t : Text) : Except Fault Text :=
  match colon t with
  | .error fault => .error fault
  | .ok r => Json.skipValue r

/-- What follows the key of a field: a colon and its value. -/
def readMember (s : Settings) (field : Field) (t : Text) : Except Fault (Settings × Text) :=
  match colon t with
  | .error fault => .error fault
  | .ok r => readField s field r

theorem length_le_of_skipMember {t r : Text} (h : skipMember t = .ok r) :
    r.length ≤ t.length := by
  unfold skipMember at h
  split at h
  · simp at h
  · next q hq =>
    exact Nat.le_trans (Json.length_le_of_skip h) (Nat.le_of_lt (Json.length_lt_of_colon hq))

theorem length_lt_of_readMember {s result : Settings} {field : Field} {t r : Text}
    (h : readMember s field t = .ok (result, r)) : r.length < t.length := by
  unfold readMember at h
  split at h
  · simp at h
  · next q hq => exact Nat.lt_trans (length_lt_of_readField h) (Json.length_lt_of_colon hq)

/-- The members of the settings, from after the opening bracket; `seen` are the fields read
before. -/
def readObject (first : Bool) (seen : List Field) (s : Settings) (t : Text) :
    Except Fault (Settings × Text) :=
  match hkey : readKey first t with
  | .error fault => .error fault
  | .ok (none, r) => .ok (s, r)
  | .ok (some key, r) =>
      have := length_lt_of_readKey hkey
      match Field.ofKey? key with
      | none =>
          match hskip : skipMember r with
          | .error fault => .error fault
          | .ok r =>
              have := length_le_of_skipMember hskip
              readObject false seen s r
      | some field =>
          if field ∈ seen then .error .mismatched
          else
            match hvalue : readMember s field r with
            | .error fault => .error fault
            | .ok (s, r) =>
                have := length_lt_of_readMember hvalue
                readObject false (field :: seen) s r
termination_by t.length

/-- Whether an array has a further element, and the text from there on.  Before every element
but the first there has to be a comma.  The closing bracket is left. -/
def nextElement (first : Bool) (t : Text) : Except Fault (Bool × Text) :=
  match skipSpace t with
  | [] => .error .ended
  | c :: r =>
      if c = ']' then .ok (false, c :: r)
      else if first then .ok (true, c :: r)
      else if c = ',' then
        match skipSpace r with
        | [] => .error .ended
        | d :: q => if d = ']' then .error .malformed else .ok (true, d :: q)
      else .error .malformed

/-- The end of an array. -/
def arrayEnd (t : Text) : Except Fault Text :=
  match skipSpace t with
  | [] => .error .ended
  | c :: r => if c = ']' then .ok r else .error .malformed

/-- The elements of the settings, from after the opening bracket. -/
def readArray (first : Bool) (s : Settings) :
    List Field → Text → Except Fault (Settings × Text)
  | [], t => (arrayEnd t).map fun r => (s, r)
  | field :: fields, t =>
      match nextElement first t with
      | .error fault => .error fault
      | .ok (false, r) => (arrayEnd r).map fun r => (s, r)
      | .ok (true, r) =>
          match readField s field r with
          | .error fault => .error fault
          | .ok (s, r) => readArray false s fields r

/-- Settings, as an object or an array. -/
def readSettings (t : Text) : Except Fault (Settings × Text) :=
  match skipSpace t with
  | [] => .error .ended
  | c :: r =>
      if c = '\x7b' then readObject true [] default r
      else if c = '[' then readArray true default [.renderPrefix, .insertPrefix, .constants] r
      else .error (mismatch c r)

/-- Settings that fill the whole text. -/
def readAll (t : Text) : Except Fault Settings :=
  match readSettings t with
  | .error fault => .error fault
  | .ok (s, r) => if skipSpace r = [] then .ok s else .error .malformed

/-- The settings that a text holds. -/
def ofJson (t : Text) : Except Refusal Settings :=
  match readAll t with
  | .error fault => .error (.unreadable fault)
  | .ok s =>
      match check s with
      | .error refusal => .error refusal
      | .ok () => .ok s

end Reckoner.Settings
