import Reckoner.Json.Number
import Reckoner.Json.Quoted

/-!
# Values that are not wanted

`skipValue` reads over one value and checks only its form: surrogates need not be paired, and a
number may be beyond the floats.  A text that ends inside a number is malformed here.

Values may be nested to any depth.  The arrays and objects around the current place wait on a
stack, and reading goes through the text once.

`mismatch` is for a value in a place where another kind is wanted.  The value is read as far as
its kind needs: words, numbers and strings to their end, arrays and objects not at all.
-/

namespace Reckoner.Json

/-- An array or object around the current place. -/
inductive Frame
  | array | object
deriving DecidableEq, Repr

/-- The bracket that closes an array or object. -/
def Frame.closer : Frame → Char
  | .array => ']'
  | .object => '}'

/-- What has to come next. -/
inductive Expected
  /-- A value. -/
  | value
  /-- The key of a member of an object. -/
  | key
  /-- A comma, or the end of what is around. -/
  | separator
deriving DecidableEq, Repr

/-- What follows a comma in an array or object. -/
def Frame.next : Frame → Expected
  | .array => .value
  | .object => .key

/-- What follows a number, whatever its value. -/
def skipNumber (t : Text) : Except Fault Text := (numeral .malformed t).map Prod.snd

/-- What follows a word, number or string. -/
def skipScalar (c : Char) (r : Text) : Except Fault Text :=
  if c = 'n' then expectWord "ull".toList r
  else if c = 't' then expectWord "rue".toList r
  else if c = 'f' then expectWord "alse".toList r
  else if c = '-' ∨ Text.isAsciiDigit c then skipNumber (c :: r)
  else if c = '"' then skipBody r
  else .error .malformed

/-- What follows a colon that has to come next. -/
def colon (t : Text) : Except Fault Text :=
  match skipSpace t with
  | [] => .error .ended
  | c :: r => if c = ':' then .ok r else .error .malformed

theorem length_lt_of_colon {t r : Text} (h : colon t = .ok r) : r.length < t.length := by
  unfold colon at h
  split at h
  · simp at h
  · next c q hq =>
    split at h
    · simp only [Except.ok.injEq] at h
      exact h ▸ length_lt_of_skipSpace hq
    · simp at h

theorem length_lt_of_skipNumber {t r : Text} (h : skipNumber t = .ok r) :
    r.length < t.length := by
  unfold skipNumber at h
  cases hn : numeral .malformed t with
  | error fault => simp [hn, Except.map] at h
  | ok p =>
    simp only [hn, Except.map, Except.ok.injEq] at h
    exact h ▸ length_lt_of_numeral (n := p.1) (r := p.2) hn

theorem length_le_of_skipScalar {c : Char} {t r : Text} (h : skipScalar c t = .ok r) :
    r.length ≤ t.length := by
  unfold skipScalar at h
  repeat' split at h
  · exact length_le_of_expectWord h
  · exact length_le_of_expectWord h
  · exact length_le_of_expectWord h
  · have := length_lt_of_skipNumber h
    simp only [List.length_cons] at this
    omega
  · exact Nat.le_of_lt (length_lt_of_skipBody h)
  · simp at h

/-- What follows the key of a member and its colon. -/
def skipKey (t : Text) : Except Fault Text :=
  match skipSpace t with
  | [] => .error .ended
  | c :: r =>
      if c = '"' then
        match skipBody r with
        | .error fault => .error fault
        | .ok r => colon r
      else .error .malformed

theorem length_lt_of_skipKey {t r : Text} (h : skipKey t = .ok r) : r.length < t.length := by
  unfold skipKey at h
  split at h
  · simp at h
  · next c q hq =>
    have hspace := length_lt_of_skipSpace hq
    split at h
    · split at h
      · simp at h
      · next p hp =>
        have hbody := length_lt_of_skipBody hp
        have := length_lt_of_colon h
        omega
    · simp at h

/-- What follows the value inside `frames` of which `expected` comes next. -/
def skip (frames : List Frame) (expected : Expected) (t : Text) : Except Fault Text :=
  match expected with
  | .value =>
      match h : skipSpace t with
      | [] => .error .ended
      | c :: r =>
          have := length_lt_of_skipSpace h
          if c = '[' then
            match h : skipSpace r with
            | [] => .error .ended
            | d :: s =>
                have := length_lt_of_skipSpace h
                if d = ']' then skip frames .separator s else skip (.array :: frames) .value r
          else if c = '\x7b' then
            match h : skipSpace r with
            | [] => .error .ended
            | d :: s =>
                have := length_lt_of_skipSpace h
                if d = '\x7d' then skip frames .separator s else skip (.object :: frames) .key r
          else
            match h : skipScalar c r with
            | .error fault => .error fault
            | .ok s =>
                have := length_le_of_skipScalar h
                skip frames .separator s
  | .key =>
      match h : skipKey t with
      | .error fault => .error fault
      | .ok r =>
          have := length_lt_of_skipKey h
          skip frames .value r
  | .separator =>
      match frames with
      | [] => .ok t
      | frame :: outer =>
          match h : skipSpace t with
          | [] => .error .ended
          | c :: r =>
              have := length_lt_of_skipSpace h
              if c = ',' then skip (frame :: outer) frame.next r
              else if c = frame.closer then skip outer .separator r
              else .error .malformed
termination_by t.length

/-- What follows one value of any kind. -/
def skipValue (t : Text) : Except Fault Text := skip [] .value t

theorem length_le_of_skip {frames : List Frame} {expected : Expected} {t r : Text}
    (h : skip frames expected t = .ok r) : r.length ≤ t.length := by
  fun_induction skip frames expected t <;> grind

/-- The fault of a value that starts with `c` where another kind is wanted. -/
def mismatch (c : Char) (r : Text) : Fault :=
  let scalar : Except Fault Text :=
    if c = '[' ∨ c = '\x7b' then .ok r
    else if c = '"' then (stringBody r).map Prod.snd
    else if c = '-' ∨ Text.isAsciiDigit c then (number (c :: r)).map Prod.snd
    else skipScalar c r
  match scalar with
  | .error fault => fault
  | .ok _ => .mismatched

example : skipValue "[1,[]] x".toList = .ok " x".toList := by cbv

example : skipValue "[1,]".toList = .error .malformed := by cbv

end Reckoner.Json
