import Reckoner.Json.Basic

/-!
# JSON strings

A string stands between quote marks.  Control characters, quote marks and backslashes are
escaped.

* `\"`, `\\`, `\/`, `\b`, `\f`, `\n`, `\r` and `\t` stand for one character each.
* `\u` with four hexadecimal digits stands for a UTF-16 unit.  A leading surrogate has to be
  followed at once by the escape of a trailing one, and the two stand for one character.
* Where fewer than four bytes of UTF-8 are left for the digits, the text ends too early.

`skipBody` reads over a string whose contents are not wanted.  It does not ask surrogates to be
paired.

`encode` writes a string.  It escapes no more than it has to.
-/

namespace Reckoner.Json

/-! ## Reading -/

/-- The value of a hexadecimal digit. -/
def hexValue? (c : Char) : Option Nat :=
  if '0' ≤ c ∧ c ≤ '9' then some (c.toNat - '0'.toNat)
  else if 'a' ≤ c ∧ c ≤ 'f' then some (c.toNat - 'a'.toNat + 10)
  else if 'A' ≤ c ∧ c ≤ 'F' then some (c.toNat - 'A'.toNat + 10)
  else none

/-- The number that four hexadecimal digits write. -/
def unit? (a b c d : Char) : Option Nat := do
  let a ← hexValue? a
  let b ← hexValue? b
  let c ← hexValue? c
  let d ← hexValue? d
  return ((a * 16 + b) * 16 + c) * 16 + d

/-- The number of bytes of a text in UTF-8. -/
def byteCount (t : Text) : Nat := t.foldl (fun n c => n + c.utf8Size) 0

/-- The UTF-16 unit after `\u`. -/
def hexUnit (t : Text) : Except Fault (Nat × Text) :=
  match t with
  | a :: b :: c :: d :: r =>
      match unit? a b c d with
      | some n => .ok (n, r)
      | none => .error .malformed
  | t => if byteCount t < 4 then .error .ended else .error .malformed

/-- Whether a unit is the first of a pair. -/
def isLeading (n : Nat) : Bool := 0xD800 ≤ n && n ≤ 0xDBFF

/-- Whether a unit is the second of a pair. -/
def isTrailing (n : Nat) : Bool := 0xDC00 ≤ n && n ≤ 0xDFFF

/-- The character of a pair of units. -/
def pairChar (first second : Nat) : Char :=
  Char.ofNat ((first - 0xD800) * 0x400 + (second - 0xDC00) + 0x10000)

/-- The escape of the second unit of a pair. -/
def secondUnit (t : Text) : Except Fault (Nat × Text) :=
  match t with
  | [] => .error .ended
  | '\\' :: [] => .error .ended
  | '\\' :: 'u' :: r =>
      match hexUnit r with
      | .error fault => .error fault
      | .ok (n, r) => if isTrailing n then .ok (n, r) else .error .malformed
  | _ => .error .malformed

/-- The character after `\u`. -/
def unicodeEscape (t : Text) : Except Fault (Char × Text) :=
  match hexUnit t with
  | .error fault => .error fault
  | .ok (n, r) =>
      if isTrailing n then .error .malformed
      else if isLeading n then
        match secondUnit r with
        | .error fault => .error fault
        | .ok (m, r) => .ok (pairChar n m, r)
      else .ok (Char.ofNat n, r)

/-- The character that a letter after a backslash stands for. -/
def simpleEscape? : Char → Option Char
  | '"' => some '"'
  | '\\' => some '\\'
  | '/' => some '/'
  | 'b' => some '\x08'
  | 'f' => some '\x0c'
  | 'n' => some '\n'
  | 'r' => some '\r'
  | 't' => some '\t'
  | _ => none

/-- The character after a backslash. -/
def escaped (t : Text) : Except Fault (Char × Text) :=
  match t with
  | [] => .error .ended
  | 'u' :: r => unicodeEscape r
  | c :: r =>
      match simpleEscape? c with
      | some x => .ok (x, r)
      | none => .error .malformed

theorem length_lt_of_hexUnit {t r : Text} {n : Nat} (h : hexUnit t = .ok (n, r)) :
    r.length < t.length := by
  unfold hexUnit at h
  split at h
  · split at h
    · simp only [Except.ok.injEq, Prod.mk.injEq] at h
      simp only [List.length_cons, ← h.2]
      omega
    · simp at h
  · split at h <;> simp at h

theorem length_lt_of_secondUnit {t r : Text} {n : Nat} (h : secondUnit t = .ok (n, r)) :
    r.length < t.length := by
  unfold secondUnit at h
  split at h
  · simp at h
  · simp at h
  · next q =>
    split at h
    · simp at h
    · next m s hs =>
      split at h
      · simp only [Except.ok.injEq, Prod.mk.injEq] at h
        have := length_lt_of_hexUnit hs
        simp only [List.length_cons, ← h.2]
        omega
      · simp at h
  · simp at h

theorem length_lt_of_unicodeEscape {t r : Text} {c : Char} (h : unicodeEscape t = .ok (c, r)) :
    r.length < t.length := by
  unfold unicodeEscape at h
  split at h
  · simp at h
  · next n s hs =>
    have := length_lt_of_hexUnit hs
    split at h
    · simp at h
    · split at h
      · split at h
        · simp at h
        · next m q hq =>
          have := length_lt_of_secondUnit hq
          simp only [Except.ok.injEq, Prod.mk.injEq] at h
          rw [← h.2]
          omega
      · simp only [Except.ok.injEq, Prod.mk.injEq] at h
        rw [← h.2]
        omega

theorem length_lt_of_escaped {t r : Text} {c : Char} (h : escaped t = .ok (c, r)) :
    r.length < t.length := by
  unfold escaped at h
  split at h
  · simp at h
  · have := length_lt_of_unicodeEscape h
    simp only [List.length_cons]
    omega
  · split at h
    · simp only [Except.ok.injEq, Prod.mk.injEq] at h
      simp [← h.2]
    · simp at h

/-- The contents of a string from after its first quote mark, and what follows it. -/
def stringBody (t : Text) : Except Fault (Text × Text) :=
  match t with
  | [] => .error .ended
  | '"' :: r => .ok ([], r)
  | '\\' :: r =>
      match h : escaped r with
      | .error fault => .error fault
      | .ok (c, r) =>
          have := length_lt_of_escaped h
          (stringBody r).map fun s => (c :: s.1, s.2)
  | c :: r =>
      if c < ' ' then .error .malformed else (stringBody r).map fun s => (c :: s.1, s.2)
termination_by t.length

/-- What follows the escape after a backslash, whatever it stands for. -/
def skipEscape (t : Text) : Except Fault Text :=
  match t with
  | [] => .error .ended
  | 'u' :: r => (hexUnit r).map Prod.snd
  | c :: r => if (simpleEscape? c).isSome then .ok r else .error .malformed

theorem length_lt_of_skipEscape {t r : Text} (h : skipEscape t = .ok r) :
    r.length < t.length := by
  unfold skipEscape at h
  split at h
  · simp at h
  · next q =>
    cases hq : hexUnit q with
    | error fault => simp [hq, Except.map] at h
    | ok p =>
      have := length_lt_of_hexUnit (n := p.1) (r := p.2) hq
      simp only [hq, Except.map, Except.ok.injEq] at h
      simp only [List.length_cons, ← h]
      omega
  · split at h
    · simp only [Except.ok.injEq] at h
      simp [h]
    · simp at h

/-- What follows a string, from after its first quote mark. -/
def skipBody (t : Text) : Except Fault Text :=
  match t with
  | [] => .error .ended
  | '"' :: r => .ok r
  | '\\' :: r =>
      match h : skipEscape r with
      | .error fault => .error fault
      | .ok r =>
          have := length_lt_of_skipEscape h
          skipBody r
  | c :: r => if c < ' ' then .error .malformed else skipBody r
termination_by t.length

theorem length_lt_of_stringBody {t s r : Text} (h : stringBody t = .ok (s, r)) :
    r.length < t.length := by
  fun_induction stringBody t generalizing s with
  | case1 => simp at h
  | case2 q => simp_all
  | case3 => simp at h
  | case4 q c p hp hlt ih =>
    cases hb : stringBody p with
    | error fault => simp [hb, Except.map] at h
    | ok x =>
      simp only [hb, Except.map, Except.ok.injEq, Prod.mk.injEq] at h
      have := ih (s := x.1) (by rw [hb, ← h.2])
      simp only [List.length_cons]
      omega
  | case5 => simp at h
  | case6 c q _ _ _ ih =>
    cases hb : stringBody q with
    | error fault => simp [hb, Except.map] at h
    | ok x =>
      simp only [hb, Except.map, Except.ok.injEq, Prod.mk.injEq] at h
      have := ih (s := x.1) (by rw [hb, ← h.2])
      simp only [List.length_cons]
      omega

theorem length_lt_of_skipBody {t r : Text} (h : skipBody t = .ok r) : r.length < t.length := by
  fun_induction skipBody t with
  | case1 => simp at h
  | case2 q => simp_all
  | case3 => simp at h
  | case4 q p hp hlt ih =>
    have := ih h
    simp only [List.length_cons]
    omega
  | case5 => simp at h
  | case6 c q _ _ _ ih =>
    have := ih h
    simp only [List.length_cons]
    omega

/-! ## Writing -/

/-- A control character as `\u` with four digits. -/
def controlEscape (c : Char) : Text :=
  let digits := Nat.toDigits 16 c.toNat
  '\\' :: 'u' :: (List.replicate (4 - digits.length) '0' ++ digits)

/-- A character as it stands in a string. -/
def encodeChar (c : Char) : Text :=
  match c with
  | '"' => ['\\', '"']
  | '\\' => ['\\', '\\']
  | '\x08' => ['\\', 'b']
  | '\x0c' => ['\\', 'f']
  | '\n' => ['\\', 'n']
  | '\r' => ['\\', 'r']
  | '\t' => ['\\', 't']
  | c => if c < ' ' then controlEscape c else [c]

/-- A string with its quote marks. -/
def encode (t : Text) : Text := '"' :: t.flatMap encodeChar ++ ['"']

example : encode "a\"\n\x01é".toList = "\"a\\\"\\n\\u0001é\"".toList := by decide

example : stringBody "\\u00e9\\ud83d\\ude00\"x".toList = .ok ("é😀".toList, ['x']) := by cbv

end Reckoner.Json
