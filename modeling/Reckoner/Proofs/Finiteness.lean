import Reckoner.Proofs.Overflow
import Reckoner.Proofs.Persistence

/-!
# Settings that are read are finite

The reader of settings comes to the numbers among the constants one after the other (`ConstantAt`).
What it gives holds no other numbers than these (`constantAt_of_readAll`), and a number that is
read is finite.  So settings that are read are always valid, and the check that follows never
refuses them (`ofJson_finite`).

A number that cannot be read makes the whole text unreadable (`readAll_of_constantAt`).  That goes
for the numbers that the nearest float is infinite for, but for the few that are rounded down
(`ofJson_rounded_down`).
-/

namespace Reckoner

namespace Symbols

/-! ## Finite symbols -/

open Number (isFinite)

theorem isFinite_insertAll {s : Symbols} {pairs : List (Text × Float)}
    (hs : ∀ p ∈ s.constants.entries, isFinite p.2 = true)
    (hpairs : ∀ p ∈ pairs, isFinite p.2 = true) :
    ∀ p ∈ (s.insertAll pairs).constants.entries, isFinite p.2 = true := by
  induction pairs generalizing s with
  | nil => exact hs
  | cons q pairs ih =>
    refine ih (s := s.insert q.1 q.2) (fun p hp => ?_) fun p hp => hpairs p (.tail _ hp)
    rcases NameMap.mem_insertEntry hp with rfl | hp
    · exact hpairs q List.mem_cons_self
    · exact hs p hp

theorem isFinite_builtIn : ∀ p ∈ builtIn.constants.entries, isFinite p.2 = true := by
  decide +kernel

end Symbols

namespace Settings

open Json (Fault Numeral RoundedDown colon skipSpace)
open Number (infinityBits isFinite ofMagnitude)

variable {t q r name : Text} {s s' : Settings} {p : Text × Float} {fault : Fault}

/-! ## Where the constants are -/

/-- From `t` on the members of the constants are read, and the number of `name` is at `r`. -/
inductive MemberAt : Bool → Text → Text → Text → Prop
  | here {first : Bool} {t q r name : Text} :
      readKey first t = .ok (some name, q) → colon q = .ok r → MemberAt first t name r
  | later {first : Bool} {t q r name key rest : Text} {x : Float} :
      readKey first t = .ok (some key, q) → readConstant q = .ok (x, rest) →
      MemberAt false rest name r → MemberAt first t name r

/-- At `t` the constants are read, and the number of `name` is at `r`. -/
def ValueAt (t name r : Text) : Prop := ∃ q, skipSpace t = '\x7b' :: q ∧ MemberAt true q name r

/-- From `t` on the members of the settings are read, and the number of `name` is at `r`. -/
inductive ObjectAt : Bool → List Field → Settings → Text → Text → Text → Prop
  | here {first : Bool} {seen : List Field} {s : Settings} {t q r key name rest : Text} :
      readKey first t = .ok (some key, q) → Field.ofKey? key = some .constants →
      .constants ∉ seen → colon q = .ok rest → ValueAt rest name r → ObjectAt first seen s t name r
  | later {first : Bool} {seen : List Field} {s s' : Settings} {field : Field}
      {t q r key name rest : Text} :
      readKey first t = .ok (some key, q) → Field.ofKey? key = some field → field ∉ seen →
      readMember s field q = .ok (s', rest) → ObjectAt false (field :: seen) s' rest name r →
      ObjectAt first seen s t name r
  | skipped {first : Bool} {seen : List Field} {s : Settings} {t q r key name rest : Text} :
      readKey first t = .ok (some key, q) → Field.ofKey? key = none →
      skipMember q = .ok rest → ObjectAt false seen s rest name r → ObjectAt first seen s t name r

/-- From `t` on the elements of the settings are read, and the number of `name` is at `r`. -/
inductive ArrayAt : Bool → Settings → List Field → Text → Text → Text → Prop
  | here {first : Bool} {s : Settings} {fields : List Field} {t q r name : Text} :
      nextElement first t = .ok (true, q) → ValueAt q name r →
      ArrayAt first s (.constants :: fields) t name r
  | later {first : Bool} {s s' : Settings} {field : Field} {fields : List Field}
      {t q r name rest : Text} :
      nextElement first t = .ok (true, q) → readField s field q = .ok (s', rest) →
      ArrayAt false s' fields rest name r → ArrayAt first s (field :: fields) t name r

/-- The text is read up to the number of the constant `name`, which is at `r`. -/
inductive ConstantAt (t name r : Text) : Prop
  | object {q : Text} :
      skipSpace t = '\x7b' :: q → ObjectAt true [] default q name r → ConstantAt t name r
  | array {q : Text} :
      skipSpace t = '[' :: q →
      ArrayAt true default [.renderPrefix, .insertPrefix, .constants] q name r →
      ConstantAt t name r

/-! ## A number that cannot be read -/

theorem readConstant_of_colon (h : colon t = .ok r) : readConstant t = readNumber r := by
  rw [readConstant, h]

theorem readMembers_of_memberAt {first : Bool} {m : NameMap} (h : MemberAt first t name r)
    (hr : readNumber r = .error fault) : readMembers first m t = .error fault := by
  induction h generalizing m with
  | here hkey hcolon =>
    rw [readMembers_of_key hkey, readConstant_of_colon hcolon, hr]
    rfl
  | later hkey hvalue _ ih => exact (readMembers_member hkey hvalue).trans (ih hr)

theorem readConstants_of_valueAt (h : ValueAt t name r) (hr : readNumber r = .error fault) :
    readConstants t = .error fault := by
  obtain ⟨q, hq, hmember⟩ := h
  rw [readConstants, hq]
  exact (if_pos rfl).trans (readMembers_of_memberAt hmember hr)

theorem readField_of_valueAt (h : ValueAt t name r) (hr : readNumber r = .error fault) :
    readField s .constants t = .error fault := by
  rw [readField, readConstants_of_valueAt h hr]
  rfl

theorem readMember_of_colon {field : Field} (h : colon t = .ok r) :
    readMember s field t = readField s field r := by
  rw [readMember, h]

/-- A member that is not wanted is skipped. -/
theorem readObject_skipped {first : Bool} {seen : List Field} {key : Text}
    (hkey : readKey first t = .ok (some key, q)) (hfield : Field.ofKey? key = none)
    (hskip : skipMember q = .ok r) :
    readObject first seen s t = readObject false seen s r := by
  rw [readObject]
  split
  · next h => rw [hkey] at h; cases h
  · next h => rw [hkey] at h; cases h
  · next h =>
    rw [hkey] at h
    cases h
    split
    · split
      · next h => rw [hskip] at h; cases h
      · next h => rw [hskip] at h; cases h; rfl
    · next h => rw [hfield] at h; cases h

theorem readObject_of_objectAt {first : Bool} {seen : List Field}
    (h : ObjectAt first seen s t name r) (hr : readNumber r = .error fault) :
    readObject first seen s t = .error fault := by
  induction h with
  | here hkey hfield hseen hcolon hvalue =>
    rw [readObject_of_key hkey hfield hseen, readMember_of_colon hcolon,
      readField_of_valueAt hvalue hr]
    rfl
  | later hkey hfield hseen hvalue _ ih =>
    exact (readObject_field hkey hfield hseen hvalue).trans (ih hr)
  | skipped hkey hfield hskip _ ih => exact (readObject_skipped hkey hfield hskip).trans (ih hr)

theorem readArray_of_arrayAt {first : Bool} {fields : List Field}
    (h : ArrayAt first s fields t name r) (hr : readNumber r = .error fault) :
    readArray first s fields t = .error fault := by
  induction h with
  | here hnext hvalue =>
    rw [readArray, hnext]
    dsimp only
    rw [readField_of_valueAt hvalue hr]
  | later hnext hvalue _ ih =>
    rw [readArray, hnext]
    dsimp only
    rw [hvalue]
    exact ih hr

/-- A number that cannot be read makes the text unreadable, with the same fault. -/
theorem readAll_of_constantAt (h : ConstantAt t name r) (hr : readNumber r = .error fault) :
    readAll t = .error fault := by
  have hsettings : readSettings t = .error fault := by
    rw [readSettings]
    cases h with
    | object hq hobject =>
      rw [hq]
      exact (if_pos rfl).trans (readObject_of_objectAt hobject hr)
    | array hq harray =>
      rw [hq]
      refine (if_neg (by decide)).trans ((if_pos rfl).trans (readArray_of_arrayAt harray hr))
  rw [readAll, hsettings]

/-! ## Where the constants come from -/

theorem memberAt_of_readMembers {first : Bool} {m m' : NameMap}
    (h : readMembers first m t = .ok (m', r)) (hp : p ∈ m'.entries) :
    p ∈ m.entries ∨ ∃ q rest, MemberAt first t p.1 q ∧ readNumber q = .ok (p.2, rest) := by
  fun_induction readMembers first m t with
  | case1 => cases h
  | case2 =>
    cases h
    exact .inl hp
  | case3 => cases h
  | case4 first m t key q hkey _ x rest hvalue _ ih =>
    rcases ih h with hp | ⟨q', rest', hmember, hnumber⟩
    · rcases NameMap.mem_insertEntry hp with rfl | hp
      · have hconstant := hvalue
        rw [readConstant] at hconstant
        split at hconstant
        · cases hconstant
        · next hcolon => exact .inr ⟨_, _, .here hkey hcolon, hconstant⟩
      · exact .inl hp
    · exact .inr ⟨q', rest', .later hkey hvalue hmember, hnumber⟩

theorem valueAt_of_readField {field : Field} (h : readField s field t = .ok (s', r))
    (hp : p ∈ s'.constants.entries) : p ∈ s.constants.entries ∨
      field = .constants ∧ ∃ q rest, ValueAt t p.1 q ∧ readNumber q = .ok (p.2, rest) := by
  cases field with
  | renderPrefix =>
    obtain ⟨_, -, h⟩ := exists_of_map_eq_ok h
    cases h
    exact .inl hp
  | insertPrefix =>
    obtain ⟨_, -, h⟩ := exists_of_map_eq_ok h
    cases h
    exact .inl hp
  | constants =>
    obtain ⟨⟨m, rest⟩, hm, h⟩ := exists_of_map_eq_ok h
    cases h
    rw [readConstants] at hm
    split at hm
    · cases hm
    · next c body hbody =>
      split at hm
      · next hc =>
        rcases memberAt_of_readMembers hm hp with hp | ⟨q, rest', hmember, hnumber⟩
        · cases hp
        · exact .inr ⟨rfl, q, rest', ⟨body, hc ▸ hbody, hmember⟩, hnumber⟩
      · cases hm

theorem objectAt_of_readObject {first : Bool} {seen : List Field}
    (h : readObject first seen s t = .ok (s', r)) (hp : p ∈ s'.constants.entries) :
    p ∈ s.constants.entries ∨
      ∃ q rest, ObjectAt first seen s t p.1 q ∧ readNumber q = .ok (p.2, rest) := by
  fun_induction readObject first seen s t with
  | case1 => cases h
  | case2 =>
    cases h
    exact .inl hp
  | case3 => cases h
  | case4 first seen s t key q hkey _ hfield rest hskip _ ih =>
    rcases ih h with hp | ⟨q', rest', hobject, hnumber⟩
    · exact .inl hp
    · exact .inr ⟨q', rest', .skipped hkey hfield hskip hobject, hnumber⟩
  | case5 => cases h
  | case6 => cases h
  | case7 first seen s t key q hkey _ field hfield hseen s' rest hvalue _ ih =>
    rcases ih h with hp | ⟨q', rest', hobject, hnumber⟩
    · have hmember := hvalue
      rw [readMember] at hmember
      split at hmember
      · cases hmember
      · next hcolon =>
        rcases valueAt_of_readField hmember hp with hp | ⟨rfl, q', rest', hvalueAt, hnumber⟩
        · exact .inl hp
        · exact .inr ⟨q', rest', .here hkey hfield hseen hcolon hvalueAt, hnumber⟩
    · exact .inr ⟨q', rest', .later hkey hfield hseen hvalue hobject, hnumber⟩

theorem arrayAt_of_readArray {first : Bool} {fields : List Field}
    (h : readArray first s fields t = .ok (s', r)) (hp : p ∈ s'.constants.entries) :
    p ∈ s.constants.entries ∨
      ∃ q rest, ArrayAt first s fields t p.1 q ∧ readNumber q = .ok (p.2, rest) := by
  fun_induction readArray first s fields t with
  | case1 =>
    obtain ⟨_, -, h⟩ := exists_of_map_eq_ok h
    cases h
    exact .inl hp
  | case2 => cases h
  | case3 =>
    obtain ⟨_, -, h⟩ := exists_of_map_eq_ok h
    cases h
    exact .inl hp
  | case4 => cases h
  | case5 first s t field fields q hnext s' rest hvalue ih =>
    rcases ih h with hp | ⟨q', rest', harray, hnumber⟩
    · rcases valueAt_of_readField hvalue hp with hp | ⟨rfl, q', rest', hvalueAt, hnumber⟩
      · exact .inl hp
      · exact .inr ⟨q', rest', .here hnext hvalueAt, hnumber⟩
    · exact .inr ⟨q', rest', .later hnext hvalue harray, hnumber⟩

/-- Every constant of settings that are read is a number of the text. -/
theorem constantAt_of_readAll (h : readAll t = .ok s) (hp : p ∈ s.constants.entries) :
    ∃ q rest, ConstantAt t p.1 q ∧ readNumber q = .ok (p.2, rest) := by
  rw [readAll] at h
  split at h
  · cases h
  · next s' rest hsettings =>
    split at h
    · cases h
      rw [readSettings] at hsettings
      split at hsettings
      · cases hsettings
      · next c body hbody =>
        split at hsettings
        · next hc =>
          rcases objectAt_of_readObject hsettings hp with hp | ⟨q, rest, hobject, hnumber⟩
          · cases hp
          · exact ⟨q, rest, .object (hc ▸ hbody) hobject, hnumber⟩
        · split at hsettings
          · next hc =>
            rcases arrayAt_of_readArray hsettings hp with hp | ⟨q, rest, harray, hnumber⟩
            · cases hp
            · exact ⟨q, rest, .array (hc ▸ hbody) harray, hnumber⟩
          · cases hsettings
    · cases h

/-! ## Finite settings -/

theorem isFinite_of_readNumber {x : Float} (h : readNumber t = .ok (x, r)) : isFinite x = true := by
  unfold readNumber at h
  split at h
  · cases h
  · split at h
    · exact Json.isFinite_of_number h
    · cases h

/-- Settings that are read are valid. -/
theorem isValid_of_readAll (h : readAll t = .ok s) : s.isValid = true := by
  refine (isValid_iff s).2 fun p hp => ?_
  obtain ⟨_, _, -, hnumber⟩ := constantAt_of_readAll h hp
  exact isFinite_of_readNumber hnumber

theorem check_eq_ok (h : s.isValid = true) : check s = .ok () := by
  rw [isValid, Option.isNone_iff_eq_none] at h
  rw [check, h]

/-- The check behind the reader never refuses settings. -/
theorem ofJson_eq_readAll (t : Text) : ofJson t = (readAll t).mapError .unreadable := by
  rw [ofJson]
  cases hs : readAll t with
  | error fault => rfl
  | ok s =>
    dsimp only
    rw [check_eq_ok (isValid_of_readAll hs)]
    rfl

/-- The symbols of valid settings are finite. -/
theorem isFinite_symbols (h : s.isValid = true) :
    ∀ p ∈ s.symbols.constants.entries, isFinite p.2 = true :=
  Symbols.isFinite_insertAll Symbols.isFinite_builtIn ((isValid_iff s).1 h)

/-- What is made of a number at the start of a text. -/
theorem readNumber_of_numeral {n : Numeral}
    (h : Json.numeral .ended (skipSpace t) = .ok (n, r)) :
    readNumber t = n.value?.elim (.error .malformed) fun x => .ok (x, r) := by
  obtain ⟨c, q, hq, hc⟩ := Json.start_of_numeral h
  rw [hq] at h
  rw [readNumber, hq]
  refine (if_pos hc).trans ?_
  simp only [Json.number, h]
  cases n.value? <;> rfl

/-- A constant beyond the floats makes the text malformed. -/
theorem ofJson_of_constantAt {name q : Text} {n : Numeral} (h : ConstantAt t name q)
    (hn : Json.numeral .ended (skipSpace q) = .ok (n, r)) (hnone : n.value? = none) :
    ofJson t = .error (.unreadable .malformed) := by
  have hnumber := readNumber_of_numeral hn
  rw [hnone] at hnumber
  rw [ofJson_eq_readAll, readAll_of_constantAt h hnumber]
  rfl

/-- Settings that are read are finite, and the check behind the reader never refuses them.  A
constant makes the text malformed if its digits and its power of ten lead to infinity, and so it
does if the float nearest to it is infinite, however it is written.  Only the constants that are
rounded down are read as the greatest float instead. -/
theorem ofJson_finite (t : Text) :
    (∀ name, ofJson t ≠ .error (.nonFinite name)) ∧
      (∀ s, readAll t = .ok s → check s = .ok () ∧ ofJson t = .ok s) ∧
      (∀ s, ofJson t = .ok s → check s = .ok () ∧
        (∀ p ∈ s.constants.entries, isFinite p.2 = true) ∧
        ∀ p ∈ s.symbols.constants.entries, isFinite p.2 = true) ∧
      ∀ name q n r, ConstantAt t name q → Json.numeral .ended (skipSpace q) = .ok (n, r) →
        (n.value? = none → ofJson t = .error (.unreadable .malformed)) ∧
        (n.decimal.bits = infinityBits → ¬ RoundedDown n.decimal →
          ofJson t = .error (.unreadable .malformed)) ∧
        (RoundedDown n.decimal →
          readNumber q = .ok (ofMagnitude n.negative (infinityBits - 1), r)) := by
  refine ⟨fun name hname => ?_, fun s hs => ⟨check_eq_ok (isValid_of_readAll hs), ?_⟩,
    fun s hs => ?_, fun name q n r h hn => ⟨ofJson_of_constantAt h hn, fun hbits hdown => ?_,
      fun hdown => ?_⟩⟩
  · rw [ofJson_eq_readAll] at hname
    cases hs : readAll t <;> rw [hs] at hname <;> cases hname
  · rw [ofJson_eq_readAll, hs]
    rfl
  · rw [ofJson_eq_readAll] at hs
    cases hread : readAll t with
    | error fault =>
      rw [hread] at hs
      cases hs
    | ok s' =>
      rw [hread] at hs
      cases hs
      have hvalid := isValid_of_readAll hread
      exact ⟨check_eq_ok hvalid, (isValid_iff s).1 hvalid, isFinite_symbols hvalid⟩
  · exact ofJson_of_constantAt h hn
      (Numeral.value?_of_infinite (Json.inDigits_of_numeral hn) hbits hdown)
  · have hnumber := readNumber_of_numeral hn
    rwa [(n.value?_of_roundedDown hdown).2] at hnumber

/-- The float nearest to a constant may be infinite, and its text is read all the same.  Here the
constant is greater than `2^1024`, and the greatest float is read. -/
theorem ofJson_rounded_down :
    let t := "\x7b\"constants\":\x7b\"a\":179769313486231599e291\x7d\x7d".toList
    let q := "179769313486231599e291\x7d\x7d".toList
    let n : Numeral := ⟨false, "179769313486231599".toList, [], 291⟩
    ConstantAt t "a".toList q ∧ Json.numeral .ended (skipSpace q) = .ok (n, "\x7d\x7d".toList) ∧
      n.decimal.AtLeast (1 <<< 1024) ∧ n.decimal.bits = infinityBits ∧
      ∃ s, ofJson t = .ok s ∧ s.constants.entries.map (fun p => (p.1, p.2.toBits.toNat)) =
        [("a".toList, infinityBits - 1)] := by
  intro t q n
  have hread : (ofJson t).toOption.map (fun s =>
      s.constants.entries.map fun p => (p.1, p.2.toBits.toNat)) =
        some [("a".toList, infinityBits - 1)] := by decide +kernel
  obtain ⟨s, hs, hentries⟩ := Option.map_eq_some_iff.1 hread
  have hkey : readKey true (t.drop 1) = .ok (some "constants".toList, t.drop 12) := by
    decide +kernel
  have hcolon : colon (t.drop 12) = .ok (t.drop 13) := by decide +kernel
  have hkey' : readKey true (t.drop 14) = .ok (some "a".toList, t.drop 17) := by decide +kernel
  have hcolon' : colon (t.drop 17) = .ok q := by decide +kernel
  exact ⟨.object rfl (.here hkey rfl List.not_mem_nil hcolon ⟨t.drop 14, rfl, .here hkey' hcolon'⟩),
    rfl, by decide +kernel, by decide +kernel, s, toOption_eq_some_iff.1 hs, hentries⟩

end Settings

end Reckoner
