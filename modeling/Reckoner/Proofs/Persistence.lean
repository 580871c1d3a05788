import Reckoner.Proofs.NumberText

/-!
# Settings that are written are read back

Valid settings that are written as JSON are read again (`ofJson_eq`).  The texts come back whole
(`readText_encode`), and the constants come in the order of their names, so the same map is built
from them (`insertAll_empty`).

A number is read with one rounding for its digits, one for a power of ten and one for their
product or quotient, so it need not come back as it was (`ofJson_toJson_ne`).  How much it may
differ, and when it does not, is part of `ofJson_toJson`.
-/

namespace Reckoner

/-! ## Maps in order -/

namespace NameMap

/-- A name behind all others comes last. -/
theorem insertEntry_append {name : Text} {x : Float} {entries : List (Text × Float)}
    (h : ∀ p ∈ entries, p.1 < name) : insertEntry name x entries = entries ++ [(name, x)] := by
  induction entries with
  | nil => rfl
  | cons p rest ih =>
    have hlt := h p List.mem_cons_self
    have hne : name ≠ p.1 := fun heq => List.lt_irrefl name (by rw [heq] at hlt ⊢; exact hlt)
    rw [insertEntry, if_neg (List.not_lt.2 (List.le_of_lt hlt)), if_neg hne,
      ih fun q hq => h q (List.mem_cons_of_mem p hq)]
    rfl

/-- Entries that are inserted in their order are kept in it. -/
theorem entries_insertAll {m : NameMap} {pairs : List (Text × Float)}
    (h : Ascending (m.entries ++ pairs)) : (m.insertAll pairs).entries = m.entries ++ pairs := by
  induction pairs generalizing m with
  | nil => exact (List.append_nil _).symm
  | cons p pairs ih =>
    have hentries : (m.insert p.1 p.2).entries = m.entries ++ [p] :=
      insertEntry_append fun q hq => (List.pairwise_append.1 h).2.2 q hq p List.mem_cons_self
    have hinsert := ih (m := m.insert p.1 p.2) (by rwa [hentries, List.append_assoc])
    rw [hentries, List.append_assoc] at hinsert
    exact hinsert

theorem ascending_map (f : Float → Float) (m : NameMap) :
    Ascending (m.entries.map fun p => (p.1, f p.2)) := by
  rw [Ascending, List.pairwise_map]
  exact m.ascending

/-- A map with another number for every name. -/
def mapValues (f : Float → Float) (m : NameMap) : NameMap :=
  ⟨m.entries.map fun p => (p.1, f p.2), ascending_map f m⟩

theorem mapValues_eq {f : Float → Float} {m : NameMap} (h : ∀ p ∈ m.entries, f p.2 = p.2) :
    m.mapValues f = m := by
  have hentries : (m.entries.map fun p => (p.1, f p.2)) = m.entries.map id :=
    List.map_congr_left fun p hp => Prod.ext rfl (h p hp)
  rw [List.map_id] at hentries
  obtain ⟨entries, ascending⟩ := m
  rw [mapValues]
  congr 1

/-- A map is built from its entries. -/
theorem insertAll_empty (m : NameMap) : empty.insertAll m.entries = m := by
  have hentries : (empty.insertAll m.entries).entries = [] ++ m.entries :=
    entries_insertAll m.ascending
  obtain ⟨entries, ascending⟩ := m
  generalize empty.insertAll entries = n at *
  obtain ⟨entries', ascending'⟩ := n
  cases hentries
  rfl

end NameMap

namespace Settings

open Json (encode EndsNumber Fault colon)

/-! ## Objects -/

variable {key r t : Text}

theorem join_cons_flatMap (sep : Char) (part : Text) (parts : List Text) :
    Text.join sep (part :: parts) = part ++ parts.flatMap (sep :: ·) := by
  induction parts generalizing part with
  | nil => exact (List.append_nil part).symm
  | cons next parts ih =>
    rw [Text.join_cons sep part (List.cons_ne_nil next parts), ih, List.flatMap_cons]
    rfl

theorem writeObject_append (members : List Text) (r : Text) :
    writeObject members ++ r = '\x7b' :: (Text.join ',' members ++ '\x7d' :: r) := by
  simp [writeObject]

theorem readKey_first (key r : Text) : readKey true (encode key ++ r) = .ok (some key, r) := by
  have hkey := readKeyText_encode key r
  rw [Json.encode_append] at hkey ⊢
  rw [readKey, Json.skipSpace_cons rfl]
  simp [hkey, Except.map]

theorem readKey_next (key r : Text) :
    readKey false (',' :: (encode key ++ r)) = .ok (some key, r) := by
  rw [readKey, Json.skipSpace_cons rfl]
  simp [readKeyText_encode, Except.map]

theorem readKey_end (first : Bool) (r : Text) : readKey first ('\x7d' :: r) = .ok (none, r) := by
  rw [readKey, Json.skipSpace_cons rfl]
  rfl

theorem colon_cons (r : Text) : colon (':' :: r) = .ok r := by
  rw [colon, Json.skipSpace_cons rfl]
  rfl

/-- What stands between two members or at the end is not the rest of a number. -/
theorem endsNumber_cons {c : Char} (h : c = ',' ∨ c = '\x7d') (r : Text) : EndsNumber (c :: r) := by
  intro d hd
  cases hd
  rcases h with rfl | rfl <;> decide

/-! ## The constants -/

theorem readMembers_end (first : Bool) (m : NameMap) (r : Text) :
    readMembers first m ('\x7d' :: r) = .ok (m, r) := by
  rw [readMembers]
  split
  · next hkey => rw [readKey_end] at hkey; cases hkey
  · next hkey => rw [readKey_end] at hkey; cases hkey; rfl
  · next hkey => rw [readKey_end] at hkey; cases hkey

/-- What follows a key of the constants. -/
theorem readMembers_of_key {first : Bool} {m : NameMap} {q : Text}
    (hkey : readKey first t = .ok (some key, q)) :
    readMembers first m t =
      (readConstant q).bind fun p => readMembers false (m.insert key p.1) p.2 := by
  rw [readMembers]
  split
  · next h => rw [hkey] at h; cases h
  · next h => rw [hkey] at h; cases h
  · next h =>
    rw [hkey] at h
    cases h
    split
    · next hvalue => simp only [hvalue, Except.bind]
    · next hvalue => simp only [hvalue, Except.bind]

/-- A member that is read is inserted. -/
theorem readMembers_member {first : Bool} {m : NameMap} {q : Text} {x : Float}
    (hkey : readKey first t = .ok (some key, q)) (hvalue : readConstant q = .ok (x, r)) :
    readMembers first m t = readMembers false (m.insert key x) r := by
  rw [readMembers_of_key hkey, hvalue]
  rfl

/-- A constant that is written is read, and the text behind it is left. -/
theorem readConstant_write {x : Float} (hx : Number.isFinite x = true) (hr : EndsNumber r) :
    readConstant (':' :: (jsonFormat.write x ++ r)) = .ok (reread x, r) := by
  rw [readConstant, colon_cons]
  exact readNumber_write hx hr

/-- The member of a constant. -/
def constantMember (p : Text × Float) : Text := writeMember p.1 (jsonFormat.write p.2)

theorem constantMember_append (p : Text × Float) (r : Text) :
    constantMember p ++ r = encode p.1 ++ ':' :: (jsonFormat.write p.2 ++ r) := by
  rw [constantMember, writeMember, List.append_assoc, List.cons_append]

/-- Behind a member come further ones, or the end. -/
theorem endsNumber_members (pairs : List (Text × Float)) (r : Text) :
    EndsNumber (pairs.flatMap (fun p => ',' :: constantMember p) ++ '\x7d' :: r) := by
  cases pairs with
  | nil => exact endsNumber_cons (.inr rfl) r
  | cons p pairs => exact endsNumber_cons (.inl rfl) _

/-- The members behind a first one are read one after the other. -/
theorem readMembers_next {pairs : List (Text × Float)} {m : NameMap}
    (h : ∀ p ∈ pairs, Number.isFinite p.2 = true) (r : Text) :
    readMembers false m (pairs.flatMap (fun p => ',' :: constantMember p) ++ '\x7d' :: r) =
      .ok (m.insertAll (pairs.map fun p => (p.1, reread p.2)), r) := by
  induction pairs generalizing m with
  | nil => exact readMembers_end false m r
  | cons p pairs ih =>
    rw [List.flatMap_cons, List.append_assoc, List.cons_append, constantMember_append,
      readMembers_member (readKey_next _ _)
        (readConstant_write (h p List.mem_cons_self) (endsNumber_members pairs r)),
      ih fun q hq => h q (List.mem_cons_of_mem p hq)]
    rfl

/-- The constants are read back, each as the float that its text leads to. -/
theorem readConstants_write {m : NameMap} (h : ∀ p ∈ m.entries, Number.isFinite p.2 = true)
    (r : Text) : readConstants (writeConstants m ++ r) = .ok (m.mapValues reread, r) := by
  have hmembers : readMembers true .empty
      (Text.join ',' (m.entries.map constantMember) ++ '\x7d' :: r) =
      .ok (NameMap.empty.insertAll (m.entries.map fun p => (p.1, reread p.2)), r) := by
    cases hentries : m.entries with
    | nil => exact readMembers_end true .empty r
    | cons p pairs =>
      rw [hentries] at h
      have hflat : (pairs.map constantMember).flatMap (fun t => ',' :: t) =
          pairs.flatMap fun p => ',' :: constantMember p := List.flatMap_map ..
      rw [List.map_cons, join_cons_flatMap, List.append_assoc, constantMember_append]
      have hends := endsNumber_members pairs r
      have hnext := readMembers_next (m := NameMap.empty.insert p.1 (reread p.2))
        (fun q hq => h q (List.mem_cons_of_mem p hq)) r
      rw [← hflat] at hends hnext
      rw [readMembers_member (readKey_first _ _)
        (readConstant_write (h p List.mem_cons_self) hends), hnext]
      rfl
  have htext : writeConstants m ++ r =
      '\x7b' :: (Text.join ',' (m.entries.map constantMember) ++ '\x7d' :: r) :=
    writeObject_append _ r
  rw [htext, readConstants, Json.skipSpace_cons rfl]
  refine (if_pos rfl).trans ?_
  rw [hmembers, ← NameMap.insertAll_empty (m.mapValues reread)]
  rfl

/-! ## The settings -/

theorem readObject_end (first : Bool) (seen : List Field) (s : Settings) (r : Text) :
    readObject first seen s ('\x7d' :: r) = .ok (s, r) := by
  rw [readObject]
  split
  · next hkey => rw [readKey_end] at hkey; cases hkey
  · next hkey => rw [readKey_end] at hkey; cases hkey; rfl
  · next hkey => rw [readKey_end] at hkey; cases hkey

/-- What follows the key of a field that has not been read before. -/
theorem readObject_of_key {first : Bool} {seen : List Field} {s : Settings} {field : Field}
    {q : Text} (hkey : readKey first t = .ok (some key, q)) (hfield : Field.ofKey? key = some field)
    (hseen : field ∉ seen) :
    readObject first seen s t =
      (readMember s field q).bind fun p => readObject false (field :: seen) p.1 p.2 := by
  rw [readObject]
  split
  · next h => rw [hkey] at h; cases h
  · next h => rw [hkey] at h; cases h
  · next h =>
    rw [hkey] at h
    cases h
    split
    · next h => rw [hfield] at h; cases h
    · next h =>
      rw [hfield] at h
      cases h
      rw [if_neg hseen]
      split
      · next hvalue => simp only [hvalue, Except.bind]
      · next hvalue => simp only [hvalue, Except.bind]

/-- A field that has not been read before is read. -/
theorem readObject_field {first : Bool} {seen : List Field} {s s' : Settings} {field : Field}
    {q : Text} (hkey : readKey first t = .ok (some key, q)) (hfield : Field.ofKey? key = some field)
    (hseen : field ∉ seen) (hvalue : readMember s field q = .ok (s', r)) :
    readObject first seen s t = readObject false (field :: seen) s' r := by
  rw [readObject_of_key hkey hfield hseen, hvalue]
  rfl

theorem readMember_write {s s' : Settings} {field : Field} {value : Text}
    (h : readField s field (value ++ r) = .ok (s', r)) :
    readMember s field (':' :: (value ++ r)) = .ok (s', r) := by
  rw [readMember, colon_cons]
  exact h

/-- The members of settings are read in their order. -/
theorem readSettings_toJson {s : Settings} (h : s.isValid = true) :
    readSettings s.toJson = .ok ({ s with constants := s.constants.mapValues reread }, []) := by
  have hfinite := (isValid_iff s).1 h
  have htext : s.toJson =
      '\x7b' :: (encode "render_prefix".toList ++ ':' :: (encode s.renderPrefix ++
        ',' :: (encode "insert_prefix".toList ++ ':' :: (encode s.insertPrefix ++
        ',' :: (encode "constants".toList ++ ':' ::
          (writeConstants s.constants ++ ['\x7d'])))))) := by
    simp [toJson, writeObject, writeMember, Text.join]
  have hrender (r : Text) : readField default .renderPrefix (encode s.renderPrefix ++ r) =
      .ok ({ default with renderPrefix := s.renderPrefix }, r) := by
    rw [readField, readText_encode]
    rfl
  have hinsert (r : Text) : readField { default with renderPrefix := s.renderPrefix } .insertPrefix
      (encode s.insertPrefix ++ r) =
      .ok ({ s with constants := .empty }, r) := by
    rw [readField, readText_encode]
    rfl
  have hconstants (r : Text) : readField { s with constants := .empty } .constants
      (writeConstants s.constants ++ r) =
      .ok ({ s with constants := s.constants.mapValues reread }, r) := by
    rw [readField, readConstants_write hfinite]
    rfl
  rw [htext, readSettings, Json.skipSpace_cons rfl]
  refine (if_pos rfl).trans ?_
  rw [readObject_field (readKey_first _ _) rfl List.not_mem_nil (readMember_write (hrender _)),
    readObject_field (readKey_next _ _) rfl (by decide) (readMember_write (hinsert _)),
    readObject_field (readKey_next _ _) rfl (by decide) (readMember_write (hconstants _)),
    readObject_end]

/-- Settings that are written are read back with the same prefixes and names, and with every
constant as the float that its text leads to. -/
theorem ofJson_eq {s : Settings} (h : s.isValid = true) :
    ofJson s.toJson = .ok { s with constants := s.constants.mapValues reread } := by
  have hfinite := (isValid_iff s).1 h
  have hvalid : Settings.isValid { s with constants := s.constants.mapValues reread } = true := by
    rw [isValid_iff]
    intro p hp
    obtain ⟨q, hq, rfl⟩ := List.mem_map.1 hp
    exact isFinite_reread (hfinite q hq)
  have hcheck : check { s with constants := s.constants.mapValues reread } = .ok () := by
    rw [isValid, Option.isNone_iff_eq_none] at hvalid
    rw [check, hvalid]
  rw [ofJson, readAll, readSettings_toJson h]
  simp only [Json.skipSpace, List.dropWhile_nil, if_true, hcheck]

/-- Valid settings that are written are read back.  The prefixes and the names of the constants are
the same, whatever characters they hold.  Every constant is finite, keeps its sign and differs by
at most one part in `2^50` and one unit.  It is the same if neither its digits nor its power of ten
are rounded, so settings with such constants alone are read back unchanged. -/
theorem ofJson_toJson (s : Settings) (h : s.isValid = true) :
    ofJson s.toJson = .ok { s with constants := s.constants.mapValues reread } ∧
      (∀ p ∈ s.constants.entries,
        Number.isFinite (reread p.2) = true ∧
          Number.isNegative (reread p.2) = Number.isNegative p.2 ∧
          ((Number.units (reread p.2) : Int) - Number.units p.2).natAbs <<< 50 ≤
            Number.units p.2 + 1 <<< 50 ∧
          (IsExact p.2 → reread p.2 = p.2)) ∧
      ((∀ p ∈ s.constants.entries, IsExact p.2) → ofJson s.toJson = .ok s) := by
  have hfinite := (isValid_iff s).1 h
  refine ⟨ofJson_eq h, fun p hp => ?_, fun hexact => ?_⟩
  · exact ⟨isFinite_reread (hfinite p hp), isNegative_reread (hfinite p hp),
      units_reread (hfinite p hp), reread_of_exact (hfinite p hp)⟩
  · rw [ofJson_eq h, NameMap.mapValues_eq fun p hp => reread_of_exact (hfinite p hp) (hexact p hp)]

/-- A quote mark, a backslash and a line break in a prefix, and a negative constant. -/
theorem ofJson_toJson_quotes :
    let s : Settings :=
      { renderPrefix := "\"\\\n".toList, constants := NameMap.empty.insert "é".toList (-0.1) }
    s.isValid = true ∧ ofJson s.toJson = .ok s := by
  refine ⟨by decide +kernel, (ofJson_toJson _ (by decide +kernel)).2.2 ?_⟩
  intro p hp
  rw [List.mem_singleton.1 hp]
  exact ⟨1, 0, by decide +kernel, by decide, by decide +kernel⟩

/-- A constant may be read back as another float.  Here it is the next greater one. -/
theorem ofJson_toJson_ne :
    let s : Settings := { constants := NameMap.empty.insert "a".toList 6.02214076e-27 }
    s.isValid = true ∧ ofJson s.toJson ≠ .ok s := by
  have hvalid : Settings.isValid
      { constants := NameMap.empty.insert "a".toList 6.02214076e-27 } = true := by
    decide +kernel
  refine ⟨hvalid, fun hsame => ?_⟩
  rw [ofJson_eq hvalid, Except.ok.injEq] at hsame
  have hentries := congrArg (fun s => s.constants.entries) hsame
  have hbits := congrArg (fun entries => entries.map fun p => p.2.toBits.toNat) hentries
  revert hbits
  decide +kernel

end Settings

end Reckoner
