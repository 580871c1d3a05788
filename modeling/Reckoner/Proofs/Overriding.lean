import Mathlib.Data.List.Dedup
import Reckoner.Proofs.ByteOrder
import Reckoner.Proofs.Symbols

/-!
# Which constant a name means

Several names of the settings may agree in upper case, with each other and with built-in names.
They are added in the order of their bytes, and each addition replaces what was there, so the
greatest of them counts (`lookup_symbols`).

*Maps.*  A map is determined by what it finds (`ext_find?`).  So laws about additions are laws
about lookups: additions of different names commute (`insert_comm`), and of two additions of one
name the second counts (`insert_insert`).

*Size.*  A map keeps no name twice, and additions bring their names in upper case and no others
(`mem_names_insertAll`).  So the size is the number of distinct names.
-/

namespace Reckoner

namespace NameMap

/-! ## Maps -/

/-- The names of a map. -/
def names (m : NameMap) : List Text := m.entries.map Prod.fst

theorem nodup_names (m : NameMap) : m.names.Nodup := by
  refine List.pairwise_map.2 (m.ascending.imp fun {p q} hlt heq => ?_)
  rw [heq] at hlt
  exact List.lt_irrefl _ hlt

theorem mem_entries_iff (m : NameMap) {name : Text} {x : Float} :
    (name, x) ∈ m.entries ↔ m.find? name = some x := by
  constructor
  · intro h
    cases hfind : m.find? name with
    | none => simpa using List.lookup_eq_none_iff.1 hfind _ h
    | some y =>
      obtain ⟨before, after, heq, -⟩ := List.lookup_eq_some_iff.1 hfind
      have hy : (name, y) ∈ m.entries := by simp [heq]
      rw [(Prod.mk.inj (eq_of_ascending m.ascending h hy rfl)).2]
  · intro h
    obtain ⟨before, after, heq, -⟩ := List.lookup_eq_some_iff.1 h
    simp [heq]

/-- A map is determined by what it finds. -/
theorem ext_find? {m n : NameMap} (h : ∀ name, m.find? name = n.find? name) : m = n := by
  have hmem (p : Text × Float) : p ∈ m.entries ↔ p ∈ n.entries := by
    rw [m.mem_entries_iff, n.mem_entries_iff, h]
  have hperm : m.entries.Perm n.entries :=
    (List.perm_ext_iff_of_nodup m.nodup_names.of_map n.nodup_names.of_map).2 hmem
  have hentries : m.entries = n.entries :=
    hperm.eq_of_pairwise (fun p q _ _ hpq hqp => absurd hpq (List.lt_asymm hqp)) m.ascending
      n.ascending
  obtain ⟨entries, _⟩ := m
  obtain ⟨entries', _⟩ := n
  cases hentries
  rfl

theorem find?_insert (m : NameMap) (name other : Text) (x : Float) :
    (m.insert name x).find? other = if other = name then some x else m.find? other :=
  lookup_insertEntry name other x m.entries

theorem insert_insert (m : NameMap) (name : Text) (x y : Float) :
    (m.insert name x).insert name y = m.insert name y := by
  refine ext_find? fun other => ?_
  simp only [find?_insert]
  split <;> rfl

theorem insert_comm (m : NameMap) {name other : Text} (h : name ≠ other) (x y : Float) :
    (m.insert name x).insert other y = (m.insert other y).insert name x := by
  refine ext_find? fun third => ?_
  simp only [find?_insert]
  split
  · next heq => rw [if_neg fun hname => h (hname.symm.trans heq)]
  · rfl

theorem mem_names_iff (m : NameMap) {name : Text} : name ∈ m.names ↔ (m.find? name).isSome := by
  rw [names, List.mem_map, Option.isSome_iff_exists]
  constructor
  · rintro ⟨p, hp, rfl⟩
    exact ⟨p.2, m.mem_entries_iff.1 hp⟩
  · rintro ⟨x, hx⟩
    exact ⟨(name, x), m.mem_entries_iff.2 hx, rfl⟩

theorem mem_names_insert (m : NameMap) (name other : Text) (x : Float) :
    other ∈ (m.insert name x).names ↔ other = name ∨ other ∈ m.names := by
  rw [mem_names_iff, mem_names_iff, find?_insert]
  split
  · next heq => simp [heq]
  · next hne => simp [hne]

end NameMap

namespace Symbols

/-! ## Symbols -/

theorem mem_names_insertAll {s : Symbols} {pairs : List (Text × Float)} {name : Text} :
    name ∈ (s.insertAll pairs).constants.names ↔
      name ∈ s.constants.names ∨ ∃ p ∈ pairs, Text.upper p.1 = name := by
  induction pairs generalizing s with
  | nil => simp [insertAll]
  | cons p pairs ih =>
    rw [show s.insertAll (p :: pairs) = (s.insert p.1 p.2).insertAll pairs from rfl, ih, insert,
      NameMap.mem_names_insert, List.exists_mem_cons_iff, or_comm (a := name = _), or_assoc,
      eq_comm]

/-- The built-in constants, by their names in upper case. -/
def builtInEntries : List (Text × Float) :=
  [("E".toList, euler), ("PHI".toList, pi * 2), ("PI".toList, pi), ("TAU".toList, pi * 2),
    ("Π".toList, pi)]

theorem entries_builtIn : builtIn.constants.entries = builtInEntries := by
  decide +kernel

theorem find?_builtIn (name : Text) :
    builtIn.find? name = builtInEntries.lookup (Text.upper name) := by
  rw [find?, NameMap.find?, entries_builtIn]

end Symbols

namespace Settings

/-! ## Constants of the settings -/

/-- What a name finds: the greatest constant of the settings that agrees with it in upper case, or
what is built in. -/
theorem find?_symbols_cases (s : Settings) (name : Text) :
    (∃ p ∈ s.constants.entries, Text.upper p.1 = Text.upper name ∧
        (∀ q ∈ s.constants.entries, Text.upper q.1 = Text.upper name → q = p ∨ q.1 < p.1) ∧
        s.symbols.find? name = some p.2) ∨
      ((∀ p ∈ s.constants.entries, Text.upper p.1 ≠ Text.upper name) ∧
        s.symbols.find? name = Symbols.builtIn.find? name) := by
  have hfound := Symbols.find?_insertAll Symbols.builtIn s.constants.entries name
  cases hlast : s.constants.entries.reverse.find? fun p => Text.upper name = Text.upper p.1 with
  | none =>
    have hnone : ∀ p ∈ s.constants.entries, Text.upper p.1 ≠ Text.upper name := fun p hp heq => by
      simpa [heq] using List.find?_eq_none.1 hlast p (List.mem_reverse.2 hp)
    exact .inr ⟨hnone, s.find?_symbols_of_ne fun p hp heq => hnone p hp heq.symm⟩
  | some p =>
    -- What stands behind the latest that agrees does not agree, and what stands before is less.
    obtain ⟨hagrees, later, earlier, heq, hlater⟩ := List.find?_eq_some_iff_append.1 hlast
    have hentries : s.constants.entries = earlier.reverse ++ p :: later.reverse := by
      rw [← List.reverse_reverse s.constants.entries, heq]
      simp
    have hascending := s.constants.ascending
    rw [Ascending, hentries] at hascending
    have hupper : Text.upper name = Text.upper p.1 := of_decide_eq_true hagrees
    refine .inl ⟨p, by simp [hentries], hupper.symm, fun q hq heq => ?_, ?_⟩
    · rw [hentries] at hq
      rcases List.mem_append.1 hq with hbefore | hbehind
      · exact .inr ((List.pairwise_append.1 hascending).2.2 q hbefore p List.mem_cons_self)
      · rcases List.mem_cons.1 hbehind with rfl | hbehind
        · exact .inl rfl
        · simpa [heq] using hlater q (List.mem_reverse.1 hbehind)
    · rw [hlast] at hfound
      exact hfound

/-- The number of constants is that of the different names in upper case. -/
theorem size_symbols (s : Settings) :
    s.symbols.size =
      ((Symbols.builtInEntries ++ s.constants.entries).map
        fun p => Text.upper p.1).dedup.length := by
  have hbuiltIn : Symbols.builtIn.constants.names =
      Symbols.builtInEntries.map fun p => Text.upper p.1 := by
    rw [NameMap.names, Symbols.entries_builtIn]
    decide
  have hperm : s.symbols.constants.names.Perm
      ((Symbols.builtInEntries ++ s.constants.entries).map fun p => Text.upper p.1).dedup := by
    refine (List.perm_ext_iff_of_nodup (NameMap.nodup_names _) (List.nodup_dedup _)).2 ?_
    intro name
    rw [symbols, Symbols.mem_names_insertAll, hbuiltIn, List.mem_dedup, List.map_append,
      List.mem_append]
    simp only [List.mem_map]
  rw [← hperm.length_eq]
  exact (List.length_map _).symm

/-- What the symbols of any settings hold, and what a name finds in them.

* A name finds the constant of the settings whose name agrees with it in upper case.  Of several
  the one counts whose name is the greatest in the order of bytes.  If there is none, the name finds
  the built-in constant with its upper case, or nothing.
* So only the upper case of a name matters.
* There are as many constants as different names in upper case.
* Constants with different names in upper case may be added in any order.  Where the names agree,
  the later replaces the earlier. -/
theorem lookup_symbols (s : Settings) :
    (∀ name,
      (∃ k x, (k, x) ∈ s.constants.entries ∧ Text.upper k = Text.upper name ∧
          (∀ p ∈ s.constants.entries, Text.upper p.1 = Text.upper name →
            p.1 = k ∨ Text.Precedes p.1 k) ∧
          s.symbols.find? name = some x) ∨
        ((∀ p ∈ s.constants.entries, Text.upper p.1 ≠ Text.upper name) ∧
          s.symbols.find? name = Symbols.builtInEntries.lookup (Text.upper name))) ∧
    (∀ name other, Text.upper name = Text.upper other →
      s.symbols.find? name = s.symbols.find? other) ∧
    s.symbols.size =
      ((Symbols.builtInEntries ++ s.constants.entries).map
        fun p => Text.upper p.1).dedup.length ∧
    ∀ (t : Symbols) (name other : Text) (x y : Float),
      (Text.upper name ≠ Text.upper other →
        (t.insert name x).insert other y = (t.insert other y).insert name x) ∧
      (Text.upper name = Text.upper other →
        (t.insert name x).insert other y = t.insert other y) := by
  refine ⟨fun name => ?_, fun _ _ => s.symbols.find?_upper, s.size_symbols,
    fun t name other x y => ⟨fun hne => ?_, fun heq => ?_⟩⟩
  · rcases s.find?_symbols_cases name with
      ⟨⟨k, x⟩, hmem, hupper, hgreatest, hfind⟩ | ⟨hnone, hfind⟩
    · refine .inl ⟨k, x, hmem, hupper, fun p hp heq => ?_, hfind⟩
      rcases hgreatest p hp heq with rfl | hlt
      · exact .inl rfl
      · exact .inr (Text.lt_iff_precedes.1 hlt)
    · exact .inr ⟨hnone, hfind.trans (Symbols.find?_builtIn name)⟩
  · rw [Symbols.insert, Symbols.insert, Symbols.insert, Symbols.insert,
      NameMap.insert_comm _ hne]
  · rw [Symbols.insert, Symbols.insert, Symbols.insert, heq, NameMap.insert_insert]

-- In upper case `ß` is `SS`, and its bytes come behind those of `ss`.
example :
    let s : Settings :=
      { constants := NameMap.empty.insertAll [("ß".toList, 2), ("ss".toList, 1), ("pi".toList, 3)] }
    s.symbols.find? "Ss".toList = some 2 ∧ s.symbols.find? "PI".toList = some 3 ∧
      s.symbols.size = 6 := by
  decide +kernel

end Settings

end Reckoner
