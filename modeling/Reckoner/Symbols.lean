import Reckoner.Number.Units
import Reckoner.Text.Uppercase

/-!
# Symbols

Named numbers.  A map from names to floats is kept as a list in ascending order of the names,
each name once, so two maps with the same entries are equal.  The order of names is that of
their code points.

The symbols of a calculator are such a map in which every name is in upper case.  Names are put
into upper case both when a constant is added and when one is looked up, so `rate` and `RATE`
are one name.
-/

namespace Reckoner

/-- Whether names ascend strictly along a list of entries. -/
def Ascending (entries : List (Text × Float)) : Prop := entries.Pairwise fun p q => p.1 < q.1

/-- Numbers by name. -/
structure NameMap where
  /-- The names with their numbers, in ascending order of the names. -/
  entries : List (Text × Float)
  /-- No name occurs twice. -/
  ascending : Ascending entries

namespace NameMap

/-! ## Insertion -/

/-- The entries with `name` set to `x`. -/
def insertEntry (name : Text) (x : Float) : List (Text × Float) → List (Text × Float)
  | [] => [(name, x)]
  | (other, y) :: rest =>
      if name < other then (name, x) :: (other, y) :: rest
      else if name = other then (name, x) :: rest
      else (other, y) :: insertEntry name x rest

theorem mem_insertEntry {name : Text} {x : Float} {entries : List (Text × Float)}
    {p : Text × Float} (h : p ∈ insertEntry name x entries) : p = (name, x) ∨ p ∈ entries := by
  induction entries with
  | nil => simpa [insertEntry] using h
  | cons q rest ih =>
    obtain ⟨other, y⟩ := q
    simp only [insertEntry] at h
    split at h
    · simpa using h
    · split at h
      · simp only [List.mem_cons] at h ⊢
        exact h.imp_right Or.inr
      · simp only [List.mem_cons] at h ⊢
        rcases h with h | h
        · exact .inr (.inl h)
        · exact (ih h).imp_right Or.inr

theorem ascending_insertEntry {name : Text} {x : Float} {entries : List (Text × Float)}
    (h : Ascending entries) : Ascending (insertEntry name x entries) := by
  induction entries with
  | nil => simp [insertEntry, Ascending]
  | cons q rest ih =>
    obtain ⟨other, y⟩ := q
    obtain ⟨hfirst, hrest⟩ := List.pairwise_cons.1 h
    simp only [insertEntry]
    split
    · next hlt =>
      refine List.pairwise_cons.2 ⟨fun p hp => ?_, h⟩
      rcases List.mem_cons.1 hp with rfl | hp
      · exact hlt
      · exact List.lt_trans hlt (hfirst p hp)
    · split
      · next heq => exact List.pairwise_cons.2 ⟨fun p hp => heq ▸ hfirst p hp, hrest⟩
      · next hnlt hne =>
        refine List.pairwise_cons.2 ⟨fun p hp => ?_, ih hrest⟩
        rcases mem_insertEntry hp with rfl | hp
        · rcases List.le_iff_lt_or_eq.1 (List.not_lt.1 hnlt) with hlt | heq
          · exact hlt
          · exact absurd heq.symm hne
        · exact hfirst p hp

/-- The map without entries. -/
def empty : NameMap := ⟨[], List.Pairwise.nil⟩

/-- The map with `name` set to `x`. -/
def insert (m : NameMap) (name : Text) (x : Float) : NameMap :=
  ⟨insertEntry name x m.entries, ascending_insertEntry m.ascending⟩

/-- The number of a name. -/
def find? (m : NameMap) (name : Text) : Option Float := m.entries.lookup name

/-- The map with every pair of a list inserted, in order. -/
def insertAll (m : NameMap) (pairs : List (Text × Float)) : NameMap :=
  pairs.foldl (fun m p => m.insert p.1 p.2) m

/-- The number of names. -/
def size (m : NameMap) : Nat := m.entries.length

end NameMap

/-! ## The symbols of a calculator -/

/-- The constants visible to formulas, by their names in upper case. -/
structure Symbols where
  /-- The constants. -/
  constants : NameMap

namespace Symbols

/-- No constants. -/
def empty : Symbols := ⟨.empty⟩

/-- The symbols with a constant added or replaced. -/
def insert (s : Symbols) (name : Text) (x : Float) : Symbols :=
  ⟨s.constants.insert (Text.upper name) x⟩

/-- The constant of a name. -/
def find? (s : Symbols) (name : Text) : Option Float := s.constants.find? (Text.upper name)

/-- The symbols with every constant of a list added, in order. -/
def insertAll (s : Symbols) (pairs : List (Text × Float)) : Symbols :=
  pairs.foldl (fun s p => s.insert p.1 p.2) s

/-- The number of constants. -/
def size (s : Symbols) : Nat := s.constants.size

/-- The float nearest to the ratio of a circle's circumference to its diameter. -/
def pi : Float := Float.ofBits 0x400921FB54442D18

/-- The float nearest to the base of the natural logarithm. -/
def euler : Float := Float.ofBits 0x4005BF0A8B145769

/-- The built-in constants. -/
def builtIn : Symbols :=
  empty.insertAll
    [("π".toList, pi), ("PHI".toList, pi * 2), ("PI".toList, pi), ("TAU".toList, pi * 2),
      ("E".toList, euler)]

theorem find?_upper (s : Symbols) {name other : Text} (h : Text.upper name = Text.upper other) :
    s.find? name = s.find? other := by
  rw [find?, find?, h]

end Symbols

end Reckoner
