import Reckoner.Symbols

/-!
# Settings

The host of the calculator may set the text before a value in the list of suggestions, the text
before a value that is inserted, and further constants.  A constant of the settings takes the
place of a built-in one of the same name in upper case.  Where two names of the settings agree
in upper case, the one that comes later in the order of code points counts.

Settings are valid if every constant is finite.
-/

namespace Reckoner

/-- The choices of a host. -/
structure Settings where
  /-- The text before a value in the list of suggestions. -/
  renderPrefix : Text := "↵ ".toList
  /-- The text between the `=` and an inserted value. -/
  insertPrefix : Text := " ".toList
  /-- Constants on top of the built-in ones. -/
  constants : NameMap := .empty

namespace Settings

/-- The settings of a host that sets nothing. -/
def default : Settings := {}

/-- The first constant that is not finite. -/
def firstNonFinite? (s : Settings) : Option Text :=
  (s.constants.entries.find? fun p => !Number.isFinite p.2).map Prod.fst

/-- Whether every constant is finite. -/
def isValid (s : Settings) : Bool := s.firstNonFinite?.isNone

/-- The built-in constants with those of the settings added. -/
def symbols (s : Settings) : Symbols := Symbols.builtIn.insertAll s.constants.entries

theorem isValid_iff (s : Settings) :
    s.isValid = true ↔ ∀ p ∈ s.constants.entries, Number.isFinite p.2 = true := by
  simp [isValid, firstNonFinite?]

end Settings

end Reckoner
