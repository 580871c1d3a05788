import Reckoner.Json.Quoted
import Reckoner.Number.Format
import Reckoner.Settings.Basic
import Reckoner.Text.Split

/-!
# Writing settings

Settings are written as one JSON object without white space.  The three members come in a fixed
order, and the constants in the order of their names.

A number has the fewest digits that are read back, at least `.0`, and an exponent from `10^16`
on and below `10^-5`.  JSON has no word for a number that is not finite, so `null` stands for
it.
-/

namespace Reckoner.Settings

open Json (encode)
open Number (Format)

/-- How JSON writes a number. -/
def jsonFormat : Format where
  tie := .even
  least := some (-5)
  greatest := some 15
  pointZero := true
  plus := true
  infinity := "null".toList
  negativeInfinity := "null".toList
  nan := "null".toList

/-- A member of an object: its key, a colon and its value. -/
def writeMember (key value : Text) : Text := encode key ++ ':' :: value

/-- An object with the given members. -/
def writeObject (members : List Text) : Text := '\x7b' :: Text.join ',' members ++ ['\x7d']

/-- The constants as an object. -/
def writeConstants (m : NameMap) : Text :=
  writeObject (m.entries.map fun p => writeMember p.1 (jsonFormat.write p.2))

/-- Settings as an object. -/
def toJson (s : Settings) : Text :=
  writeObject
    [writeMember "render_prefix".toList (encode s.renderPrefix),
      writeMember "insert_prefix".toList (encode s.insertPrefix),
      writeMember "constants".toList (writeConstants s.constants)]

end Reckoner.Settings
