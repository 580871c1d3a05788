import Reckoner.Basic

/-!
# Patterns

A pattern is a character of a class, a run of such characters, the end of the text, a group, or
one pattern behind another.  It may match at a place in several ways, which have an order: a run
first takes as many characters as it can, and gives them back one by one.

A search tries every column of a text from the left.  At the first column where the pattern
matches, the first way counts.
-/

namespace Reckoner

/-- What is searched for. -/
inductive Pattern
  /-- A character of a class. -/
  | one (p : Char → Bool)
  /-- Any number of characters of a class. -/
  | many (p : Char → Bool)
  /-- The end of the text. -/
  | stop
  /-- A pattern whose match is kept. -/
  | group (inner : Pattern)
  /-- A pattern and another one behind it. -/
  | pair (first second : Pattern)

namespace Pattern

/-- One way in which a pattern matches at the start of a text. -/
structure Way where
  /-- The text that is matched. -/
  matched : Text
  /-- The text that is kept. -/
  kept : Text
  /-- The text behind the match. -/
  rest : Text
deriving DecidableEq, Repr

/-- The ways of a run, the longest first. -/
def runWays (p : Char → Bool) (t : Text) : List Way :=
  (List.range ((t.takeWhile p).length + 1)).reverse.map fun n => ⟨t.take n, [], t.drop n⟩

/-- A way and then another one. -/
def Way.followedBy (w v : Way) : Way := ⟨w.matched ++ v.matched, w.kept ++ v.kept, v.rest⟩

/-- The ways in which a pattern matches at the start of a text, in their order. -/
def ways : Pattern → Text → List Way
  | .one _, [] => []
  | .one p, c :: t => if p c then [⟨[c], [], t⟩] else []
  | .many p, t => runWays p t
  | .stop, [] => [⟨[], [], []⟩]
  | .stop, _ :: _ => []
  | .group inner, t => (inner.ways t).map fun w => { w with kept := w.matched }
  | .pair first second, t => (first.ways t).flatMap fun w => (second.ways w.rest).map w.followedBy

/-- The leftmost match in a text: its column, and the first way there. -/
def search? (p : Pattern) : Text → Option (Nat × Way)
  | [] => (p.ways []).head?.map (0, ·)
  | c :: t =>
      match (p.ways (c :: t)).head? with
      | some w => some (0, w)
      | none => (search? p t).map fun m => (m.1 + 1, m.2)

end Pattern

end Reckoner
