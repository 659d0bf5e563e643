import FileSelection.Failure

/-!
# Ignore rules

The lines of an ignore file are read and applied by a library of its own, of which only the outcome
is seen here.  Whatever compiles patterns takes this library as a parameter.
-/

namespace FileSelection

/-- The rules of some lines. -/
structure Ignore.Rules where
  count : Nat
  /-- Whether the rules ignore a path.  The path of a directory ends in a slash. -/
  ignores : String → Bool

/-- A library of ignore rules. -/
class Ignore.Library where
  compile? : List String → Except Failure Ignore.Rules
  /-- Whether a line that is refused counts as a wrong value. -/
  refusalIsValue : Bool

end FileSelection
