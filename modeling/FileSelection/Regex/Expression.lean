import FileSelection.Regex.Match
import FileSelection.Regex.Parser

/-!
# Compiled expressions

An expression keeps its written form and its options beside the tree that was read from them.
-/

namespace FileSelection

structure Expression where
  source : String
  mode : Regex.Mode
  regex : Regex
  deriving Repr

namespace Expression

def compile? (mode : Regex.Mode) (source : String) : Except Failure Expression :=
  (Regex.parse? mode source.toList).map fun regex => ⟨source, mode, regex⟩

def accepts (expression : Expression) (text : String) : Bool :=
  expression.regex.matchesAll text.toList

end Expression

end FileSelection
