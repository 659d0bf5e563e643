import FileSelection.Host
import FileSelection.Ignore
import FileSelection.Text.Blank
import FileSelection.Text.Line

/-!
# Ignore files

An ignore file is read line by line.  Blank lines and comments are dropped, and a file without any
other line, or one that cannot be read or is not text, is no ignore file at all.
-/

namespace FileSelection.IgnoreFile

open FileSelection.Text

def decode? (content : ByteArray) : Option (List Char) :=
  (String.fromUTF8? content).map fun text => unifyNewlines text.toList

def isRule (line : List Char) : Bool :=
  match trim line with
  | [] | '#' :: _ => false
  | _ => true

def ruleLines (text : List Char) : List String :=
  ((lines text).filter isRule).map String.ofList

variable {σ : Type}

/-- The lines of an ignore file that hold rules, if there are any. -/
def linesOf (host : Host σ) (path : Path) : Act σ (Option (List String)) := do
  match ← (host.read path).attempt with
  | .error failure => if failure.isSystem then return none else throw failure
  | .ok content =>
      match decode? content with
      | none => return none
      | some text =>
          let found := ruleLines text
          return if found.isEmpty then none else some found

def rulesOf [Ignore.Library] (host : Host σ) (path : Path) :
    Act σ (Option Ignore.Rules) := do
  match ← linesOf host path with
  | none => return none
  | some found => return some (← Act.ofExcept (Ignore.Library.compile? found))

end FileSelection.IgnoreFile
