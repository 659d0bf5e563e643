import FileSelection.Text.Split

/-!
# Paths

A path is a root and the names on the way down from it.  Empty names and the name `.` carry no
meaning and are dropped; `..` is kept, since what it leads to depends on symbolic links.  A path
that starts with exactly two slashes has a root of its own.
-/

namespace FileSelection

structure Path where
  /-- Empty for a relative path. -/
  root : String
  names : List String
  deriving DecidableEq, Repr

namespace Path

open FileSelection.Text

def namesOf (text : List Char) : List String :=
  ((splitAt ['/'] text).filter fun name => !name.isEmpty && name != ['.']).map String.ofList

def rootOf (text : List Char) : String :=
  match text with
  | '/' :: '/' :: '/' :: _ => "/"
  | '/' :: '/' :: _ => "//"
  | '/' :: _ => "/"
  | _ => ""

def ofText (text : String) : Path := ⟨rootOf text.toList, namesOf text.toList⟩

def isAbsolute (path : Path) : Bool := !path.root.isEmpty

/-- The written form; the path without names is written `.`. -/
def text (path : Path) : String :=
  if path.root.isEmpty && path.names.isEmpty then "."
  else path.root ++ "/".intercalate path.names

/-- The path `below` seen from `path`; an absolute path stays as it is. -/
def join (path below : Path) : Path :=
  if below.isAbsolute then below else { path with names := path.names ++ below.names }

def child (path : Path) (name : String) : Path := path.join (ofText name)

def name (path : Path) : String := path.names.getLast?.getD ""

def andParents (path : Path) : List Path :=
  ((List.range (path.names.length + 1)).map fun n =>
    { path with names := path.names.take n }).reverse

def joinRelative (above name : String) : String :=
  if above.isEmpty then name else s!"{above}/{name}"

end Path

end FileSelection
