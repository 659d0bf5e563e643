import FileSelection.Act
import FileSelection.Path

/-!
# The system below a walk

`Host` gathers the questions that the library puts to a file system.  The answers may depend on a
state and change it, so that a file system which changes between two questions is a host as well,
and so is one whose questions are recorded.
-/

namespace FileSelection

inductive Kind where
  | file
  | directory
  | link
  | other
  deriving DecidableEq, Repr

/-- What is known about a path without reading it.  The time is in nanoseconds. -/
structure Status where
  kind : Kind
  size : Nat
  modified : Int
  deriving DecidableEq, Repr

inductive Note where
  | cannotList (path : Path) (failure : Failure)
  | settingsLoaded (path : Path)
  | unknownSetting (key : String)
  deriving DecidableEq, Repr

namespace Note

def source : Note → String
  | .cannotList _ _ => "treeselect.walker"
  | .settingsLoaded _ | .unknownSetting _ => "treeselect.config"

def text : Note → String
  | .cannotList path failure =>
      s!"Cannot list {path.text}, skipping its contents: {failure.message}"
  | .settingsLoaded path => s!"Loaded config from {path.text}"
  | .unknownSetting key => s!"Ignoring unknown config key: {key}"

end Note

structure Host (σ : Type) where
  /-- The names in a directory, in any order. -/
  names : Path → Act σ (List String)
  /-- The status of a path, or with `false` the status of a link itself. -/
  status : Bool → Path → Act σ Status
  linkTarget : Path → Act σ String
  read : Path → Act σ ByteArray
  workingDirectory : Act σ Path
  note : Note → Act σ Unit

namespace Host

variable {σ : Type}

/-- Failures that only say that there is nothing at a path. -/
def meansAbsent : Failure → Bool
  | .system .noEntry _ | .system .notDirectory _ | .system .linkLoop _ | .nulInPath => true
  | _ => false

def status? (host : Host σ) (follow : Bool) (path : Path) : Act σ (Option Status) := do
  match ← (host.status follow path).attempt with
  | .ok status => pure (some status)
  | .error failure => if meansAbsent failure then pure none else throw failure

def exists? (host : Host σ) (path : Path) : Act σ Bool := do
  return (← host.status? true path).isSome

def hasKind (host : Host σ) (follow : Bool) (kind : Kind) (path : Path) : Act σ Bool := do
  return (← host.status? follow path).any (·.kind == kind)

def isFile (host : Host σ) (path : Path) : Act σ Bool := host.hasKind true .file path

def isDirectory (host : Host σ) (path : Path) : Act σ Bool := host.hasKind true .directory path

def isLink (host : Host σ) (path : Path) : Act σ Bool := host.hasKind false .link path

end Host

end FileSelection
