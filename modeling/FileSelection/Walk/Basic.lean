import FileSelection.Rules

/-!
# Walks

A walk visits what is below a directory, in the order of the names.  Each entry is reported if the
walk accepts it, and its contents are visited if it is a directory that the walk may enter.
Top-down, a directory is reported before its contents, bottom-up after them.
-/

namespace FileSelection

structure Walk (σ : Type) where
  accept : Entry → Act σ Bool
  mayDescend : Entry → Act σ Bool
  bottomUp : Bool
  /-- Whether a directory that cannot be listed ends the walk; otherwise it counts as empty. -/
  strict : Bool
  followLinks : Bool

namespace Walk

variable {σ : Type}

def sortNames (names : List String) : List String := names.mergeSort fun a b => !decide (b < a)

def listNames (host : Host σ) (strict : Bool) (directory : Path) : Act σ (List String) := do
  match ← (host.names directory).attempt with
  | .ok names => return sortNames names
  | .error failure =>
      if strict || !failure.isSystem then throw failure
      else
        host.note (.cannotList directory failure)
        return []

/-- Whether an entry is a directory that the walk goes into. -/
def isDescendable (host : Host σ) (walk : Walk σ) (path : Path) : Act σ Bool := do
  if !walk.followLinks then
    if ← host.isLink path then return false
  host.isDirectory path

def entryOf (directory : Path) (relative name : String) : Entry :=
  ⟨directory.child name, Path.joinRelative relative name⟩

def entersInto (host : Host σ) (walk : Walk σ) (entry : Entry) : Act σ Bool := do
  if ← walk.isDescendable host entry.path then walk.mayDescend entry else return false

end Walk

end FileSelection
