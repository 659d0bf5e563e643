import FileSelection.Host

/-!
# Canonical paths

The canonical form of a path is absolute and leads through no symbolic link, as far as the links can
be followed.  A link is followed once; a link that leads back to itself stays in the path, and what
comes after it is appended as it is written.
-/

namespace FileSelection.Path

open FileSelection.Text

variable {σ : Type}

/-- The path one level up.  From a path without names, or one that ends in `..`, it leads on
upwards. -/
def up (path : Path) : Path :=
  match path.names.getLast? with
  | none => if path.isAbsolute then path else { path with names := [".."] }
  | some ".." => { path with names := path.names ++ [".."] }
  | some _ => { path with names := path.names.dropLast }

def partsOf (text : String) : List String := (splitAt ['/'] text.toList).map String.ofList

def appendText (path : String) (rest : List String) : String :=
  let rest := "/".intercalate rest
  if rest.toList.head? == some '/' then rest
  else if path.toList.getLast? == some '/' then path ++ rest
  else s!"{path}/{rest}"

inductive Arrival where
  | reached (path : Path)
  /-- A link that leads to itself has ended the search; what is left is only text. -/
  | stuck (text : String)
  deriving DecidableEq, Repr

/-- The links met so far, with their ends unless they are still being followed. -/
abbrev Followed := List (Path × Option Path)

/-- Appends the parts of a written path to a canonical one and follows the links on the way.  The
first number bounds how many links are being followed at one time. -/
def canonicalAfter (host : Host σ) :
    Nat → List String → Path → Followed → Act σ (Arrival × Followed)
  | _, [], path, followed => pure (.reached path, followed)
  | links, name :: rest, path, followed => do
      if name == "" || name == "." then canonicalAfter host links rest path followed
      else if name == ".." then canonicalAfter host links rest path.up followed
      else
        let next : Path := { path with names := path.names ++ [name] }
        let isLink ← match ← (host.status false next).attempt with
          | .ok status => pure (status.kind == .link)
          | .error failure => if failure.isSystem then pure false else throw failure
        if !isLink then canonicalAfter host links rest next followed
        else
          match followed.lookup next with
          | some (some target) => canonicalAfter host links rest target followed
          | some none => return (.stuck (appendText next.text rest), followed)
          | none =>
              match links with
              | 0 => return (.stuck (appendText next.text rest), followed)
              | links' + 1 =>
                  let target ← host.linkTarget next
                  let start : Path := if (ofText target).isAbsolute then ⟨"/", []⟩ else path
                  match ← canonicalAfter host links' (partsOf target) start
                      ((next, none) :: followed) with
                  | (.reached end', followed) =>
                      canonicalAfter host (links' + 1) rest end' ((next, some end') :: followed)
                  | (.stuck text, followed) => return (.stuck (appendText text rest), followed)
termination_by links names => (links, names.length)

def collapse (names : List String) : List String :=
  (names.foldl (fun kept name => if name == ".." then kept.drop 1 else name :: kept) []).reverse

def followLimit : Nat := 1000

/-- The canonical form of a path.  It is a failure if the path leads into links without an end. -/
def canonical (host : Host σ) (path : Path) : Act σ Path := do
  let start : Path := if path.isAbsolute then ⟨"/", []⟩ else ⟨"", []⟩
  let reached ← match ← canonicalAfter host followLimit path.names start [] with
    | (.reached path, _) => pure path
    | (.stuck text, _) => pure (ofText text)
  let whole := (← host.workingDirectory).join reached
  let found : Path := { whole with names := collapse whole.names }
  match ← (host.status true found).attempt with
  | .error (.system .linkLoop _) => throw (.endlessLink found.text)
  | .error failure => if failure.isSystem then return found else throw failure
  | .ok _ => return found

end FileSelection.Path
