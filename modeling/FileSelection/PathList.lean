import FileSelection.Selection

/-!
# Path lists

A path list names relative paths below a base directory.  The paths are kept in ascending order and
without repetition; those that lead nowhere are passed over when the list is visited.
-/

namespace FileSelection

structure PathList where
  directory : Path
  /-- Ascending. -/
  members : List String
  deriving Repr

namespace PathList

variable {σ : Type}

def insert (text : String) : List String → List String
  | [] => [text]
  | member :: members =>
      if text < member then text :: member :: members
      else if member < text then member :: insert text members
      else member :: members

/-- Leading slashes carry no meaning. -/
def relativePart (text : String) : String := String.ofList (text.toList.dropWhile (· == '/'))

def includes (list : PathList) (paths : List String) : PathList :=
  { list with
    members := paths.foldl (fun members path => insert (relativePart path) members) list.members }

def make (host : Host σ) (directory : String) (paths : List String) : Act σ PathList := do
  let path ← checkDirectory host directory
  return (⟨path, []⟩ : PathList).includes paths

def ordered (list : PathList) (bottomUp : Bool) : List String :=
  if bottomUp then list.members.reverse else list.members

def entryOf (list : PathList) (relative : String) : Entry :=
  ⟨list.directory.join (Path.ofText relative), relative⟩

variable {β : Type}

def forEach (host : Host σ) (list : PathList) (visit : Entry → Act (β × σ) Unit)
    (bottomUp : Bool) : Act (β × σ) Unit :=
  (list.ordered bottomUp).forM fun relative => do
    let entry := list.entryOf relative
    if ← (host.exists? entry.path).beside then visit entry

def shown (list : PathList) : String :=
  s!"PathSet({Text.quoted list.directory.text}, {list.members.length} paths)"

end PathList

end FileSelection
