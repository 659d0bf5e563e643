import FileSelection.FileSystem.Basic
import FileSelection.Keyed

/-!
# Changes of a file system

Nodes are put into directories, replaced and removed.
-/

namespace FileSelection

def Node.withEntry (name : String) (node : Option Node) : Node → Node
  | .directory entries =>
      match node with
      | some node => .directory (Keyed.put name node entries)
      | none => .directory (entries.eraseP (·.1 == name))
  | other => other

def rebuild : Option Node → List (String × Node) → Option Node
  | node, [] => node
  | node, (name, directory) :: above => rebuild (some (directory.withEntry name node)) above

namespace FileSystem

def replace (fs : FileSystem) (location : Location) (node : Option Node) : FileSystem :=
  { fs with root := (rebuild node location.above).getD (.directory []) }

def put (fs : FileSystem) (directory : Path) (name : String) (node : Node) :
    Except Failure FileSystem :=
  (fs.locate true directory).bind fun location =>
    match location.node with
    | .directory entries =>
        .ok (fs.replace location (some (.directory (Keyed.put name node entries))))
    | _ => .error (.system .notDirectory directory.text)

def makeDirectories (fs : FileSystem) (base : Path) : List String → Except Failure FileSystem
  | [] => .ok fs
  | name :: names =>
      let path : Path := { base with names := base.names ++ [name] }
      match fs.locate true path with
      | .ok _ => makeDirectories fs path names
      | .error _ =>
          (fs.put base name (.directory [])).bind fun fs => makeDirectories fs path names

def parentOf (path : Path) : Path := { path with names := path.names.dropLast }

/-- Puts a node at a path, below directories that are made as needed.  A file is written through a
link that leads to a file. -/
def create (fs : FileSystem) (path : Path) (node : Node) : Except Failure FileSystem := do
  let parent := parentOf path
  let fs ← fs.makeDirectories ⟨path.root, []⟩ parent.names
  match node, fs.locate true path with
  | .file _ _, .ok location => return fs.replace location (some node)
  | .directory _, .ok location =>
      match location.node with
      | .directory _ => return fs
      | _ => fs.put parent path.name node
  | _, _ => fs.put parent path.name node

def remove (fs : FileSystem) (path : Path) : Except Failure FileSystem :=
  (fs.locate false path).map fun location => fs.replace location none

def touch (fs : FileSystem) (path : Path) (modified : Int) : Except Failure FileSystem :=
  (fs.locate true path).map fun location =>
    match location.node with
    | .file content _ => fs.replace location (some (.file content modified))
    | .pipe _ => fs.replace location (some (.pipe modified))
    | _ => fs

end FileSystem

end FileSelection
