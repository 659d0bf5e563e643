import FileSelection.Host

/-!
# File systems

A file system is a tree of named nodes.  A location is a node with the way to it from the root;
since every node has one way to it, locations are physical places.  A path is followed name by name,
through the symbolic links on it, with the limits that the system sets on names, paths and links.

Nodes have no owners and no permissions: whoever asks may list every directory and read every file.
Names are strings of Unicode scalar values, so that no name stands for bytes that are not UTF-8.
-/

namespace FileSelection

inductive Node where
  | file (content : ByteArray) (modified : Int)
  | pipe (modified : Int)
  | link (target : String)
  | directory (entries : List (String × Node))

namespace Node

def kind : Node → Kind
  | .file _ _ => .file
  | .pipe _ => .other
  | .link _ => .link
  | .directory _ => .directory

def status : Node → Status
  | .file content modified => ⟨.file, content.size, modified⟩
  | .pipe modified => ⟨.other, 0, modified⟩
  | .link target => ⟨.link, target.utf8ByteSize, 0⟩
  | .directory _ => ⟨.directory, 0, 0⟩

end Node

/-- A node with the directories above it, the nearest first, each with the name that leads down from
it. -/
structure Location where
  node : Node
  above : List (String × Node)

namespace Location

def parent (location : Location) : Location :=
  match location.above with
  | [] => location
  | (_, directory) :: above => ⟨directory, above⟩

def child (location : Location) (name : String) (node : Node) : Location :=
  ⟨node, (name, location.node) :: location.above⟩

def names (location : Location) : List String := (location.above.map Prod.fst).reverse

end Location

structure FileSystem where
  root : Node
  working : List String

namespace FileSystem

/-! ## Limits -/

def nameLimit : Nat := 255

def pathLimit : Nat := 4095

def linkLimit : Nat := 40

/-! ## Following paths -/

/-- The names in the text of a path.  A slash at the end asks for a directory, as the name `.`
does. -/
def steps (text : String) : List String :=
  let parts := Text.splitAt ['/'] text.toList
  let names := parts.filter (!·.isEmpty)
  let all := if parts.getLast? == some [] then names ++ [['.']] else names
  all.map String.ofList

/-- Follows names from a location.  The last name is followed through a link only on demand. -/
def follow (root : Location) (through : Bool) (links : Nat) (location : Location) :
    List String → Except SystemError Location
  | [] => .ok location
  | name :: rest =>
      match location.node with
      | .directory entries =>
          if name = "." then follow root through links location rest
          else if name = ".." then follow root through links location.parent rest
          else if nameLimit < name.utf8ByteSize then .error .nameTooLong
          else
            match entries.lookup name with
            | none => .error .noEntry
            | some (.link target) =>
                if rest.isEmpty && !through then .ok (location.child name (.link target))
                else
                  match links with
                  | 0 => .error .linkLoop
                  | left + 1 =>
                      let start := if target.startsWith "/" then root else location
                      follow root through left start (steps target ++ rest)
            | some node => follow root through links (location.child name node) rest
      | _ => .error .notDirectory
termination_by names => (links, names.length)

def rootLocation (fs : FileSystem) : Location := ⟨fs.root, []⟩

def workingLocation (fs : FileSystem) : Except SystemError Location :=
  follow fs.rootLocation true linkLimit fs.rootLocation fs.working

def locate (fs : FileSystem) (through : Bool) (path : Path) : Except Failure Location :=
  let text := path.text
  if text.toList.contains '\x00' then .error .nulInPath
  else if pathLimit < text.utf8ByteSize then .error (.system .nameTooLong text)
  else
    let found : Except SystemError Location := do
      let start ← if path.isAbsolute then pure fs.rootLocation else fs.workingLocation
      follow fs.rootLocation through linkLimit start (steps text)
    match found with
    | .ok location => .ok location
    | .error error => .error (.system error text)

/-! ## Questions about paths -/

def status (fs : FileSystem) (through : Bool) (path : Path) : Except Failure Status :=
  (fs.locate through path).map (·.node.status)

def namesIn (fs : FileSystem) (path : Path) : Except Failure (List String) :=
  (fs.locate true path).bind fun location =>
    match location.node with
    | .directory entries => .ok (entries.map Prod.fst)
    | _ => .error (.system .notDirectory path.text)

def linkTarget (fs : FileSystem) (path : Path) : Except Failure String :=
  (fs.locate false path).map fun location =>
    match location.node with
    | .link target => target
    | _ => ""

/-- The content of a file.  A pipe is read as an empty file. -/
def read (fs : FileSystem) (path : Path) : Except Failure ByteArray :=
  (fs.locate true path).bind fun location =>
    match location.node with
    | .file content _ => .ok content
    | .directory _ => .error (.system .isDirectory path.text)
    | _ => .ok .empty

def workingPath (fs : FileSystem) : Path := ⟨"/", fs.working⟩

end FileSystem

end FileSelection
