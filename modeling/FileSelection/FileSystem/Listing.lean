import FileSelection.FileSystem.Edit
import FileSelection.Text.Digits

/-!
# Listings of file systems

A listing describes a file system with one line for each node.  The fields of a line are separated
by tab characters: the kind of the node, its path below the working directory, and what else is
known.

    directory  path
    file       path  time  content
    pipe       path  time
    link       path  target

A time is a decimal number of nanoseconds and a content a sequence of bytes with two hexadecimal
digits each.  The working directory is the root.
-/

namespace FileSelection.FileSystem

open FileSelection.Text

def empty : FileSystem := ⟨.directory [], []⟩

/-! ## Fields -/

def bytes? : List Char → Option (List UInt8)
  | [] => some []
  | [_] => none
  | high :: low :: rest => do
      let high ← digitValue? 16 high
      let low ← digitValue? 16 low
      let bytes ← bytes? rest
      some (UInt8.ofNat (16 * high + low) :: bytes)

def content? (text : List Char) : Option ByteArray := (bytes? text).map fun bytes => ⟨bytes.toArray⟩

def natural? (text : List Char) : Option Nat :=
  match digits 10 text.length 0 text with
  | (0, _, _) => none
  | (_, value, []) => some value
  | _ => none

def time? : List Char → Option Int
  | '-' :: text => (natural? text).map fun size => -(size : Int)
  | text => (natural? text).map fun size => (size : Int)

/-! ## Lines -/

def node? (fields : List (List Char)) : Option (Path × Node) :=
  match fields with
  | kind :: path :: more =>
      let found : Option Node := match String.ofList kind, more with
        | "directory", [] => some (.directory [])
        | "file", [time, content] => do some (.file (← content? content) (← time? time))
        | "pipe", [time] => (time? time).map .pipe
        | "link", [target] => some (.link (String.ofList target))
        | _, _ => none
      found.map fun node => (Path.ofText (String.ofList path), node)
  | _ => none

def addLine? (fs : FileSystem) (line : List Char) : Option FileSystem :=
  if line.isEmpty then some fs
  else do
    let (path, node) ← node? (splitAt ['\t'] line)
    (fs.create path node).toOption

/-- The file system of a listing, or nothing if a line describes no node or finds no place. -/
def ofListing? (text : String) : Option FileSystem :=
  (splitAt ['\n'] text.toList).foldlM addLine? empty

end FileSelection.FileSystem
