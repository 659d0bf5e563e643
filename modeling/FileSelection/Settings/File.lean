import FileSelection.Path.Resolve
import FileSelection.Settings.Basic
import FileSelection.Text.Line
import FileSelection.Toml.Document

/-!
# Settings files

Settings are looked for in a directory and the directories above it, nearest first.  In each
directory the tool's own files come before the project file, which counts only if it has a section
for the tool.
-/

namespace FileSelection.Settings

variable {σ : Type}

def projectFile : String := "pyproject.toml"

def fileNames : List String := [".treeselect.toml", "treeselect.toml", projectFile]

def sectionName : String := "treeselect"

def readDocument (host : Host σ) (path : Path) : Act σ Toml.Entries := do
  let content ← host.read path
  match String.fromUTF8? content with
  | none => throw .notUtf8
  | some text => Act.ofExcept (Toml.document? (Text.unifyNewlines text.toList))

/-! ## Sections of project files -/

/-- Whether a value holds the name of the section: as a key, as an item or as a part. -/
def holdsSection : Value → Except Failure Bool
  | .table entries => .ok (entries.any (·.1 == sectionName))
  | .list items =>
      .ok (items.any fun item => text? item == some sectionName)
  | .text text => .ok (Text.occursIn sectionName.toList text.toList)
  | _ => .error .noContainer

def member (key : String) : Value → Except Failure Value
  | .table entries => .ok ((entries.lookup key).getD (.table []))
  | _ => .error .noTable

def hasSection (host : Host σ) (path : Path) : Act σ Bool := do
  match ← (readDocument host path).attempt with
  | .error .malformedDocument => return false
  | .error failure => if failure.isSystem then return false else throw failure
  | .ok document => Act.ofExcept ((member "tool" (.table document)).bind holdsSection)

/-! ## Finding and loading -/

def isCandidate (host : Host σ) (path : Path) : Act σ Bool := do
  if !(← host.isFile path) then return false
  if path.name == projectFile then hasSection host path else return true

def firstCandidate (host : Host σ) : List Path → Act σ (Option Path)
  | [] => pure none
  | path :: paths => do
      if ← isCandidate host path then return some path else firstCandidate host paths

/-- The nearest settings file, from a directory upwards. -/
def find (host : Host σ) (directory : Path) : Act σ (Option Path) := do
  let start ← directory.canonical host
  firstCandidate host (start.andParents.flatMap fun directory => fileNames.map directory.child)

def sectionOf (path : Path) (document : Toml.Entries) : Except Failure Value :=
  if path.name == projectFile then do member sectionName (← member "tool" (.table document))
  else .ok (.table document)

def load (host : Host σ) (path : Path) : Act σ Settings := do
  let document ← readDocument host path
  let content ← Act.ofExcept (sectionOf path document)
  host.note (.settingsLoaded path)
  match content with
  | .table entries =>
      let (settings, unknown) := ofDocument entries
      unknown.forM fun key => host.note (.unknownSetting key)
      Act.ofExcept settings
  | _ => throw .noTable

end FileSelection.Settings
