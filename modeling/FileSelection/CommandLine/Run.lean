import FileSelection.Collection
import FileSelection.CommandLine.Options
import FileSelection.FileSystem.Session
import FileSelection.Ignore.Standard
import FileSelection.Settings.File

/-!
# Running the command line

A run reads the words of the command line, finds and loads the settings, makes the selection and
prints one line for each entry.  It ends with an exit status: 0, 1 if the selection could not be
made, or 2 if the words could not be read or the walk has failed.
-/

namespace FileSelection

namespace CommandLine

def Argument.item {σ : Type} : Argument → RuleItem σ
  | .text word => .pattern word
  | .nothing => .other (.list [])

def textOf (argument : Option Argument) : String := (argument.bind Argument.text?).getD ""

end CommandLine

namespace Selection

variable [Ignore.Library] {σ : Type}

def build (host : Host σ) (directory : String) (choice : Choice)
    (includes excludes prunes : List (RuleItem σ)) (ignoreFile : String) :
    Act σ (Selection σ) := do
  let selection ← make host directory choice none none
  let selection ← Act.ofExcept (selection.includes includes)
  let selection ← Act.ofExcept (selection.excludes excludes)
  let selection ← Act.ofExcept (selection.prunes prunes)
  if ignoreFile.isEmpty then return selection
  selection.excludesFrom host ((Path.ofText directory).child ignoreFile)

def ofSettings (host : Host σ) (directory : String) (settings : Settings) :
    Act σ (Selection σ) :=
  let engine := settings.engine.getD ""
  let choice : Choice := {
    basepath := settings.basepath.getD ""
    caseSensitive := settings.caseSensitive.getD true
    engine := if engine.isEmpty then "glob" else engine
    strict := settings.strict.getD false
    followLinks := settings.followLinks.getD true }
  let patterns (list : Option (List String)) : List (RuleItem σ) := (list.getD []).map .pattern
  build host directory choice (patterns settings.includes) (patterns settings.excludes)
    (patterns settings.prunes) (settings.ignoreFile.getD "")

def ofOptions (host : Host σ) (directory : String) (options : Options) : Act σ (Selection σ) :=
  let choice : Choice := {
    basepath := options.basepath
    caseSensitive := options.caseSensitive
    engine := if options.engine.isEmpty then "glob" else options.engine
    strict := options.strict
    followLinks := options.followLinks }
  build host directory choice (options.includes.map (·.item)) (options.excludes.map (·.item))
    (options.prunes.map (·.item)) (CommandLine.textOf options.ignoreFile)

end Selection

namespace CommandLine

def versionText : String := "v0.1.0"

def helpText : String :=
  "treeselect: Select files and directories by glob pattern\n\n" ++
  "Common usage:\n" ++
  "  treeselect src --include '**/*.py'\n" ++
  "  treeselect . --include '**/*.txt' --ignore-dir .git --files\n" ++
  "  treeselect build --bottom-up --dirs\n\n" ++
  "Patterns use `/` on every platform. `*` and `?` match within one path segment,\n" ++
  "`**/` matches any number of segments, and a trailing `/` selects a directory\n" ++
  "together with everything below it.\n\n" ++
  "Settings can also come from `.treeselect.toml`, `treeselect.toml`, or a\n" ++
  "`[tool.treeselect]` table in `pyproject.toml`. Command-line flags take precedence."

def noDirectoryText : String :=
  "No directory specified (use '.' for current directory, --help for more options)"

structure Ending where
  exit : Nat
  error : Option String
  verbose : Bool
  deriving Repr

variable [Ignore.Library] {σ : Type}

def loadSettings (host : Host σ) (options : Options) (directory : Path) :
    Act σ (Option Settings) := do
  if options.noSettings then return none
  let file := textOf options.settingsFile
  if file.isEmpty then
    match ← Settings.find host directory with
    | none => return none
    | some path => return some (← Settings.load host path)
  else return some (← Settings.load host (Path.ofText file))

/-- Makes the selection, from the options and the settings that they leave room for. -/
def prepare (host : Host σ) (options : Options) (explicit : List Setting) (directory : String) :
    Act σ (Selection σ) := do
  let path := Path.ofText directory
  let start ← if ← host.isDirectory path then pure path else host.workingDirectory
  let settings ← loadSettings host options start
  Selection.ofOptions host directory (options.withSettings? explicit settings)

/-- Failures that are reported to the user instead of breaking the run off. -/
def isReported : Failure → Bool
  | .system _ _ | .baseMissing _ | .baseNotDirectory _ => true
  | .nulInPath | .unknownEngine _ | .wrongSetting _ _ _ => true
  | .badIgnoreLine _ => Ignore.Library.refusalIsValue
  | .alphabetClash | .longNumber _ | .longValue => true
  | .malformedDocument | .notUtf8 | .emptySeparator | .targetChoice => true
  | _ => false

def lineOf (host : Host σ) (options : Options) (entry : Entry) : Act σ String := do
  if options.absolute then return ((← host.workingDirectory).join entry.path).text
  else return entry.relative

def printAll (host : Host σ) (print : String → Act σ Unit) (options : Options)
    (selection : Selection σ) : Act σ Unit :=
  let lines : Sequence σ String :=
    (Collection.selected selection).collect (fun entry => some <$> lineOf host options entry)
      options.bottomUp (some (options.selected.rule?.getD (.kind .everything)))
  Act.gathering () (lines.forEach host (.selected selection) fun line => (print line).beside)

def runOptions (host : Host σ) (print : String → Act σ Unit) (options : Options)
    (explicit : List Setting) : Act σ Ending := do
  let ended (exit : Nat) (error : Option String) : Ending := ⟨exit, error, options.verbose⟩
  if options.version then
    print versionText
    return ended 0 none
  match options.directory with
  | none | some "" => return ended 1 (some noDirectoryText)
  | some directory =>
      match ← (prepare host options explicit directory).attempt with
      | .error failure =>
          if isReported failure then return ended 1 (some failure.message) else throw failure
      | .ok selection =>
          match ← (printAll host print options selection).attempt with
          | .ok () => return ended 0 none
          | .error failure =>
              if failure.isSystem then return ended 2 (some failure.message) else throw failure

structure Transcript where
  /-- The exit status, or the failure that has broken the run off. -/
  exit : Except Failure Nat
  output : String
  errors : String

def unlines (lines : List String) : String := String.join (lines.map (· ++ "\n"))

def noteLine (note : Note) : String := s!"{note.source}: {note.text}"

/-- Runs a command line on a file system.  The session holds the printed lines, the latest first.
A run that goes on for ever shows nothing as a whole. -/
def run (files : FileSystem) (words : List String) : Option Transcript :=
  match Options.ofWords words with
  | .error (.fault error) => some ⟨.ok 2, "", s!"treeselect: error: {error.message}\n"⟩
  | .error (.halt _) => some ⟨.ok 0, helpText ++ "\n", ""⟩
  | .ok (options, explicit) =>
      let print (line : String) : Act (Session (List String)) Unit := fun session =>
        some (.ok (), { session with record := line :: session.record })
      let show' (session : Session (List String)) (exit : Except Failure Nat)
          (error : Option String) : Transcript :=
        let notes := if options.verbose then session.notes.reverse.map noteLine else []
        let errors := error.toList.map fun text => s!"Error: {text}"
        ⟨exit, unlines session.record.reverse, unlines (notes ++ errors)⟩
      match runOptions Session.host print options explicit (Session.ofFiles files []) with
      | some (.ok ending, session) => some (show' session (.ok ending.exit) ending.error)
      | some (.error failure, session) => some (show' session (.error failure) none)
      | none => none

end CommandLine

end FileSelection
