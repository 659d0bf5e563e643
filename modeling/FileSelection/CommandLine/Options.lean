import FileSelection.CommandLine.Grammar
import FileSelection.Rules
import FileSelection.Settings.Basic
import FileSelection.Text.Word

/-!
# Options of the command line

The options of the tool, the values they start from, and how settings of a document fill in what the
command line leaves open.
-/

namespace FileSelection

structure Options where
  directory : Option String := none
  includes : List CommandLine.Argument := []
  excludes : List CommandLine.Argument := []
  prunes : List CommandLine.Argument := []
  ignoreFile : Option CommandLine.Argument := none
  basepath : String := ""
  engine : String := "glob"
  caseSensitive : Bool := true
  strict : Bool := false
  followLinks : Bool := true
  bottomUp : Bool := false
  selected : Selected := .any
  absolute : Bool := false
  settingsFile : Option CommandLine.Argument := none
  noSettings : Bool := false
  verbose : Bool := false
  version : Bool := false
  deriving DecidableEq, Repr

namespace CommandLine

inductive Key where
  | help
  | setting (setting : Setting)
  | bottomUp
  | files
  | directories
  | absolute
  | settingsFile
  | noSettings
  | verbose
  | version
  deriving DecidableEq, Repr

def flag (key : Key) (names : List String) : OptionRule Key := ⟨key, names, false, [], none⟩

def argument (key : Key) (names : List String) : OptionRule Key := ⟨key, names, true, [], none⟩

def optionRules : List (OptionRule Key) := [
  flag .help ["-h", "--help"],
  argument (.setting .includes) ["-i", "--include"],
  argument (.setting .excludes) ["-e", "--exclude"],
  argument (.setting .prunes) ["--ignore-dir"],
  argument (.setting .ignoreFile) ["--ignore-file"],
  argument (.setting .basepath) ["--basepath"],
  ⟨.setting .engine, ["--engine"], true, Failure.engineNames, none⟩,
  flag (.setting .caseSensitive) ["--ignore-case"],
  flag (.setting .strict) ["--strict"],
  flag (.setting .followLinks) ["--no-follow-symlinks"],
  flag .bottomUp ["--bottom-up"],
  ⟨.files, ["--files"], false, [], some 0⟩,
  ⟨.directories, ["--dirs"], false, [], some 0⟩,
  flag .absolute ["--absolute"],
  argument .settingsFile ["--config"],
  flag .noSettings ["--no-config"],
  flag .verbose ["-v", "--verbose"],
  flag .version ["--version"]]

end CommandLine

namespace Options

open CommandLine

/-- Applies one option.  Patterns add up; of several values of any other option the last one
counts. -/
def apply (options : Options) (key : Key) (argument : Option Argument) : Options :=
  match key with
  | .help => options
  | .setting .includes => { options with includes := options.includes ++ argument.toList }
  | .setting .excludes => { options with excludes := options.excludes ++ argument.toList }
  | .setting .prunes => { options with prunes := options.prunes ++ argument.toList }
  | .setting .ignoreFile => { options with ignoreFile := argument }
  | .setting .basepath => { options with basepath := (argument.bind Argument.text?).getD "" }
  | .setting .engine => { options with engine := (argument.bind Argument.text?).getD "glob" }
  | .setting .caseSensitive => { options with caseSensitive := false }
  | .setting .strict => { options with strict := true }
  | .setting .followLinks => { options with followLinks := false }
  | .bottomUp => { options with bottomUp := true }
  | .files => { options with selected := .files }
  | .directories => { options with selected := .directories }
  | .absolute => { options with absolute := true }
  | .settingsFile => { options with settingsFile := argument }
  | .noSettings => { options with noSettings := true }
  | .verbose => { options with verbose := true }
  | .version => { options with version := true }

def explicitIn (sentence : Sentence Key) (setting : Setting) : Bool :=
  sentence.options.any fun (rule, _) => rule.key == .setting setting

def ofSentence (sentence : Sentence Key) : Options :=
  sentence.options.foldl (fun options (rule, argument) => options.apply rule.key argument)
    { directory := sentence.operand.join }

def ofWords (words : List String) : Except (Stop Key) (Options × List Setting) := do
  let sentence ← read Text.isDigit (· == .help) optionRules words
  return (ofSentence sentence, Setting.all.filter (explicitIn sentence))

def texts (list : List String) : List Argument := list.map .text

def withSettings (options : Options) (explicit : List Setting) (settings : Settings) : Options :=
  let choose {α : Type} (setting : Setting) (value : Option α) (own : α) : α :=
    if explicit.contains setting then own else value.getD own
  { options with
    includes := choose .includes (settings.includes.map texts) options.includes
    excludes := choose .excludes (settings.excludes.map texts) options.excludes
    prunes := choose .prunes (settings.prunes.map texts) options.prunes
    ignoreFile :=
      choose .ignoreFile (settings.ignoreFile.map fun file => some (.text file))
        options.ignoreFile
    basepath := choose .basepath settings.basepath options.basepath
    engine := choose .engine settings.engine options.engine
    caseSensitive := choose .caseSensitive settings.caseSensitive options.caseSensitive
    strict := choose .strict settings.strict options.strict
    followLinks := choose .followLinks settings.followLinks options.followLinks }

def withSettings? (options : Options) (explicit : List Setting) : Option Settings → Options
  | none => options
  | some settings => options.withSettings explicit settings

end Options

end FileSelection
