import FileSelection.IgnoreFile
import FileSelection.Text.Pieces
import FileSelection.Walk.Basic

/-!
# Selections

A selection is a base directory with rules for what is reported below it and for what is entered.  A
text that is given when a selection is made may hold several patterns; later rules are taken one by
one.  Rules are matched against the reported relative paths, which start with the base path.
-/

namespace FileSelection

def checkDirectory {σ : Type} (host : Host σ) (text : String) : Act σ Path := do
  let path := Path.ofText text
  if !(← host.exists? path) then throw (.baseMissing path.text)
  if !(← host.isDirectory path) then throw (.baseNotDirectory path.text)
  return path

structure Selection (σ : Type) where
  directory : Path
  engine : Engine
  caseSensitive : Bool
  strict : Bool
  followLinks : Bool
  basepath : String
  rules : RuleSet σ

namespace Selection

variable [Ignore.Library] {σ : Type}

structure Choice where
  basepath : String := ""
  caseSensitive : Bool := true
  engine : String := "glob"
  strict : Bool := false
  followLinks : Bool := true
  deriving Repr

/-! ## Rules -/

def compile (selection : Selection σ) (items : List (RuleItem σ)) :
    Except Failure (List (Rule σ)) :=
  Rule.ofItems? selection.engine.name selection.caseSensitive items

def includes (selection : Selection σ) (items : List (RuleItem σ)) :
    Except Failure (Selection σ) := do
  let rules ← selection.compile items
  return { selection with
    rules := { selection.rules with includes := selection.rules.includes ++ rules } }

def excludes (selection : Selection σ) (items : List (RuleItem σ)) :
    Except Failure (Selection σ) := do
  let rules ← selection.compile items
  return { selection with
    rules := { selection.rules with excludes := selection.rules.excludes ++ rules } }

def prunes (selection : Selection σ) (items : List (RuleItem σ)) :
    Except Failure (Selection σ) := do
  let rules ← selection.compile items
  return { selection with
    rules := { selection.rules with prunes := selection.rules.prunes ++ rules } }

def exclude (selection : Selection σ) (rule : Rule σ) : Selection σ :=
  { selection with
    rules := { selection.rules with excludes := selection.rules.excludes ++ [rule] } }

def filesOnly (selection : Selection σ) : Selection σ := selection.exclude (.kind .notFile)

def directoriesOnly (selection : Selection σ) : Selection σ :=
  selection.exclude (.kind .notDirectory)

def withBasepath (selection : Selection σ) (basepath : String) : Selection σ :=
  { selection with basepath }

/-- Excludes what an ignore file lists; a file without rules adds nothing. -/
def excludesFrom (host : Host σ) (selection : Selection σ) (file : Path) : Act σ (Selection σ) := do
  match ← IgnoreFile.rulesOf host file with
  | none => return selection
  | some rules => return selection.exclude (.matching (.ignore rules))

/-! ## Making a selection -/

/-- The items of a first rule: a text may hold several patterns. -/
def firstItems : Option (RuleItem σ) → List (RuleItem σ)
  | none => []
  | some (.pattern text) => (Text.patternsOf text).map .pattern
  | some item => [item]

def make (host : Host σ) (directory : String) (choice : Choice)
    (included excluded : Option (RuleItem σ)) : Act σ (Selection σ) := do
  let path ← checkDirectory host directory
  let engine ← Act.ofExcept (Engine.ofName? choice.engine)
  let selection : Selection σ :=
    ⟨path, engine, choice.caseSensitive, choice.strict, choice.followLinks, choice.basepath, .empty⟩
  let selection ← Act.ofExcept (selection.includes (firstItems included))
  Act.ofExcept (selection.excludes (firstItems excluded))

/-! ## Decisions -/

def accepts (host : Host σ) (selection : Selection σ) (entry : Entry) : Act σ Bool :=
  selection.rules.accepts host entry

def mayDescend (host : Host σ) (selection : Selection σ) (entry : Entry) : Act σ Bool :=
  selection.rules.mayDescend host entry

def walk (host : Host σ) (selection : Selection σ) (bottomUp : Bool) : Walk σ :=
  ⟨selection.accepts host, selection.mayDescend host, bottomUp, selection.strict,
    selection.followLinks⟩

def shown (selection : Selection σ) : String :=
  let directory := Text.quoted selection.directory.text
  let basepath := Text.quoted selection.basepath
  let engine := Text.quoted selection.engine.name
  s!"Fileset({directory}, basepath={basepath}, engine={engine})"

end Selection

end FileSelection
