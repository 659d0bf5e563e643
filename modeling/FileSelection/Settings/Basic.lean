import FileSelection.Failure
import FileSelection.Keyed
import FileSelection.Settings.Value
import FileSelection.Text.Pieces

/-!
# Settings

The nine settings that a document can make, each of which may be absent.  A document writes a
setting at its top level or in one section, and may write its name with hyphens instead of
underscores.
-/

namespace FileSelection

inductive Setting where
  | includes
  | excludes
  | prunes
  | ignoreFile
  | basepath
  | engine
  | caseSensitive
  | strict
  | followLinks
  deriving DecidableEq, Repr

namespace Setting

def all : List Setting :=
  [.includes, .excludes, .prunes, .ignoreFile, .basepath, .engine, .caseSensitive, .strict,
    .followLinks]

def name : Setting → String
  | .includes => "include"
  | .excludes => "exclude"
  | .prunes => "ignore_dirs"
  | .ignoreFile => "ignore_file"
  | .basepath => "basepath"
  | .engine => "engine"
  | .caseSensitive => "case_sensitive"
  | .strict => "strict"
  | .followLinks => "follow_symlinks"

def underscored (key : String) : String :=
  String.ofList (key.toList.map fun c => if c == '-' then '_' else c)

def ofKey? (key : String) : Option Setting :=
  all.find? fun setting => setting.name == underscored key

end Setting

structure Settings where
  includes : Option (List String) := none
  excludes : Option (List String) := none
  prunes : Option (List String) := none
  ignoreFile : Option String := none
  basepath : Option String := none
  engine : Option String := none
  caseSensitive : Option Bool := none
  strict : Option Bool := none
  followLinks : Option Bool := none
  deriving DecidableEq, Repr

namespace Settings

/-! ## Typed values -/

def text? : Value → Option String
  | .text text => some text
  | _ => none

def patterns? : Value → Option (List String)
  | .text text => some (Text.patternsOf text)
  | .list items => items.mapM text?
  | _ => none

def flag? : Value → Option Bool
  | .bool flag => some flag
  | _ => none

def orWrong {α : Type} (key expected : String) (value : Value) : Option α → Except Failure α
  | some found => .ok found
  | none => .error (if value.isShown then .wrongSetting key expected value.shown else .longValue)

def patternsOf (key : String) (value : Value) : Except Failure (List String) :=
  orWrong key "a string or a list of strings" value (patterns? value)

def textOf (key : String) (value : Value) : Except Failure String :=
  orWrong key "a string" value (text? value)

def flagOf (key : String) (value : Value) : Except Failure Bool :=
  orWrong key "true or false" value (flag? value)

def put (settings : Settings) (setting : Setting) (key : String) (value : Value) :
    Except Failure Settings :=
  match setting with
  | .includes => (patternsOf key value).map fun v => { settings with includes := some v }
  | .excludes => (patternsOf key value).map fun v => { settings with excludes := some v }
  | .prunes => (patternsOf key value).map fun v => { settings with prunes := some v }
  | .ignoreFile => (textOf key value).map fun v => { settings with ignoreFile := some v }
  | .basepath => (textOf key value).map fun v => { settings with basepath := some v }
  | .engine => (textOf key value).map fun v => { settings with engine := some v }
  | .caseSensitive => (flagOf key value).map fun v => { settings with caseSensitive := some v }
  | .strict => (flagOf key value).map fun v => { settings with strict := some v }
  | .followLinks => (flagOf key value).map fun v => { settings with followLinks := some v }

/-! ## Documents -/

/-- The entries of a document at the top level; those of a section take the place of the section. -/
def flatten (document : List (String × Value)) : List (String × Value) :=
  document.foldl
    (fun flat entry =>
      match entry.2 with
      | .table section' => section'.foldl (fun flat entry => Keyed.put entry.1 entry.2 flat) flat
      | value => Keyed.put entry.1 value flat)
    []

/-- Makes the settings of entries one after the other.  The second component lists the keys that
name no setting, up to the first wrong value. -/
def putAll : Settings → List (String × Value) → Except Failure Settings × List String
  | settings, [] => (.ok settings, [])
  | settings, (key, value) :: entries =>
      match Setting.ofKey? key with
      | none =>
          let (result, unknown) := putAll settings entries
          (result, key :: unknown)
      | some setting =>
          match settings.put setting key value with
          | .ok settings => putAll settings entries
          | .error failure => (.error failure, [])

def ofDocument (document : List (String × Value)) : Except Failure Settings × List String :=
  putAll {} (flatten document)

end Settings

end FileSelection
