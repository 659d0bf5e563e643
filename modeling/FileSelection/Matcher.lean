import FileSelection.Glob
import FileSelection.Ignore
import FileSelection.Segmented

/-!
# Matchers

A matcher is a compiled list of patterns of one syntax.  It accepts a relative path when one of its
patterns does; a matcher of ignore rules weighs its rules against each other and needs to know which
paths are directories.
-/

namespace FileSelection

inductive Engine where
  | glob
  | segmented
  | ignore
  deriving DecidableEq, Repr

namespace Engine

def name : Engine → String
  | .glob => "glob"
  | .segmented => "ant"
  | .ignore => "gitignore"

def ofName? (name : String) : Except Failure Engine :=
  match name with
  | "glob" => .ok .glob
  | "ant" => .ok .segmented
  | "gitignore" => .ok .ignore
  | _ => .error (.unknownEngine name)

end Engine

inductive Matcher where
  | glob (patterns : List String) (caseSensitive : Bool) (expressions : List Expression)
  | segmented (patterns : List String) (caseSensitive : Bool)
  | ignore (rules : Ignore.Rules)
  | regex (expressions : List Expression)

namespace Matcher

def compileGlobs? (patterns : List String) (separator : String) (caseSensitive : Bool) :
    Except Failure (List Expression) :=
  patterns.mapM fun pattern => Glob.compile? pattern separator caseSensitive

def ofGlobs? (patterns : List String) (separator : String) (caseSensitive : Bool) :
    Except Failure Matcher :=
  (compileGlobs? patterns separator caseSensitive).map (.glob patterns caseSensitive)

def ofIgnoreLines? [Ignore.Library] (lines : List String) : Except Failure Matcher :=
  (Ignore.Library.compile? lines).map .ignore

def ofPatterns? [Ignore.Library] (engine : Engine) (caseSensitive : Bool)
    (patterns : List String) : Except Failure Matcher :=
  match engine with
  | .glob => ofGlobs? patterns "/" caseSensitive
  | .segmented => .ok (.segmented patterns caseSensitive)
  | .ignore => ofIgnoreLines? patterns

def expressions : Matcher → List Expression
  | .glob _ _ expressions | .regex expressions => expressions
  | .segmented _ _ | .ignore _ => []

def needsKind : Matcher → Bool
  | .ignore _ => true
  | _ => false

def accepts (matcher : Matcher) (isDirectory : Bool) (relative : String) : Bool :=
  match matcher with
  | .glob _ _ expressions | .regex expressions => expressions.any (·.accepts relative)
  | .segmented patterns caseSensitive =>
      patterns.any fun pattern =>
        Segmented.coversPath? ['/'] caseSensitive pattern.toList relative.toList == some true
  | .ignore rules => rules.ignores (if isDirectory then relative ++ "/" else relative)

/-! ## Display -/

def shownList (texts : List String) : String :=
  "[" ++ ", ".intercalate (texts.map Text.quoted) ++ "]"

def shownFlag (flag : Bool) : String := if flag then "True" else "False"

def shown : Matcher → String
  | .glob patterns caseSensitive _ =>
      s!"GlobFilter({shownList patterns}, case_sensitive={shownFlag caseSensitive})"
  | .segmented patterns caseSensitive =>
      s!"AntFilter({shownList patterns}, case_sensitive={shownFlag caseSensitive})"
  | .ignore rules => s!"GitignoreFilter({rules.count} patterns)"
  | .regex expressions =>
      let sources := ", ".intercalate (expressions.map fun e => Text.quoted e.source)
      s!"RegexFilter({sources})"

end Matcher

end FileSelection
