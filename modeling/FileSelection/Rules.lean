import FileSelection.Host
import FileSelection.Matcher
import FileSelection.Settings.Value

/-!
# Rules

A rule is a condition on the entries of a walk: a matcher, a question about the kind of the entry,
or a condition of the caller's own.  A rule set holds three lists of rules and makes two decisions
from them that do not depend on each other, which entries are reported and which directories are
entered.
-/

namespace FileSelection

structure Entry where
  path : Path
  relative : String
  deriving DecidableEq, Repr

inductive KindTest where
  | everything
  | isFile
  | notFile
  | isDirectory
  | notDirectory
  deriving DecidableEq, Repr

inductive Rule (σ : Type) where
  | matching (matcher : Matcher)
  | kind (test : KindTest)
  | custom (test : Entry → Act σ Bool)

namespace Rule

variable {σ : Type}

def holds (host : Host σ) (rule : Rule σ) (entry : Entry) : Act σ Bool :=
  match rule with
  | .matching matcher => do
      let isDirectory ← if matcher.needsKind then host.isDirectory entry.path else pure false
      pure (matcher.accepts isDirectory entry.relative)
  | .kind .everything => pure true
  | .kind .isFile => host.isFile entry.path
  | .kind .notFile => return !(← host.isFile entry.path)
  | .kind .isDirectory => host.isDirectory entry.path
  | .kind .notDirectory => return !(← host.isDirectory entry.path)
  | .custom test => test entry

def anyHolds (host : Host σ) : List (Rule σ) → Entry → Act σ Bool
  | [], _ => pure false
  | rule :: rules, entry => do
      if ← rule.holds host entry then pure true else anyHolds host rules entry

end Rule

inductive Selected where
  | any
  | files
  | directories
  deriving DecidableEq, Repr

def Selected.name : Selected → String
  | .any => "any"
  | .files => "files"
  | .directories => "dirs"

def Selected.rule? {σ : Type} : Selected → Option (Rule σ)
  | .any => none
  | .files => some (.kind .isFile)
  | .directories => some (.kind .isDirectory)

inductive RuleItem (σ : Type) where
  | pattern (text : String)
  | regex (expression : Expression)
  | ready (rule : Rule σ)
  /-- Any other value, which is refused. -/
  | other (value : Value)

namespace RuleItem

variable {σ : Type}

def pattern? : RuleItem σ → Option String
  | .pattern text => some text
  | _ => none

def expression? : RuleItem σ → Option Expression
  | .regex expression => some expression
  | _ => none

def rule? : RuleItem σ → Option (Rule σ)
  | .ready rule => some rule
  | _ => none

def refused? : RuleItem σ → Option Value
  | .other value => some value
  | _ => none

end RuleItem

/-- Turns items into rules.  All patterns together become one matcher, and so do all expressions;
the rules among the items follow as they are. -/
def Rule.ofItems? [Ignore.Library] {σ : Type} (engine : String) (caseSensitive : Bool)
    (items : List (RuleItem σ)) : Except Failure (List (Rule σ)) := do
  if let some value := items.findSome? RuleItem.refused? then
    throw (if value.isShown then .notAPattern value.shown else .longValue)
  let patterns := items.filterMap RuleItem.pattern?
  let expressions := items.filterMap RuleItem.expression?
  let fromPatterns ←
    if patterns.isEmpty then pure []
    else do
      let matcher ← Matcher.ofPatterns? (← Engine.ofName? engine) caseSensitive patterns
      pure [Rule.matching matcher]
  let fromExpressions := if expressions.isEmpty then [] else [Rule.matching (.regex expressions)]
  pure (fromPatterns ++ fromExpressions ++ items.filterMap RuleItem.rule?)

structure RuleSet (σ : Type) where
  includes : List (Rule σ)
  excludes : List (Rule σ)
  /-- The directories that are not entered. -/
  prunes : List (Rule σ)

namespace RuleSet

variable {σ : Type}

def empty : RuleSet σ := ⟨[], [], []⟩

/-- An entry is reported if it meets an include rule, or there is none, and no exclude rule. -/
def accepts (host : Host σ) (rules : RuleSet σ) (entry : Entry) : Act σ Bool := do
  let included ←
    if rules.includes.isEmpty then pure true else Rule.anyHolds host rules.includes entry
  if included then return !(← Rule.anyHolds host rules.excludes entry) else pure false

def mayDescend (host : Host σ) (rules : RuleSet σ) (entry : Entry) : Act σ Bool := do
  return !(← Rule.anyHolds host rules.prunes entry)

end RuleSet

end FileSelection
