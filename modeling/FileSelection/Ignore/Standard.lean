import FileSelection.Glob
import FileSelection.Ignore
import FileSelection.Text.Blank

/-!
# The usual reading of ignore rules

One library of ignore rules, for programs that are to run.  An ignore rule says which paths below
the directory of its file are ignored, or with a leading `!` which are not.  A rule without a slash
before its end applies at every depth, a rule that ends in a slash to directories and what is below
them.  The last rule that applies to a path itself decides; if there is none, the last one that
applies to a directory above it.
-/

namespace FileSelection

inductive Ignore.Standard.Reach where
  | above
  | itself
  deriving DecidableEq, Repr

/-- A line of an ignore file.  Blank lines, comments, a lone slash and lines with an open bracket
are kept as rules that never apply. -/
inductive Ignore.Standard.Rule where
  | idle
  | rule (ignored : Bool) (regex : Regex)
  deriving Repr

namespace Ignore.Standard

open FileSelection.Text FileSelection.Glob

/-! ## Regular expressions of rules -/

def bracketLength? (rest : List Char) : Option Nat :=
  let afterNegation := match rest with
    | '!' :: _ | '^' :: _ => 1
    | _ => 0
  let first := match rest.drop afterNegation with
    | ']' :: _ => afterNegation + 1
    | _ => afterNegation
  ((rest.drop first).findIdx? (· == ']')).map (first + · + 1)

def bracketText (inside : List Char) : List Char :=
  let (negation, items) := match inside with
    | '!' :: items | '^' :: items => (['^'], items)
    | items => ([], items)
  '[' :: negation ++ items.flatMap fun c => if c == '\\' then ['\\', '\\'] else [c]

inductive Flaw where
  /-- A bracket is not closed; such a rule never applies. -/
  | openBracket
  /-- Nothing follows the last backslash, or nothing is left of the rule. -/
  | invalid
  deriving DecidableEq, Repr

/-- The expression of one segment of a rule.  The number says how many of the next characters are
already dealt with. -/
def segmentText : Nat → List Char → Except Flaw (List Char)
  | _, [] => .ok []
  | skip + 1, _ :: rest => segmentText skip rest
  | 0, ['\\'] => .error .invalid
  | 0, '\\' :: c :: rest => (segmentText 0 rest).map (literalChar c ++ ·)
  | 0, '*' :: rest => (segmentText 0 rest).map ("[^/]*".toList ++ ·)
  | 0, '?' :: rest => (segmentText 0 rest).map ("[^/]".toList ++ ·)
  | 0, '[' :: rest =>
      match bracketLength? rest with
      | some length => (segmentText length rest).map (bracketText (rest.take length) ++ ·)
      | none => .error .openBracket
  | 0, c :: rest => (segmentText 0 rest).map (literalChar c ++ ·)

def deep : List Char := ['*', '*']

/-- Makes the place of a rule explicit: a single segment applies at every depth, a final slash takes
what is below, and repeated `**` are one. -/
def placeSegments (segments : List (List Char)) : List (List Char) :=
  let placed := match segments with
    | [] :: rest => rest
    | [segment] => if segment == deep then [segment] else [deep, segment]
    | [segment, []] => if segment == deep then [segment, []] else [deep, segment, []]
    | segments => segments
  let closed := match placed.getLast? with
    | some [] => placed.dropLast ++ [deep]
    | _ => placed
  closed.foldr
    (fun segment rest =>
      if segment == deep && rest.head? == some deep then rest else segment :: rest)
    []

def stepText (first slash : Bool) (segment : List Char) : Except Flaw (List Char) := do
  let text ← if segment == ['*'] then .ok "[^/]+".toList else segmentText 0 segment
  return (if first then ['^'] else []) ++ (if slash then ['/'] else []) ++ text

def pathText (directoryOnly : Bool) : Bool → Bool → List (List Char) → Except Flaw (List Char)
  | _, _, [] => .ok []
  | first, slash, [segment] =>
      if segment == deep then .ok (if directoryOnly then "(/)".toList else ['/'])
      else (stepText first slash segment).map (· ++ "(?:(/)|$)".toList)
  | first, slash, segment :: rest =>
      if segment == deep then
        if first then (pathText directoryOnly false false rest).map ("^(?:.+/)?".toList ++ ·)
        else (pathText directoryOnly false true rest).map ("(?:/.+)?".toList ++ ·)
      else do
        let text ← stepText first slash segment
        (pathText directoryOnly false true rest).map (text ++ ·)

/-- The expression of a rule without its negation.  Its first group takes part in a match when the
rule applies to a directory above the path. -/
def ruleText (pattern : List Char) : Except Flaw (List Char) :=
  let segments := splitAt ['/'] pattern
  let directoryOnly := segments.getLast? == some []
  let placed := placeSegments segments
  if placed.isEmpty || pattern.isEmpty then .error .invalid
  else if placed == [deep] then .ok (if directoryOnly then "(/)".toList else ['.'])
  else if placed == [deep, ['*']] then .ok ['.']
  else if placed == [deep, ['*'], deep] then .ok (if directoryOnly then "(/)".toList else ['/'])
  else pathText directoryOnly true false placed

/-- Drops blanks at the end, unless the last one is escaped. -/
def trimLine (line : List Char) : List Char :=
  if ['\\', ' '].isSuffixOf line then line else trimEnd line

def Rule.ofLine? (line : String) : Except Failure Rule := do
  let text := trimLine line.toList
  match text with
  | [] | '#' :: _ | ['/'] => return .idle
  | _ =>
      let (ignored, pattern) := match text with
        | '!' :: rest => (false, rest)
        | _ => (true, text)
      match ruleText pattern with
      | .error .openBracket => return .idle
      | .error .invalid => throw (.badIgnoreLine line)
      | .ok text => return .rule ignored (← Regex.parse? .plain text)

def ofLines? (lines : List String) : Except Failure (List Rule) :=
  (lines.filter (!·.isEmpty)).mapM Rule.ofLine?

/-! ## Decisions -/

def Rule.reach? (rule : Rule) (path : List Char) : Option (Bool × Reach) :=
  match rule with
  | .idle => none
  | .rule ignored regex =>
      (regex.search? (· == 1) path).map fun place =>
        (ignored, if place.groups.isEmpty then .itself else .above)

def withoutLead : List Char → List Char
  | '/' :: rest => rest
  | '.' :: '/' :: rest => rest
  | path => path

def ignores (rules : List Rule) (path : String) : Bool :=
  let found := rules.filterMap (·.reach? (withoutLead path.toList))
  let direct := found.filter (·.2 == .itself)
  (direct.getLast? <|> found.getLast?).any (·.1)

end Ignore.Standard

instance Ignore.standard : Ignore.Library where
  compile? lines :=
    (Standard.ofLines? lines).map fun rules => ⟨rules.length, Standard.ignores rules⟩
  refusalIsValue := true

end FileSelection
