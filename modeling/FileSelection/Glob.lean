import FileSelection.Regex.Expression
import FileSelection.Text.Split

/-!
# Glob patterns

A glob pattern describes relative paths.  `*` stands for characters other than the separator, `?`
for one character, and `**/` for any number of leading segments.  A pattern that ends in `/`, `/**`
or `/**/` also takes everything below the path it names; a final `**` stands for the rest of a
segment.  Patterns are written with `/`, and the paths may use another separator.

A pattern means the same as a regular expression, whose written form is made from it and compiled.
-/

namespace FileSelection.Glob

open FileSelection.Text

/-! ## Literal text -/

def isSpecial (c : Char) : Bool := "()[]{}?*+-|^$\\.&~# \t\n\r\x0b\x0c".toList.contains c

def literalChar (c : Char) : List Char := if isSpecial c then ['\\', c] else [c]

def literal (text : List Char) : List Char := text.flatMap literalChar

/-! ## Regular expressions of patterns -/

inductive Ending where
  | exact
  /-- The path itself and everything below it. -/
  | subtree
  /-- Any rest of the last segment. -/
  | openEnd
  deriving DecidableEq, Repr

def dropSuffix? (ending pattern : List Char) : Option (List Char) :=
  if ending.isSuffixOf pattern then some (pattern.take (pattern.length - ending.length)) else none

/-- Takes the ending off a pattern.  Of several that fit, the longest one counts. -/
def splitEnding (pattern : List Char) : List Char × Ending :=
  match dropSuffix? "/**/".toList pattern with
  | some body => (body, .subtree)
  | none =>
      match dropSuffix? "/**".toList pattern with
      | some body => (body, .subtree)
      | none =>
          match dropSuffix? "/".toList pattern with
          | some body => (body, .subtree)
          | none =>
              match dropSuffix? "**".toList pattern with
              | some body => (body, .openEnd)
              | none => (pattern, .exact)

def outside (separator : List Char) : List Char := '[' :: '^' :: literal separator ++ [']']

def tokenText (separator : List Char) (c : Char) : List Char :=
  if c == '*' then outside separator ++ ['*']
  else if c == '?' then ['.']
  else if c == '/' then literal separator
  else literalChar c

def runText (separator run : List Char) : List Char := run.flatMap (tokenText separator)

def deepText (separator : List Char) : List Char :=
  "(.*?".toList ++ literal separator ++ ")?".toList

def endingText (separator : List Char) : Ending → List Char
  | .exact => []
  | .subtree => '(' :: literal separator ++ ".*)?".toList
  | .openEnd => outside separator ++ ['*']

def isEverything (pattern : List Char) : Bool := pattern == "**".toList || pattern == "**/".toList

def regexText (separator pattern : List Char) : List Char :=
  if isEverything pattern then "^.*$".toList
  else
    let (body, ending) := splitEnding pattern
    let runs := (splitAt "**/".toList body).map (runText separator)
    '^' :: (deepText separator).intercalate runs ++ endingText separator ending ++ ['$']

def toRegex (pattern separator : String) : String :=
  String.ofList (regexText separator.toList pattern.toList)

def mode (caseSensitive : Bool) : Regex.Mode := { ignoreCase := !caseSensitive, dotAll := true }

/-- Compiles a pattern.  This fails only for the empty separator, outside of which there is no
character. -/
def compile? (pattern : String) (separator : String) (caseSensitive : Bool) :
    Except Failure Expression :=
  Expression.compile? (mode caseSensitive) (toRegex pattern separator)

end FileSelection.Glob
