import FileSelection.Text.Digits
import FileSelection.Text.Quoted

/-!
# Failures

Everything that can go wrong, by its cause, and the wording of each cause.

The system refuses a path for what stands there, or does not, and for the limits on names and links.
Refusals for want of permission and errors of the medium are left out, and memory and the depth of
recursion are not limited, so that nothing fails for want of them.
-/

namespace FileSelection

/-- The reasons for which the system refuses to examine, list or read a path. -/
inductive SystemError where
  | noEntry
  | notDirectory
  | isDirectory
  | nameTooLong
  | linkLoop
  deriving DecidableEq, Repr

namespace SystemError

def number : SystemError → Nat
  | .noEntry => 2
  | .notDirectory => 20
  | .isDirectory => 21
  | .nameTooLong => 36
  | .linkLoop => 40

def text : SystemError → String
  | .noEntry => "No such file or directory"
  | .notDirectory => "Not a directory"
  | .isDirectory => "Is a directory"
  | .nameTooLong => "File name too long"
  | .linkLoop => "Too many levels of symbolic links"

end SystemError

inductive Failure where
  | system (error : SystemError) (path : String)
  /-- The path holds the character NUL, which no file name can. -/
  | nulInPath
  /-- The base directory of a collection is missing. -/
  | baseMissing (path : String)
  | baseNotDirectory (path : String)
  | unknownEngine (name : String)
  | emptySeparator
  | badExpression
  /-- A repetition of an expression has more rounds than are counted. -/
  | uncountable
  /-- An expression asks for two alphabets. -/
  | alphabetClash
  /-- A number is written with more digits than are read. -/
  | longNumber (digits : Nat)
  /-- A number has more digits than are written. -/
  | longValue
  | badIgnoreLine (line : String)
  /-- Something else was given where a pattern is expected; the text shows it. -/
  | notAPattern (shown : String)
  /-- A setting has a value of the wrong type; the texts say what is expected and show the value. -/
  | wrongSetting (key expected shown : String)
  | malformedDocument
  | notUtf8
  /-- A value other than a table where the settings look for a table. -/
  | noTable
  /-- A value other than a table, a list or a text where the settings look for a key. -/
  | noContainer
  | targetChoice
  /-- A chain of symbolic links without an end starts at the path. -/
  | endlessLink (path : String)
  /-- The receiver of the entries has stopped the walk. -/
  | interrupted (reason : String)
  deriving DecidableEq, Repr

namespace Failure

def isSystem : Failure → Bool
  | .system _ _ | .baseMissing _ | .baseNotDirectory _ => true
  | _ => false

def engineNames : List String := ["glob", "ant", "gitignore"]

def digitLimitText : String :=
  s!"Exceeds the limit ({Text.digitLimit} digits) for integer string conversion"

def digitLimitAdvice : String := "use sys.set_int_max_str_digits() to increase the limit"

def message : Failure → String
  | .system error path => s!"[Errno {error.number}] {error.text}: {Text.quoted path}"
  | .nulInPath => "embedded null byte"
  | .baseMissing path | .baseNotDirectory path => s!"Expecting a directory: {path}"
  | .unknownEngine name =>
      let known := ", ".intercalate engineNames
      s!"Unknown pattern engine: {Text.quoted name} (expected one of {known})"
  | .emptySeparator => "empty separator"
  | .badExpression => "malformed regular expression"
  | .uncountable => "the repetition number is too large"
  | .alphabetClash => "ASCII and UNICODE flags are incompatible"
  | .longNumber digits =>
      s!"{digitLimitText}: value has {digits} digits; {digitLimitAdvice}"
  | .longValue => s!"{digitLimitText}; {digitLimitAdvice}"
  | .badIgnoreLine line => s!"Invalid git pattern: {Text.quoted line}"
  | .notAPattern shown => s!"Expected a pattern string, regex, or predicate: {shown}"
  | .wrongSetting key expected shown => s!"Config key `{key}` must be {expected}: {shown}"
  | .malformedDocument => "malformed document"
  | .notUtf8 => "not encoded in UTF-8"
  | .noTable => "not a table"
  | .noContainer => "not a table, a list or a text"
  | .targetChoice => "Expected exactly one of `dstdir` or `transform`"
  | .endlessLink path => s!"Symlink loop from {Text.quoted path}"
  | .interrupted reason => reason

end Failure

end FileSelection
