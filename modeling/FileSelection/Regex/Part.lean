import FileSelection.Regex.Syntax

/-!
# Parts of alternatives

A part is what an alternative of an expression is a sequence of.  Parts are kept as they are written
until the end of their group is known: what all alternatives begin with is taken once, and
alternatives of one character each are one set.
-/

namespace FileSelection.Regex

structure Mode where
  ignoreCase : Bool := false
  multiLine : Bool := false
  dotAll : Bool := false
  /-- Blanks and comments in the expression are skipped. -/
  verbose : Bool := false
  alphabet : Alphabet := .unicode
  deriving DecidableEq, Repr

def Mode.plain : Mode := {}

inductive Part where
  | char (code : Nat) (inverse : Bool)
  | set (members : List Member) (inverse : Bool)
  | any
  /-- An anchor as it is written; those of lines depend on the options. -/
  | anchor (place : Anchor)
  | again (index : Nat)
  | other (regex : Regex)
  deriving DecidableEq, Repr

namespace Part

def ofMembers (members : List Member) (inverse : Bool) : Part :=
  match members.eraseDups with
  | [.char code] => .char code inverse
  | members => .set members inverse

def ofMember : Member → Part
  | .char code => .char code false
  | member => .set [member] false

/-- Whether two parts are written alike.  Groups and repetitions never are. -/
def same : Part → Part → Bool
  | .other _, _ => false
  | first, second => first == second

def members? : Part → Option (List Member)
  | .char code false => some [.char code]
  | .set members false => some members
  | _ => none

end Part

/-! ## Options -/

def Mode.place (mode : Mode) : Anchor → Anchor
  | .lineStart => if mode.multiLine then .lineStart else .textStart
  | .lineEnd => if mode.multiLine then .lineEnd else .lastLineEnd
  | place => place

def Mode.part (mode : Mode) : Part → Regex
  | .char code inverse => .one (.ofChar mode.alphabet mode.ignoreCase inverse code)
  | .set members inverse => .one (.ofMembers mode.alphabet mode.ignoreCase inverse members)
  | .any => .one (if mode.dotAll then .all else .except '\n')
  | .anchor place => .anchor (mode.place place)
  | .again index => .again index (if mode.ignoreCase then some mode.alphabet else none)
  | .other regex => regex

def Mode.parts (mode : Mode) (parts : List Part) : Regex := seqAll (parts.map mode.part)

/-! ## Alternatives -/

def dropPart? (part : Part) : List Part → Option (List Part)
  | [] => none
  | first :: rest => if part.same first then some rest else none

/-- Splits off the parts that one alternative and all others begin with. -/
def splitShared : List Part → List (List Part) → List Part × List (List Part)
  | [], others => ([], [] :: others)
  | part :: rest, others =>
      match others.mapM (dropPart? part) with
      | some others =>
          let (shared, remaining) := splitShared rest others
          (part :: shared, remaining)
      | none => ([], (part :: rest) :: others)

def singleMembers? : List Part → Option (List Member)
  | [part] => part.members?
  | _ => none

def Mode.join (mode : Mode) : List (List Part) → List Part
  | [] => []
  | [only] => only
  | first :: others =>
      let (shared, remaining) := splitShared first others
      let choice := match remaining.mapM singleMembers? with
        | some members => .set members.flatten.eraseDups false
        | none => .other (altAll (remaining.map mode.parts))
      shared ++ [choice]

end FileSelection.Regex
