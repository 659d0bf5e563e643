import FileSelection.Regex.CharSet

/-!
# Regular expressions

The tree of a regular expression.  Options such as ignoring case are already built into the
character sets and anchors of the tree.
-/

namespace FileSelection

inductive Regex.Anchor where
  | textStart
  | lineStart
  | textEnd
  /-- The end of the text, or the place before a line feed that ends it. -/
  | lastLineEnd
  | lineEnd
  | wordEdge (alphabet : Regex.Alphabet)
  | notWordEdge (alphabet : Regex.Alphabet)
  deriving DecidableEq, Repr

structure Regex.Repeat where
  least : Nat
  most : Option Nat
  reluctant : Bool
  deriving DecidableEq, Repr

inductive Regex where
  | empty
  | one (set : Regex.CharSet)
  | anchor (place : Regex.Anchor)
  | seq (first second : Regex)
  | alt (first second : Regex)
  /-- A run of characters of one set. -/
  | many (set : Regex.CharSet) (times : Regex.Repeat)
  | rounds (body : Regex) (times : Regex.Repeat)
  | group (index : Nat) (body : Regex)
  /-- What a group has matched, once more. -/
  | again (index : Nat) (lowered : Option Regex.Alphabet)
  /-- One expression if a group has matched, and another one if not. -/
  | given (index : Nat) (matched unmatched : Regex)
  | ahead (wanted : Bool) (body : Regex)
  /-- The text before the place, of the length of the body. -/
  | behind (wanted : Bool) (length : Nat) (body : Regex)
  /-- The first way to match the body, and no other. -/
  | atomic (body : Regex)
  deriving DecidableEq, Repr

namespace Regex

def seqAll : List Regex → Regex
  | [] => .empty
  | [part] => part
  | part :: parts => .seq part (seqAll parts)

def altAll : List Regex → Regex
  | [] => .empty
  | [branch] => branch
  | branch :: branches => .alt branch (altAll branches)

def repeated (body : Regex) (times : Repeat) : Regex :=
  match body with
  | .one set => .many set times
  | body => .rounds body times

/-- A repetition that is never shortened: each of its rounds takes the first way to match. -/
def repeatedFully (body : Regex) (times : Repeat) : Regex :=
  match body with
  | .one set => .atomic (.many set times)
  | body => .atomic (.rounds (.atomic body) times)

def references : Regex → List Nat
  | .empty | .one _ | .anchor _ | .many _ _ => []
  | .seq first second | .alt first second => first.references ++ second.references
  | .rounds body _ | .group _ body | .ahead _ body | .behind _ _ body | .atomic body =>
      body.references
  | .again index _ => [index]
  | .given index matched unmatched => index :: (matched.references ++ unmatched.references)

/-! ## Lengths -/

/-- The least and the greatest length of the texts that an expression matches; there may be no
greatest one. -/
structure Extent where
  least : Nat
  most : Option Nat
  deriving DecidableEq, Repr

namespace Extent

def none : Extent := ⟨0, some 0⟩

def single : Extent := ⟨1, some 1⟩

def plus (first second : Extent) : Extent :=
  ⟨first.least + second.least, do return (← first.most) + (← second.most)⟩

def union (first second : Extent) : Extent :=
  ⟨min first.least second.least, do return max (← first.most) (← second.most)⟩

def times (extent : Extent) (rounds : Repeat) : Extent :=
  let most := match extent.most, rounds.most with
    | some 0, _ | _, some 0 => some 0
    | some length, some count => some (length * count)
    | _, _ => Option.none
  ⟨extent.least * rounds.least, most⟩

def fixed? (extent : Extent) : Option Nat :=
  if extent.most = some extent.least then some extent.least else Option.none

end Extent

def extent (groups : Nat → Extent) : Regex → Extent
  | .empty | .anchor _ | .ahead _ _ | .behind _ _ _ => .none
  | .one _ => .single
  | .many _ times => Extent.single.times times
  | .seq first second => (first.extent groups).plus (second.extent groups)
  | .alt first second => (first.extent groups).union (second.extent groups)
  | .rounds body times => (body.extent groups).times times
  | .group _ body | .atomic body => body.extent groups
  | .again index _ => groups index
  | .given _ matched unmatched => (matched.extent groups).union (unmatched.extent groups)

end Regex

end FileSelection
