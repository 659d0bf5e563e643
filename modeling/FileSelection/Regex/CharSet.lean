import FileSelection.Regex.Alphabet

/-!
# Sets of characters

A set is written as a list of members and compiled under an alphabet, either as it is or up to case.
A set up to case holds lower-case characters, and a character is lowered before it is looked up; a
set without cased members is left alone, so that they are compared as they are.

Case is ignored fully for a single character and for the members of a set in the basic plane.
Beyond that plane a member of a set stands for itself alone, and a range also for the characters
whose upper-case form lies in it.
-/

namespace FileSelection.Regex

open FileSelection.Text

inductive Member where
  | char (code : Nat)
  | range (first last : Nat)
  | category (kind : Category) (inverse : Bool)
  deriving DecidableEq, Repr

def Member.single (c : Char) : Member := .char c.toNat

inductive CharItem where
  | range (first last : Nat)
  /-- The lower-case characters that are equal up to case to a character of the range. -/
  | rangeUpToCase (alphabet : Alphabet) (first last : Nat)
  /-- The characters whose upper-case form lies in the range. -/
  | upperRange (first last : Nat)
  | category (alphabet : Alphabet) (kind : Category) (inverse : Bool)
  deriving DecidableEq, Repr

namespace CharItem

def single (code : Nat) : CharItem := .range code code

def has : CharItem → Char → Bool
  | .range first last, c => first ≤ c.toNat && c.toNat ≤ last
  | .rangeUpToCase alphabet first last, c =>
      (alphabet.equals c.toNat).any fun code =>
        (alphabet.sources code).any fun source => first ≤ source && source ≤ last
  | .upperRange first last, c =>
      let upper := upperCode c.toNat
      first ≤ upper && upper ≤ last
  | .category alphabet kind inverse, c => alphabet.has kind c != inverse

end CharItem

namespace Member

def basicEnd : Nat := 0xFFFF

def isCased (alphabet : Alphabet) : Member → Bool
  | .char code => alphabet.isCased code || basicEnd < code
  | .range first last => alphabet.hasCased first last || basicEnd < last
  | .category _ _ => false

def item (alphabet : Alphabet) : Member → CharItem
  | .char code => .single code
  | .range first last => .range first last
  | .category kind inverse => .category alphabet kind inverse

def itemsUpToCase (alphabet : Alphabet) : Member → List CharItem
  | .char code =>
      if basicEnd < code then [.single code]
      else (alphabet.equals (alphabet.lower code)).map .single
  | .range first last =>
      let basic := [CharItem.rangeUpToCase alphabet first (min last basicEnd)]
      if basicEnd < last then
        (if first ≤ basicEnd then basic else []) ++ [.range first last, .upperRange first last]
      else basic
  | .category kind inverse => [.category alphabet kind inverse]

end Member

structure CharSet where
  items : List CharItem
  inverse : Bool
  /-- The alphabet by which characters are lowered before they are looked up. -/
  lowered : Option Alphabet
  deriving DecidableEq, Repr

namespace CharSet

def all : CharSet := ⟨[], true, none⟩

def except (c : Char) : CharSet := ⟨[.single c.toNat], true, none⟩

def ofChar (alphabet : Alphabet) (ignoreCase inverse : Bool) (code : Nat) : CharSet :=
  if ignoreCase && alphabet.isCased code then
    ⟨(alphabet.equals (alphabet.lower code)).map .single, inverse, some alphabet⟩
  else ⟨[.single code], inverse, none⟩

def ofMembers (alphabet : Alphabet) (ignoreCase inverse : Bool) (members : List Member) :
    CharSet :=
  if ignoreCase && members.any (·.isCased alphabet) then
    ⟨members.flatMap (·.itemsUpToCase alphabet), inverse, some alphabet⟩
  else ⟨members.map (·.item alphabet), inverse, none⟩

def has (set : CharSet) (c : Char) : Bool :=
  let c := match set.lowered with
    | some alphabet => alphabet.lowerChar c
    | none => c
  set.items.any (·.has c) != set.inverse

end CharSet

end FileSelection.Regex
