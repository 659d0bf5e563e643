/-!
# Splitting a text

`splitWhere` cuts at every character with a property, `splitAt` at the leftmost disjoint occurrences
of a separator.  Both keep empty parts, so that the parts and the separators give back the text.
-/

namespace FileSelection.Text

def consPart (c : Char) : List (List Char) → List (List Char)
  | [] => [[c]]
  | part :: parts => (c :: part) :: parts

def splitWhere (cut : Char → Bool) : List Char → List (List Char)
  | [] => [[]]
  | c :: rest => if cut c then [] :: splitWhere cut rest else consPart c (splitWhere cut rest)

def splitAfter (separator : List Char) : Nat → List Char → List (List Char)
  | _, [] => [[]]
  | skip + 1, _ :: rest => splitAfter separator skip rest
  | 0, c :: rest =>
      if separator.isPrefixOf (c :: rest) then
        [] :: splitAfter separator (separator.length - 1) rest
      else consPart c (splitAfter separator 0 rest)

/-- The parts of `text` between the occurrences of a non-empty separator. -/
def splitAt (separator text : List Char) : List (List Char) := splitAfter separator 0 text

def occursIn (part whole : List Char) : Bool := part.isEmpty || 1 < (splitAt part whole).length

end FileSelection.Text
