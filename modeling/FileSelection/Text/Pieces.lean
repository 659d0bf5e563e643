import FileSelection.Text.Blank
import FileSelection.Text.Split

/-!
# Several patterns in one text

A text can hold several patterns, separated by blanks and commas.  A text without any pattern stands
for one empty pattern.
-/

namespace FileSelection.Text

def isDelimiter (c : Char) : Bool := isBlank c || c == ','

def pieces (text : List Char) : List (List Char) :=
  match (splitWhere isDelimiter text).filter fun piece => !piece.isEmpty with
  | [] => [[]]
  | found => found

def patternsOf (text : String) : List String := (pieces text.toList).map String.ofList

end FileSelection.Text
