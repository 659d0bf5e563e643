import FileSelection.Text.Case
import FileSelection.Text.Split

/-!
# Segment patterns

A second syntax of patterns, in which the segments of a path are matched one by one.  A segment `**`
stands for any number of segments; inside of a segment `*` stands for any characters and `?` for
one.  Empty segments do not count, so that repeated and final separators make no difference.

Both levels are the same problem, a sequence with stars, which `Wildcard.covers` decides.
-/

namespace FileSelection

/-! ## Sequences with stars -/

namespace Wildcard

variable {α β : Type}

inductive Laid (α β : Type) where
  /-- The pattern is used up. -/
  | done (items : List β)
  | star (pattern : List α) (items : List β)
  /-- The sequence is used up before the pattern. -/
  | short
  | mismatch

def lay (isStar : α → Bool) (same : α → β → Bool) : List α → List β → Laid α β
  | [], items => .done items
  | x :: pattern, items =>
      if isStar x then .star pattern items
      else
        match items with
        | [] => .short
        | item :: items => if same x item then lay isStar same pattern items else .mismatch

theorem lay_star_length {isStar : α → Bool} {same : α → β → Bool} {pattern : List α}
    {items : List β} {pattern' : List α} {items' : List β}
    (h : lay isStar same pattern items = .star pattern' items') :
    pattern'.length < pattern.length ∧ items'.length ≤ items.length := by
  induction pattern generalizing items with
  | nil => simp [lay] at h
  | cons x pattern ih =>
      unfold lay at h
      split at h
      · cases h
        simp
      · cases items with
        | nil => simp at h
        | cons item items =>
            simp only at h
            split at h
            · have := ih h
              simp only [List.length_cons]
              omega
            · simp at h

/-- Whether a sequence fits a pattern that follows a star.  The part up to the next star is laid at
the first place where it fits; a later place would only leave less for the rest. -/
def coversAfterStar (isStar : α → Bool) (same : α → β → Bool) (pattern : List α)
    (items : List β) : Bool :=
  match _h : lay isStar same pattern items with
  | .star pattern' items' => coversAfterStar isStar same pattern' items'
  | .short => false
  | .done [] => true
  | .done _ | .mismatch =>
      match items with
      | [] => false
      | _ :: items => coversAfterStar isStar same pattern items
termination_by pattern.length + items.length
decreasing_by
  · have := lay_star_length _h
    omega
  · simp
  · simp

def covers (isStar : α → Bool) (same : α → β → Bool) (pattern : List α) (items : List β) : Bool :=
  match lay isStar same pattern items with
  | .star pattern items => coversAfterStar isStar same pattern items
  | .done items => items.isEmpty
  | .short | .mismatch => false

end Wildcard

namespace Segmented

open FileSelection.Text

def segments? (separator path : List Char) : Option (List (List Char)) :=
  if separator.isEmpty then none
  else some ((splitAt separator path).filter fun segment => !segment.isEmpty)

def sameChar (pattern c : Char) : Bool := pattern == '?' || pattern == c

def coversSegment (caseSensitive : Bool) (pattern segment : List Char) : Bool :=
  if caseSensitive then Wildcard.covers (· == '*') sameChar pattern segment
  else Wildcard.covers (· == '*') sameChar (caseFold pattern) (caseFold segment)

def isDeep (segment : List Char) : Bool := segment == ['*', '*']

/-- Whether a pattern covers a whole path.  Either both start with the separator or neither. -/
def coversPath? (separator : List Char) (caseSensitive : Bool) (pattern path : List Char) :
    Option Bool :=
  if separator.isPrefixOf pattern != separator.isPrefixOf path then some false
  else do
    let patterns ← segments? separator pattern
    let parts ← segments? separator path
    some (Wildcard.covers isDeep (coversSegment caseSensitive) patterns parts)

end Segmented

end FileSelection
