/-!
# Tables of code points

A property of characters is a sorted table of ranges of code points, and a mapping of characters is
a sorted table of shifts.  Both are searched by halving.
-/

namespace FileSelection.Text

def halve {α : Type} (last : α → Nat) (table : Array α) (code : Nat) : Nat → Nat → Nat → Nat
  | 0, low, _ => low
  | fuel + 1, low, high =>
      if low < high then
        let middle := (low + high) / 2
        match table[middle]? with
        | none => low
        | some entry =>
            if last entry < code then halve last table code fuel (middle + 1) high
            else halve last table code fuel low middle
      else low

def entryFor {α : Type} (last : α → Nat) (table : Array α) (code : Nat) : Option α :=
  table[halve last table code 32 0 table.size]?

def inRanges (table : Array (Nat × Nat)) (code : Nat) : Bool :=
  match entryFor Prod.snd table code with
  | none => false
  | some range => range.1 ≤ code

def meetsRanges (table : Array (Nat × Nat)) (first last : Nat) : Bool :=
  match entryFor Prod.snd table first with
  | none => false
  | some range => range.1 ≤ last

/-- The code points `first`, `first + stride`, … up to `last`, which are mapped to `target`,
`target + stride`, … . -/
structure Shift where
  first : Nat
  last : Nat
  stride : Nat
  target : Nat
  deriving Repr

def Shift.image? (shift : Shift) (code : Nat) : Option Nat :=
  if shift.first ≤ code ∧ code ≤ shift.last ∧ (code - shift.first) % shift.stride = 0 then
    some (code - shift.first + shift.target)
  else none

def Shift.source? (shift : Shift) (code : Nat) : Option Nat :=
  if shift.target ≤ code ∧ code ≤ shift.last - shift.first + shift.target ∧
      (code - shift.target) % shift.stride = 0 then
    some (code - shift.target + shift.first)
  else none

def applyShifts (table : Array Shift) (code : Nat) : Nat :=
  ((entryFor Shift.last table code).bind (·.image? code)).getD code

end FileSelection.Text
