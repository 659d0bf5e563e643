import FileSelection.Text.CaseTable

/-!
# Case folding

Two notions of equality up to case.  Full folding maps a character to one or more characters and is
meant for whole texts.  Simple lowering maps a character to one character; two lower-case characters
with one upper-case character are twins and count as equal as well.
-/

namespace FileSelection.Text

def lowerCode (code : Nat) : Nat :=
  if code < 128 then (if 65 ≤ code ∧ code ≤ 90 then code + 32 else code)
  else applyShifts lowerRuns code

def upperCode (code : Nat) : Nat := applyShifts upperRuns code

def isCased (code : Nat) : Bool := inRanges casedRanges code

def twins (code : Nat) : List Nat := (lowerTwins.lookup code).getD []

def lowerSources (code : Nat) : List Nat :=
  let shifted := lowerRuns.toList.filterMap (·.source? code)
  if lowerCode code = code then code :: shifted else shifted

def foldChar (c : Char) : List Char :=
  if c.val < 128 then
    [if 'A' ≤ c ∧ c ≤ 'Z' then Char.ofNat (c.toNat + 32) else c]
  else
    match foldExpansions.lookup c.toNat with
    | some codes => codes.map Char.ofNat
    | none => [Char.ofNat (applyShifts foldRuns c.toNat)]

def caseFold (text : List Char) : List Char := text.flatMap foldChar

end FileSelection.Text
