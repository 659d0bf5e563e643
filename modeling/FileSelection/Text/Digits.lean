/-!
# Digits

Reading numbers of a given base, with the letters from `a` to `f` of either case as digits from ten
on.
-/

namespace FileSelection.Text

/-- The greatest number of decimal digits with which a number is read or written. -/
def digitLimit : Nat := 4300

def digitValue? (base : Nat) (c : Char) : Option Nat :=
  let value :=
    if '0' ≤ c ∧ c ≤ '9' then c.toNat - 48
    else if 'a' ≤ c ∧ c ≤ 'f' then c.toNat - 87
    else if 'A' ≤ c ∧ c ≤ 'F' then c.toNat - 55
    else base
  if value < base then some value else none

def digits (base : Nat) : Nat → Nat → List Char → Nat × Nat × List Char
  | 0, value, rest => (0, value, rest)
  | limit + 1, value, c :: rest =>
      match digitValue? base c with
      | some digit =>
          let found := digits base limit (value * base + digit) rest
          (found.1 + 1, found.2)
      | none => (0, value, c :: rest)
  | _ + 1, value, [] => (0, value, [])

end FileSelection.Text
