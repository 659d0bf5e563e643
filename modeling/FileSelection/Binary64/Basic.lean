/-!
# Binary floating-point numbers

Numbers of the binary format with 53 significant bits.  A finite number is a natural number below
`2 ^ 53` times a power of two that is at least `2 ^ (-1074)`; the natural number is at least
`2 ^ 52` unless the power is the least one.  Everything is computed exactly and rounded once, to the
nearest number and from the middle to the even one.
-/

namespace FileSelection

inductive Binary64 where
  | nan
  | infinite (negative : Bool)
  | finite (negative : Bool) (significand : Nat) (exponent : Int)
  deriving DecidableEq, Repr

namespace Binary64

def leastExponent : Int := -1074

def greatestExponent : Int := 971

/-- The natural number nearest to a quotient; from the middle to the even one. -/
def roundQuotient (numerator denominator : Nat) : Nat :=
  let quotient := numerator / denominator
  let twice := 2 * (numerator % denominator)
  if twice < denominator then quotient
  else if denominator < twice then quotient + 1
  else quotient + quotient % 2

def scaledQuotient (numerator denominator : Nat) (exponent : Int) : Nat :=
  roundQuotient (numerator * Nat.pow 2 (-exponent).toNat) (denominator * Nat.pow 2 exponent.toNat)

/-- The exponent with which the quotient has 53 significant bits, or the least one. -/
def exponentOf (numerator denominator : Nat) : Int :=
  let guess : Int := (numerator.log2 : Int) - denominator.log2 - 52
  let fits :=
    Nat.pow 2 52 * (denominator * Nat.pow 2 guess.toNat) ≤ numerator * Nat.pow 2 (-guess).toNat
  max (if fits then guess else guess - 1) leastExponent

def ofQuotient (negative : Bool) (numerator denominator : Nat) : Binary64 :=
  if numerator = 0 then .finite negative 0 leastExponent
  else
    let exponent := exponentOf numerator denominator
    let significand := scaledQuotient numerator denominator exponent
    let (significand, exponent) :=
      if significand = Nat.pow 2 53 then (Nat.pow 2 52, exponent + 1) else (significand, exponent)
    if greatestExponent < exponent then .infinite negative
    else .finite negative significand exponent

def ofDecimal (negative : Bool) (digits : Nat) (exponent : Int) : Binary64 :=
  let size : Int := if digits = 0 then 0 else (Nat.toDigits 10 digits).length + exponent
  if digits = 0 || size < -330 then .finite negative 0 leastExponent
  else if 330 < size then .infinite negative
  else ofQuotient negative (digits * Nat.pow 10 exponent.toNat) (Nat.pow 10 (-exponent).toNat)

/-! ## Order of finite numbers -/

/-- The value as a multiple of the least positive number; numbers that are not finite count as
zero. -/
def units : Binary64 → Int
  | .finite negative significand exponent =>
      let size : Int := significand * Nat.pow 2 (exponent - leastExponent).toNat
      if negative then -size else size
  | _ => 0

def ofUnits (units : Int) : Binary64 := ofQuotient (units < 0) units.natAbs (Nat.pow 2 1074)

def add (x y : Binary64) : Binary64 := ofUnits (x.units + y.units)

def scale (x : Binary64) (factor : Nat) : Binary64 := ofUnits (x.units * factor)

end Binary64

end FileSelection
