import FileSelection.Binary64.Basic

/-!
# Points in time

A point in time is a whole number of nanoseconds.  Where times are compared it counts in seconds, as
the binary number that results from adding a billionth of the nanoseconds to the whole seconds, with
each step rounded; times that lie close together can therefore be equal.
-/

namespace FileSelection.Timestamp

def perSecond : Nat := 1000000000

def wholeSeconds (nanoseconds : Int) : Int := nanoseconds / perSecond

def fraction (nanoseconds : Int) : Nat := (nanoseconds % perSecond).toNat

def seconds (nanoseconds : Int) : Binary64 :=
  let whole := wholeSeconds nanoseconds
  (Binary64.ofQuotient (whole < 0) whole.natAbs 1).add
    ((Binary64.ofDecimal false 1 (-9)).scale (fraction nanoseconds))

def later (x y : Int) : Bool := (seconds y).units < (seconds x).units

end FileSelection.Timestamp
