import FileSelection.Binary64.Basic

/-!
# The shortest decimal text of a binary number

A number is written with the fewest digits that read back as the same number, and of those decimals
with the nearest one.  For each number of digits only the two neighbours of the value on that
decimal grid can qualify.
-/

namespace FileSelection.Binary64

def readsBack (significand : Nat) (exponent : Int) (candidate : Nat) (place : Int) : Bool :=
  let quarter := exponent - 2
  let scaled := candidate * Nat.pow 10 place.toNat * Nat.pow 2 (-quarter).toNat
  let unit := Nat.pow 10 (-place).toNat * Nat.pow 2 quarter.toNat
  let narrow := significand = Nat.pow 2 52 ∧ leastExponent < exponent
  let low := (4 * significand - if narrow then 1 else 2) * unit
  let high := (4 * significand + 2) * unit
  if significand % 2 = 0 then low ≤ scaled && scaled ≤ high else low < scaled && scaled < high

def leadingPlaces (numerator denominator : Nat) : Nat → Nat → Nat
  | 0, places => places
  | fuel + 1, places =>
      if denominator ≤ numerator * Nat.pow 10 places then places
      else leadingPlaces numerator denominator fuel (places + 1)

def decimalExponent (significand : Nat) (exponent : Int) : Int :=
  let numerator := significand * Nat.pow 2 exponent.toNat
  let denominator := Nat.pow 2 (-exponent).toNat
  if denominator ≤ numerator then ((Nat.toDigits 10 (numerator / denominator)).length : Int) - 1
  else -(leadingPlaces numerator denominator 400 0 : Int)

def shortestFrom (significand : Nat) (exponent top : Int) : Nat → Nat → Nat × Int
  | 0, digits => (0, top - digits)
  | fuel + 1, digits =>
      let place := top - digits + 1
      let numerator := significand * Nat.pow 2 exponent.toNat * Nat.pow 10 (-place).toNat
      let denominator := Nat.pow 2 (-exponent).toNat * Nat.pow 10 place.toNat
      let below := numerator / denominator
      let belowFits := readsBack significand exponent below place
      let aboveFits := readsBack significand exponent (below + 1) place
      if belowFits && aboveFits then (roundQuotient numerator denominator, place)
      else if belowFits then (below, place)
      else if aboveFits then (below + 1, place)
      else shortestFrom significand exponent top fuel (digits + 1)

/-- The shortest decimal of a positive number, as digits and the power of ten of the last one. -/
def shortest (significand : Nat) (exponent : Int) : Nat × Int :=
  shortestFrom significand exponent (decimalExponent significand exponent) 17 1

def dropZeros (digits : List Char) : List Char := (digits.reverse.dropWhile (· == '0')).reverse

def exponentText (exponent : Int) : List Char :=
  let digits := Nat.toDigits 10 exponent.natAbs
  (if exponent < 0 then '-' else '+') :: (if digits.length < 2 then '0' :: digits else digits)

def text : Binary64 → String
  | .nan => "nan"
  | .infinite negative => if negative then "-inf" else "inf"
  | .finite negative 0 _ => if negative then "-0.0" else "0.0"
  | .finite negative significand exponent =>
      let (number, place) := shortest significand exponent
      let all := Nat.toDigits 10 number
      let top : Int := all.length - 1 + place
      let digits := match dropZeros all with
        | [] => ['0']
        | digits => digits
      let body :=
        if 16 ≤ top || top < -4 then
          let fraction := digits.drop 1
          digits.take 1 ++ (if fraction.isEmpty then [] else '.' :: fraction) ++
            'e' :: exponentText top
        else if top < 0 then
          '0' :: '.' :: List.replicate (-top - 1).toNat '0' ++ digits
        else
          let whole := top.toNat + 1
          let padded := digits ++ List.replicate (whole - digits.length) '0'
          let fraction := padded.drop whole
          padded.take whole ++ '.' :: (if fraction.isEmpty then ['0'] else fraction)
      String.ofList (if negative then '-' :: body else body)

end FileSelection.Binary64
