import FileSelection.Failure
import FileSelection.Settings.Value

/-!
# Numbers and times in documents

Digits may be separated by single underscores.  A whole number has no leading zeros, or stands in
base 16, 8 or 2 after `0x`, `0o` or `0b`.  Dates and times have fixed widths.
-/

namespace FileSelection.Toml

/-! ## Numbers -/

def moreDigits (base : Nat) : List Char → List Nat × List Char
  | [] => ([], [])
  | '_' :: c :: rest =>
      match Text.digitValue? base c with
      | some digit =>
          let (digits, rest) := moreDigits base rest
          (digit :: digits, rest)
      | none => ([], '_' :: c :: rest)
  | c :: rest =>
      match Text.digitValue? base c with
      | some digit =>
          let (digits, rest) := moreDigits base rest
          (digit :: digits, rest)
      | none => ([], c :: rest)

def someDigits? (base : Nat) : List Char → Option (List Nat × List Char)
  | [] => none
  | c :: rest => do
      let digit ← Text.digitValue? base c
      let (digits, rest) := moreDigits base rest
      some (digit :: digits, rest)

def numberOf (base : Nat) (digits : List Nat) : Nat :=
  digits.foldl (fun number digit => number * base + digit) 0

def basedNumber? (base : Nat) (rest : List Char) : Option (Value × List Char) := do
  let (digits, rest) ← someDigits? base rest
  some (.int (numberOf base digits), rest)

def sign : List Char → Bool × List Char
  | '-' :: rest => (true, rest)
  | '+' :: rest => (false, rest)
  | rest => (false, rest)

def fraction : List Char → List Nat × List Char
  | '.' :: rest =>
      match someDigits? 10 rest with
      | some found => found
      | none => ([], '.' :: rest)
  | rest => ([], rest)

def exponent? : List Char → Option (Int × List Char)
  | c :: rest =>
      if c == 'e' || c == 'E' then do
        let (negative, rest) := sign rest
        let (digits, rest) ← someDigits? 10 rest
        let size : Int := numberOf 10 digits
        some (if negative then -size else size, rest)
      else none
  | [] => none

structure Decimal where
  negative : Bool
  whole : List Nat
  places : List Nat
  exponent : Option Int
  deriving DecidableEq, Repr

def decimal? (text : List Char) : Option (Decimal × List Char) := do
  let (negative, rest) := sign text
  let (whole, rest) ← match rest with
    | '0' :: rest => some ([0], rest)
    | rest => someDigits? 10 rest
  let (places, rest) := fraction rest
  match exponent? rest with
  | some (exponent, rest) => some (⟨negative, whole, places, some exponent⟩, rest)
  | none => some (⟨negative, whole, places, none⟩, rest)

/-- A number without places and exponent is whole, and then it may have only so many digits. -/
def Decimal.value (decimal : Decimal) : Except Failure Value :=
  if decimal.places.isEmpty && decimal.exponent.isNone then
    if Text.digitLimit < decimal.whole.length then .error (.longNumber decimal.whole.length)
    else
      let size : Int := numberOf 10 decimal.whole
      .ok (.int (if decimal.negative then -size else size))
  else
    let digits := numberOf 10 (decimal.whole ++ decimal.places)
    let power := decimal.exponent.getD 0 - decimal.places.length
    .ok (.float (.ofDecimal decimal.negative digits power))

def specialNumber? (text : List Char) : Option (Value × List Char) :=
  let (negative, rest) := sign text
  match rest with
  | 'i' :: 'n' :: 'f' :: rest => some (.float (.infinite negative), rest)
  | 'n' :: 'a' :: 'n' :: rest => some (.float .nan, rest)
  | _ => none

def basePrefix? : List Char → Option (Value × List Char)
  | '0' :: 'x' :: rest => basedNumber? 16 rest
  | '0' :: 'o' :: rest => basedNumber? 8 rest
  | '0' :: 'b' :: rest => basedNumber? 2 rest
  | _ => none

def need {α : Type} : Option α → Except Failure α
  | some value => .ok value
  | none => .error .malformedDocument

def number (text : List Char) : Except Failure (Value × List Char) :=
  match basePrefix? text with
  | some found => .ok found
  | none =>
      match decimal? text with
      | some (decimal, rest) => decimal.value.map fun value => (value, rest)
      | none => need (specialNumber? text)

/-! ## Dates and times -/

def field? (width low high : Nat) (rest : List Char) : Option (Nat × List Char) :=
  match Text.digits 10 width 0 rest with
  | (count, value, rest) =>
      if count = width ∧ low ≤ value ∧ value ≤ high then some (value, rest) else none

def mark? (c : Char) : List Char → Option (List Char)
  | d :: rest => if c == d then some rest else none
  | [] => none

def microseconds (rest : List Char) : Nat × List Char :=
  match rest with
  | '.' :: c :: more =>
      if c.isDigit then
        let digits := (c :: more).takeWhile Char.isDigit
        let kept := digits.take 6
        let number := numberOf 10 (kept.map fun d => d.toNat - 48)
        (number * Nat.pow 10 (6 - kept.length), (c :: more).dropWhile Char.isDigit)
      else (0, rest)
  | rest => (0, rest)

def time? (text : List Char) : Option (TimeOfDay × List Char) := do
  let (hour, rest) ← field? 2 0 23 text
  let (minute, rest) ← field? 2 0 59 (← mark? ':' rest)
  let (second, rest) ← field? 2 0 59 (← mark? ':' rest)
  let (micro, rest) := microseconds rest
  some (⟨hour, minute, second, micro⟩, rest)

def date? (text : List Char) : Option (Date × List Char) := do
  let (year, rest) ← field? 4 0 9999 text
  let (month, rest) ← field? 2 1 12 (← mark? '-' rest)
  let (day, rest) ← field? 2 1 31 (← mark? '-' rest)
  some (⟨year, month, day⟩, rest)

def isLeap (year : Nat) : Bool := year % 4 = 0 && (year % 100 != 0 || year % 400 = 0)

def daysIn (year month : Nat) : Nat :=
  if month = 2 then (if isLeap year then 29 else 28)
  else if month = 4 ∨ month = 6 ∨ month = 9 ∨ month = 11 then 30
  else 31

def isReal (date : Date) : Bool := 1 ≤ date.year && date.day ≤ daysIn date.year date.month

def offset? : List Char → Option (Int × List Char)
  | 'Z' :: rest | 'z' :: rest => some (0, rest)
  | '+' :: rest => do
      let (hours, rest) ← field? 2 0 23 rest
      let (minutes, rest) ← field? 2 0 59 (← mark? ':' rest)
      some (hours * 60 + minutes, rest)
  | '-' :: rest => do
      let (hours, rest) ← field? 2 0 23 rest
      let (minutes, rest) ← field? 2 0 59 (← mark? ':' rest)
      some (-(hours * 60 + minutes : Int), rest)
  | _ => none

def timeAfterDate? : List Char → Option (TimeOfDay × List Char)
  | c :: rest => if c == 'T' || c == 't' || c == ' ' then time? rest else none
  | [] => none

def moment (date : Date) (rest : List Char) : Value × List Char :=
  match timeAfterDate? rest with
  | none => (.date date, rest)
  | some (time, rest) =>
      match offset? rest with
      | none => (.moment date time none, rest)
      | some (offset, rest) => (.moment date time (some offset), rest)

/-- Reads a date, a time or a number.  A date that is not in the calendar is not read as anything
else. -/
def timeOrNumber (text : List Char) : Except Failure (Value × List Char) :=
  match date? text with
  | some (date, rest) => if isReal date then .ok (moment date rest) else .error .malformedDocument
  | none =>
      match time? text with
      | some (time, rest) => .ok (.time time, rest)
      | none => number text

end FileSelection.Toml
