import FileSelection.Binary64.Shortest
import FileSelection.Text.Digits
import FileSelection.Text.Quoted

/-!
# Values of settings

The values that a settings document can hold, and the form in which a message shows them.
-/

namespace FileSelection

structure Date where
  year : Nat
  month : Nat
  day : Nat
  deriving DecidableEq, Repr

structure TimeOfDay where
  hour : Nat
  minute : Nat
  second : Nat
  microsecond : Nat
  deriving DecidableEq, Repr

inductive Value where
  | null
  | bool (value : Bool)
  | int (value : Int)
  | float (value : Binary64)
  | text (value : String)
  | date (value : Date)
  | time (value : TimeOfDay)
  /-- A date and a time of day, with its distance from universal time in minutes if it is known. -/
  | moment (date : Date) (time : TimeOfDay) (offset : Option Int)
  | list (items : List Value)
  | table (entries : List (String × Value))
  deriving Repr

/-! ## Showing values -/

/-- Seconds and microseconds are left out when they and all that follows are zero. -/
def TimeOfDay.parts (time : TimeOfDay) : List Nat :=
  [time.hour, time.minute] ++
    if time.microsecond ≠ 0 then [time.second, time.microsecond]
    else if time.second ≠ 0 then [time.second]
    else []

def Date.parts (date : Date) : List Nat := [date.year, date.month, date.day]

def showParts (parts : List Nat) : String := ", ".intercalate (parts.map toString)

def showOffset (minutes : Int) : String :=
  let seconds := minutes * 60
  let days := seconds / 86400
  let rest := seconds % 86400
  if seconds = 0 then "datetime.timezone.utc"
  else if days = 0 then s!"datetime.timezone(datetime.timedelta(seconds={rest}))"
  else if rest = 0 then s!"datetime.timezone(datetime.timedelta(days={days}))"
  else s!"datetime.timezone(datetime.timedelta(days={days}, seconds={rest}))"

mutual

def Value.shown : Value → String
  | .null => "None"
  | .bool value => if value then "True" else "False"
  | .int value => toString value
  | .float value => value.text
  | .text value => Text.quoted value
  | .date value => s!"datetime.date({showParts value.parts})"
  | .time value => s!"datetime.time({showParts value.parts})"
  | .moment day clock none => s!"datetime.datetime({showParts (day.parts ++ clock.parts)})"
  | .moment day clock (some offset) =>
      s!"datetime.datetime({showParts (day.parts ++ clock.parts)}, tzinfo={showOffset offset})"
  | .list items => "[" ++ ", ".intercalate (Value.shownItems items) ++ "]"
  | .table entries => "\x7b" ++ ", ".intercalate (Value.shownEntries entries) ++ "\x7d"

def Value.shownItems : List Value → List String
  | [] => []
  | item :: items => item.shown :: Value.shownItems items

def Value.shownEntries : List (String × Value) → List String
  | [] => []
  | (key, value) :: entries =>
      s!"{Text.quoted key}: {value.shown}" :: Value.shownEntries entries

end

mutual

/-- Whether the value is shown at all, which it is not if it holds a whole number of too many
digits. -/
def Value.isShown : Value → Bool
  | .int value => value.natAbs < Nat.pow 10 Text.digitLimit
  | .list items => Value.areShown items
  | .table entries => Value.entriesAreShown entries
  | _ => true

def Value.areShown : List Value → Bool
  | [] => true
  | item :: items => item.isShown && Value.areShown items

def Value.entriesAreShown : List (String × Value) → Bool
  | [] => true
  | (_, value) :: entries => value.isShown && Value.entriesAreShown entries

end

end FileSelection
