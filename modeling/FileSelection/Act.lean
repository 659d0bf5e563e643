import FileSelection.Failure

/-!
# Actions

An action asks and changes a state.  It gives a value, fails, or goes on for ever; a failure leaves
the state as it was when the action failed.
-/

namespace FileSelection

/-- A computation on a state that may fail.  One that goes on for ever has no result at all. -/
abbrev Act (σ : Type) := ExceptT Failure (StateT σ Option)

namespace Act

variable {σ α : Type}

def attempt (action : Act σ α) : Act σ (Except Failure α) := fun state =>
  match action state with
  | some (result, state) => some (.ok result, state)
  | none => none

def ofExcept : Except Failure α → Act σ α
  | .ok value => pure value
  | .error failure => throw failure

/-! ## Loops -/

/-- What is done at a place.  It leads to another place or gives a value. -/
abbrev Step (σ ι α : Type) := ι → Act σ (ι ⊕ α)

/-- Goes from one place to the next until a step gives a value. -/
def Step.loop {ι : Type} (step : Step σ ι α) (place : ι) (state : σ) :
    Option (Except Failure α × σ) :=
  match step place state with
  | some (.ok (.inl next), state) => step |>.loop next state
  | some (.ok (.inr value), state) => some (.ok value, state)
  | some (.error failure, state) => some (.error failure, state)
  | none => none
partial_fixpoint

/-! ## Gathering -/

/-- The same action beside a value that is gathered meanwhile and survives a failure. -/
def beside {β : Type} (action : Act σ α) : Act (β × σ) α := fun (gathered, state) =>
  match action state with
  | some (result, state) => some (result, gathered, state)
  | none => none

def gather {β : Type} (change : β → β) : Act (β × σ) Unit := fun (gathered, state) =>
  some (.ok (), change gathered, state)

def gathering {β : Type} (start : β) (action : Act (β × σ) Unit) : Act σ β := fun state =>
  match action (start, state) with
  | some (result, gathered, state) => some (result.map fun () => gathered, state)
  | none => none

/-- Runs an action that gathers a value, which comes with the failure if there is one. -/
def gatheringAll {β : Type} (start : β) (action : Act (β × σ) Unit) :
    Act σ (β × Option Failure) := fun state =>
  match action (start, state) with
  | some (.ok (), gathered, state) => some (.ok (gathered, none), state)
  | some (.error failure, gathered, state) => some (.ok (gathered, some failure), state)
  | none => none

end Act

end FileSelection
