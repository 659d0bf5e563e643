import FileSelection.Proofs.Failures
import FileSelection.Toml.Document

/-!
# Faults of documents

Reading a document ends with its entries or with one of two faults.
-/

namespace FileSelection.Toml

open Failure

inductive IsFault : Failure → Prop
  | malformedDocument : IsFault .malformedDocument
  | longNumber (digits : Nat) : IsFault (.longNumber digits)

variable {α : Type}

theorem need_faults (result : Option α) : Only IsFault (need result) := by
  cases result with
  | none => exact .error .malformedDocument
  | some value => exact .ok value

theorem decimal_faults (decimal : Decimal) : Only IsFault decimal.value := by
  unfold Decimal.value
  split
  · split
    · exact .error (.longNumber _)
    · exact .ok _
  · exact .ok _

theorem number_faults (text : List Char) : Only IsFault (number text) := by
  unfold number
  split
  · exact .ok _
  split
  · exact (decimal_faults _).map _
  · exact need_faults _

theorem timeOrNumber_faults (text : List Char) : Only IsFault (timeOrNumber text) := by
  unfold timeOrNumber
  split
  · split
    · exact .ok _
    · exact .error .malformedDocument
  split
  · exact .ok _
  · exact number_faults _

/-- By induction on the bound of the readers of values, lists and tables, which call each other. -/
theorem reading_faults (fuel : Nat) :
    (∀ text, Only IsFault (value fuel text)) ∧
    (∀ before text, Only IsFault (items fuel before text)) ∧
    ∀ entries declared text, Only IsFault (inline fuel entries declared text) := by
  induction fuel with
  | zero =>
      exact ⟨fun _ => .error .malformedDocument, fun _ _ => .error .malformedDocument,
        fun _ _ _ => .error .malformedDocument⟩
  | succ fuel ih =>
      obtain ⟨hvalue, hitems, hinline⟩ := ih
      refine ⟨fun text => ?_, fun before text => ?_, fun entries declared text => ?_⟩
      · unfold value
        split
        · exact (need_faults _).map _
        · exact (need_faults _).map _
        · exact .ok _
        · exact .ok _
        · refine (need_faults _).bind fun rest _ => ?_
          split
          · exact .ok _
          · exact hitems _ _
        · split
          · exact .ok _
          · exact hinline _ _ _
        · exact timeOrNumber_faults _
      · unfold items
        refine (hvalue _).bind fun found _ => ?_
        refine (need_faults _).bind fun rest _ => ?_
        split
        · exact .ok _
        · refine (need_faults _).bind fun rest _ => ?_
          split
          · exact .ok _
          · exact hitems _ _
        · exact .error .malformedDocument
      · unfold inline
        refine (need_faults _).bind ?_
        rintro ⟨keys, rest⟩ -
        dsimp only
        split
        · refine (hvalue _).bind ?_
          rintro ⟨item, rest⟩ -
          dsimp only
          split
          · exact .error .malformedDocument
          refine (need_faults _).bind fun key _ => ?_
          refine (need_faults _).bind fun entries _ => ?_
          split
          · exact .ok _
          · exact hinline _ _ _
          · exact .error .malformedDocument
        · exact .error .malformedDocument

theorem setting_faults (progress : Progress) (text : List Char) :
    Only IsFault (setting progress text) := by
  refine (need_faults _).bind ?_
  rintro ⟨keys, rest⟩ -
  dsimp only
  split
  · refine ((reading_faults _).1 _).bind fun found _ => ?_
    exact (need_faults _).bind fun _ _ => .ok _
  · exact .error .malformedDocument

theorem statement_faults (progress : Progress) (text : List Char) :
    Only IsFault (statement progress text) := by
  unfold statement
  split
  · exact .ok _
  · exact need_faults _
  · exact need_faults _
  · exact setting_faults _ _

theorem statements_faults (fuel : Nat) (progress : Progress) (text : List Char) :
    Only IsFault (statements fuel progress text) := by
  induction fuel generalizing progress text with
  | zero => exact .error .malformedDocument
  | succ fuel ih =>
      unfold statements
      split
      · exact .ok _
      · exact ih _ _
      · refine (statement_faults _ _).bind fun found _ => ?_
        refine (need_faults _).bind fun rest _ => ?_
        split
        · exact .ok _
        · exact ih _ _
        · exact .error .malformedDocument

theorem document?_faults (text : List Char) : Only IsFault (document? text) :=
  (statements_faults _ _ _).map _

end FileSelection.Toml
