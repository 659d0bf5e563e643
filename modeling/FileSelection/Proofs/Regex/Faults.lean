import FileSelection.Proofs.Failures
import FileSelection.Regex.Parser

/-!
# Faults of regular expressions

Reading an expression ends with an expression or with one of four faults.  Of these, an expression
that is not well formed and a repetition that cannot be counted are not reported by a run.
-/

namespace FileSelection

open Failure

namespace Regex

inductive IsFault : Failure → Prop
  | badExpression : IsFault .badExpression
  | uncountable : IsFault .uncountable
  | longNumber (digits : Nat) : IsFault (.longNumber digits)
  | alphabetClash : IsFault .alphabetClash

variable {α : Type}

theorem need_faults (result : Option α) : Only IsFault (need result) := by
  cases result with
  | none => exact .error .badExpression
  | some value => exact .ok value

theorem bound_faults (count value : Nat) : Only IsFault (bound count value) := by
  unfold bound
  split
  · exact .error (.longNumber count)
  split
  · exact .error .uncountable
  · exact .ok value

theorem quantifier?_faults (text : List Char) : Only IsFault (quantifier? text) := by
  unfold quantifier?
  split
  · exact .ok _
  · exact .ok _
  · exact .ok _
  · split
    · exact .ok _
    · exact .error .badExpression
    · refine (bound_faults _ _).bind fun least _ => ?_
      split
      · exact .ok _
      · exact .ok _
      · refine (bound_faults _ _).bind fun most _ => ?_
        dsimp only
        split
        · exact .error .badExpression
        · exact .ok _
  · exact .ok _

theorem options_faults (mode : Mode) (known : Known) (rest : List Char) :
    Only IsFault (options mode known rest) := by
  unfold options
  dsimp only
  split
  · exact .error .badExpression
  split
  · exact .ok _
  · split
    · exact .error .badExpression
    · exact .ok _
  · split
    · split
      · exact .error .badExpression
      · exact .ok _
    · exact .error .badExpression
  · exact .error .badExpression

theorem opening_faults (mode : Mode) (known : Known) (rest : List Char) :
    Only IsFault (opening mode known rest) := by
  unfold opening
  split
  · exact .ok _
  · exact .ok _
  · exact .ok _
  · exact .ok _
  · exact .ok _
  · exact .ok _
  · exact (need_faults _).bind fun _ _ => .ok _
  · exact need_faults _
  · refine (need_faults _).bind fun found _ => ?_
    dsimp only
    split
    · exact (need_faults _).bind fun _ _ => .ok _
    · exact .error .badExpression
  · refine (need_faults _).bind fun found _ => ?_
    refine (need_faults _).bind fun index _ => ?_
    split
    · exact .ok _
    · exact .error .badExpression
  · exact options_faults _ _ _
  · exact (need_faults _).bind fun _ _ => .ok _

/-- By induction on the bound of both readers, which call each other and themselves. -/
theorem reading_faults (fuel : Nat) :
    (∀ outer first mode known rest,
      Only IsFault (alternatives fuel outer first mode known rest)) ∧
    ∀ first mode known items text, Only IsFault (sequence fuel first mode known items text) := by
  induction fuel with
  | zero => exact ⟨fun _ _ _ _ _ => .error .badExpression, fun _ _ _ _ _ => .error .badExpression⟩
  | succ fuel ih =>
      obtain ⟨halternatives, hsequence⟩ := ih
      constructor
      · intro outer first mode known rest
        refine (hsequence _ _ _ _ _).bind fun branch _ => ?_
        split
        · exact (halternatives _ _ _ _ _).bind fun _ _ => .ok _
        · exact .ok _
      · intro first mode known items text
        unfold sequence
        split
        · exact .ok _
        · exact .ok _
        · exact .ok _
        split
        · exact hsequence _ _ _ _ _
        split
        · exact (need_faults _).bind fun _ _ => hsequence _ _ _ _ _
        refine (quantifier?_faults _).bind fun quantifier _ => ?_
        split
        · exact (need_faults _).bind fun _ _ => hsequence _ _ _ _ _
        split
        · exact (need_faults _).bind fun _ _ => hsequence _ _ _ _ _
        · exact (need_faults _).bind fun _ _ => hsequence _ _ _ _ _
        · exact hsequence _ _ _ _ _
        · exact hsequence _ _ _ _ _
        · exact hsequence _ _ _ _ _
        · refine (opening_faults _ _ _).bind fun found _ => ?_
          split
          · exact hsequence _ _ _ _ _
          · split
            · exact hsequence _ _ _ _ _
            · exact .error .badExpression
          · exact hsequence _ _ _ _ _
          · refine (hsequence _ _ _ _ _).bind fun matched _ => ?_
            dsimp only
            split
            · refine (hsequence _ _ _ _ _).bind fun unmatched _ => ?_
              split
              · exact hsequence _ _ _ _ _
              · exact .error .badExpression
            · refine Only.bind (.ok _) fun unmatched _ => ?_
              split
              · exact hsequence _ _ _ _ _
              · exact .error .badExpression
          · refine (halternatives _ _ _ _ _).bind fun body _ => ?_
            split
            · exact hsequence _ _ _ _ _
            · exact .error .badExpression
        · exact hsequence _ _ _ _ _

theorem parse?_faults (mode : Mode) (text : List Char) : Only IsFault (parse? mode text) := by
  refine ((reading_faults _).1 _ _ _ _ _).bind fun found _ => ?_
  dsimp only
  split
  · exact .error .alphabetClash
  split
  · exact .error .badExpression
  · exact .ok _

end Regex

end FileSelection
