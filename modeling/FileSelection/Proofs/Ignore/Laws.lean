import FileSelection.Ignore
import FileSelection.Proofs.Regex.Faults
import FileSelection.Text.Blank

/-!
# What is relied on of ignore rules

The library of ignore rules is a parameter.  Of what its documentation says, two parts are relied
on.  Blank lines and comments are no rules.  And the lines are read one by one, so that the first
line that is refused or holds a faulty expression is the one to blame.
-/

namespace FileSelection.Ignore

open Failure

section

variable [Library]

def decisions? (lines : List String) : Except Failure (String → Bool) :=
  (Library.compile? lines).map Rules.ignores

/-- Lines that hold only blanks are no rules, and neither are lines that begin with `#`. -/
structure Library.SkipsComments : Prop where
  nothing : decisions? [] = .ok fun _ => false
  blank {line : String} (before after : List String) :
    (∀ c ∈ line.toList, Text.isBlank c = true) →
      decisions? (before ++ line :: after) = decisions? (before ++ after)
  comment {line : String} (before after : List String) : line.toList.head? = some '#' →
    decisions? (before ++ line :: after) = decisions? (before ++ after)

/-- Lines are read one by one.  A line is refused, or its expression is faulty as expressions can
be; that a line is refused is a wrong value. -/
structure Library.ReadsByLine : Prop where
  nothing : ∃ rules, Library.compile? [] = .ok rules
  cons_eq_error_iff (line : String) (lines : List String) (failure : Failure) :
    Library.compile? (line :: lines) = .error failure ↔
      Library.compile? [line] = .error failure ∨
        (∃ rules, Library.compile? [line] = .ok rules) ∧ Library.compile? lines = .error failure
  faults (line : String) :
    Only (fun failure => failure = .badIgnoreLine line ∨ Regex.IsFault failure)
      (Library.compile? [line])
  refusal : Library.refusalIsValue = true

/-! ## Lines that are no rules -/

def IsSkipped (line : String) : Prop :=
  (∀ c ∈ line.toList, Text.isBlank c = true) ∨ line.toList.head? = some '#'

theorem Library.SkipsComments.decisions?_append_filter (hskips : SkipsComments)
    {keep : String → Bool} {lines : List String}
    (hskipped : ∀ line ∈ lines, keep line = false → IsSkipped line) (before : List String) :
    decisions? (before ++ lines.filter keep) = decisions? (before ++ lines) := by
  induction lines generalizing before with
  | nil => rfl
  | cons line lines ih =>
      have ih := ih fun other hother => hskipped other (List.mem_cons_of_mem _ hother)
      cases hkeep : keep line with
      | true => simpa [List.filter_cons_of_pos hkeep] using ih (before ++ [line])
      | false =>
          rw [List.filter_cons_of_neg (by simp [hkeep]), ih]
          obtain hblank | hcomment := hskipped line List.mem_cons_self hkeep
          · exact (hskips.blank before lines hblank).symm
          · exact (hskips.comment before lines hcomment).symm

theorem Library.SkipsComments.decisions?_filter (hskips : SkipsComments) {keep : String → Bool}
    {lines : List String} (hskipped : ∀ line ∈ lines, keep line = false → IsSkipped line) :
    decisions? (lines.filter keep) = decisions? lines :=
  hskips.decisions?_append_filter hskipped []

theorem cases_of_decisions? {lines others : List String}
    (h : decisions? lines = decisions? others) :
    (∃ failure, Library.compile? lines = .error failure ∧
      Library.compile? others = .error failure) ∨
    ∃ found rules, Library.compile? lines = .ok found ∧ Library.compile? others = .ok rules ∧
      found.ignores = rules.ignores := by
  unfold decisions? at h
  cases hfound : Library.compile? lines with
  | error failure =>
      cases hrules : Library.compile? others with
      | error other =>
          rw [hfound, hrules] at h
          cases h
          exact .inl ⟨failure, rfl, rfl⟩
      | ok rules =>
          rw [hfound, hrules] at h
          cases h
  | ok found =>
      cases hrules : Library.compile? others with
      | error failure =>
          rw [hfound, hrules] at h
          cases h
      | ok rules =>
          rw [hfound, hrules] at h
          exact .inr ⟨found, rules, rfl, rfl, Except.ok.inj h⟩

/-! ## Lines to blame -/

def Faulty (lines : List String) (failure : Failure) : Prop :=
  lines ≠ [] ∧ Library.compile? lines = .error failure

/-- The first line that is not understood fails in this way. -/
inductive FirstFault : List String → Failure → Prop
  | here {line : String} {lines : List String} {failure : Failure} :
      Library.compile? [line] = .error failure → FirstFault (line :: lines) failure
  | later {line : String} {lines : List String} {failure : Failure} :
      (∃ rules, Library.compile? [line] = .ok rules) → FirstFault lines failure →
        FirstFault (line :: lines) failure

theorem FirstFault.exists_line {lines : List String} {failure : Failure}
    (h : FirstFault lines failure) : ∃ line ∈ lines, Library.compile? [line] = .error failure := by
  induction h with
  | here hline => exact ⟨_, List.mem_cons_self, hline⟩
  | later _ _ ih =>
      obtain ⟨line, hline, hfault⟩ := ih
      exact ⟨line, List.mem_cons_of_mem _ hline, hfault⟩

theorem Library.ReadsByLine.compile?_eq_error_iff (hreads : ReadsByLine) {lines : List String}
    {failure : Failure} :
    Library.compile? lines = .error failure ↔ FirstFault lines failure := by
  induction lines with
  | nil =>
      obtain ⟨rules, hnothing⟩ := hreads.nothing
      rw [hnothing]
      exact ⟨nofun, nofun⟩
  | cons line lines ih =>
      rw [hreads.cons_eq_error_iff, ih]
      constructor
      · rintro (hline | ⟨hline, hlines⟩)
        · exact .here hline
        · exact .later hline hlines
      · rintro (hline | ⟨hline, hlines⟩)
        · exact .inl hline
        · exact .inr ⟨hline, hlines⟩

theorem Library.ReadsByLine.faulty_iff (hreads : ReadsByLine) {lines : List String}
    {failure : Failure} : Faulty lines failure ↔ FirstFault lines failure := by
  rw [Faulty, hreads.compile?_eq_error_iff]
  refine and_iff_right_of_imp ?_
  rintro h rfl
  cases h

theorem Library.ReadsByLine.compile?_faults (hreads : ReadsByLine) (lines : List String) :
    Only (fun failure => ∃ line ∈ lines, Library.compile? [line] = .error failure)
      (Library.compile? lines) :=
  fun _ hfailure => (hreads.compile?_eq_error_iff.1 hfailure).exists_line

end

end FileSelection.Ignore
