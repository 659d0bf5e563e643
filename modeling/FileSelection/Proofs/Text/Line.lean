import FileSelection.Text.Blank
import FileSelection.Text.Line
import Mathlib.Data.List.TakeWhile

/-!
# Lines and blanks

The lines of a text do not depend on how their ends are written.  Trimming drops blanks up to the
first character, or from the last one on, that is not blank.
-/

namespace FileSelection.Text

theorem fromUTF8?_toUTF8 (text : String) : String.fromUTF8? text.toUTF8 = some text := by
  simp [String.fromUTF8?, String.fromUTF8, text.isValidUTF8]

variable {c : Char} {line rest : List Char}

theorem lines_cons (hpair : c = '\r' → rest.head? ≠ some '\n') :
    lines (c :: rest) =
      if isLineBreak c then [] :: lines rest
      else
        match lines rest with
        | [] => [[c]]
        | line :: more => (c :: line) :: more := by
  have hother : ∀ more, c = '\r' → rest = '\n' :: more → False := by
    rintro more rfl rfl
    exact hpair rfl rfl
  exact lines.eq_3 c rest hother

theorem lines_newline (rest : List Char) : lines ('\n' :: rest) = [] :: lines rest :=
  lines_cons nofun

theorem lines_unifyNewlines (text : List Char) : lines (unifyNewlines text) = lines text := by
  fun_induction unifyNewlines text with
  | case1 => rfl
  | case2 rest ih => rw [lines_newline, ih, lines]
  | case3 rest hpair ih =>
      rw [lines_newline, ih, lines_cons fun _ hrest => ?_]
      · rfl
      · obtain ⟨rest', rfl⟩ := List.head?_eq_some_iff.1 hrest
        exact hpair rest' rfl
  | case4 c rest _ hreturn ih =>
      rw [lines_cons fun hc => (hreturn hc).elim, lines_cons fun hc => (hreturn hc).elim, ih]

theorem trimEnd_cons (hc : isBlank c = false) : trimEnd (c :: rest) = c :: trimEnd rest := by
  unfold trimEnd trimStart
  rw [List.reverse_cons, List.dropWhile_append]
  cases hrest : (rest.reverse.dropWhile isBlank).isEmpty with
  | true => simp [hc, List.isEmpty_iff.1 hrest]
  | false => simp

theorem trimEnd_eq_nil (h : ∀ c ∈ line, isBlank c = true) : trimEnd line = [] := by
  have hnone : trimStart line.reverse = [] := List.dropWhile_eq_nil_iff.2 (by simpa using h)
  rw [trimEnd, hnone, List.reverse_nil]

theorem not_isBlank_of_trimStart (h : trimStart line = c :: rest) : isBlank c = false := by
  have hhead := List.head?_dropWhile_not isBlank line
  rw [show line.dropWhile isBlank = c :: rest from h] at hhead
  simpa using hhead

end FileSelection.Text
