import FileSelection.Matcher
import FileSelection.Proofs.Glob.Reading
import FileSelection.Proofs.Regex.Matching

/-!
# What a pattern covers

A second meaning of patterns, which does not mention expressions.  A pattern is cut into an ending
and runs of tokens; a path is covered if it can be cut in the same way.  The compiled expression of
a pattern accepts exactly the paths that the pattern covers.
-/

namespace FileSelection.Glob

open FileSelection.Regex FileSelection.Text

/-! ## Cutting a pattern -/

def endings : List (List Char × Ending) :=
  [("/**/".toList, .subtree), ("/**".toList, .subtree), ("/".toList, .subtree),
    ("**".toList, .openEnd)]

inductive Strips : List (List Char × Ending) → List Char → List Char → Ending → Prop
  | none {pattern : List Char} : Strips [] pattern pattern .exact
  | here {mark body : List Char} {ending : Ending} {others : List (List Char × Ending)} :
      Strips ((mark, ending) :: others) (body ++ mark) body ending
  | later {mark pattern body : List Char} {first ending : Ending}
      {others : List (List Char × Ending)} :
      ¬ mark <:+ pattern → Strips others pattern body ending →
        Strips ((mark, first) :: others) pattern body ending

theorem dropSuffix?_eq_some_iff {mark pattern body : List Char} :
    dropSuffix? mark pattern = some body ↔ pattern = body ++ mark := by
  unfold dropSuffix?
  constructor
  · intro h
    split at h
    · rename_i hsuffix
      obtain ⟨front, rfl⟩ := List.isSuffixOf_iff_suffix.1 hsuffix
      cases h
      simp
    · cases h
  · rintro rfl
    rw [if_pos (List.isSuffixOf_iff_suffix.2 (List.suffix_append body mark))]
    simp

theorem dropSuffix?_eq_none_iff {mark pattern : List Char} :
    dropSuffix? mark pattern = none ↔ ¬ mark <:+ pattern := by
  unfold dropSuffix?
  rw [← List.isSuffixOf_iff_suffix]
  split <;> simp_all

def stripFirst : List (List Char × Ending) → List Char → List Char × Ending
  | [], pattern => (pattern, .exact)
  | (mark, ending) :: others, pattern =>
      match dropSuffix? mark pattern with
      | some body => (body, ending)
      | none => stripFirst others pattern

theorem splitEnding_eq_stripFirst (pattern : List Char) :
    splitEnding pattern = stripFirst endings pattern := rfl

theorem strips_cons_iff {mark pattern body : List Char} {first ending : Ending}
    {others : List (List Char × Ending)} :
    Strips ((mark, first) :: others) pattern body ending ↔
      (pattern = body ++ mark ∧ ending = first) ∨
        (¬ mark <:+ pattern ∧ Strips others pattern body ending) := by
  constructor
  · intro h
    cases h with
    | here => exact .inl ⟨rfl, rfl⟩
    | later hnot h => exact .inr ⟨hnot, h⟩
  · rintro (⟨rfl, rfl⟩ | ⟨hnot, h⟩)
    · exact .here
    · exact .later hnot h

theorem strips_iff {marks : List (List Char × Ending)} {pattern body : List Char}
    {ending : Ending} :
    Strips marks pattern body ending ↔ stripFirst marks pattern = (body, ending) := by
  induction marks with
  | nil =>
      constructor
      · rintro ⟨⟩
        rfl
      · rintro ⟨⟩
        exact .none
  | cons first others ih =>
      obtain ⟨mark, other⟩ := first
      rw [strips_cons_iff, stripFirst]
      cases hdrop : dropSuffix? mark pattern with
      | some front =>
          obtain rfl := dropSuffix?_eq_some_iff.1 hdrop
          simp [eq_comm]
      | none =>
          have hnot := dropSuffix?_eq_none_iff.1 hdrop
          have hne : pattern ≠ body ++ mark := fun heq => hnot ⟨body, heq.symm⟩
          simp [hne, hnot, ih]

/-! ## Covering a path

Characters are compared by `same`, which tells the characters of a path that a character of a
pattern stands for. -/

section

def marks : List Char := ['*', '?', '/']

theorem toNat_lt_of_mem_marks {mark : Char} (h : mark ∈ marks) : mark.toNat < 65 := by
  simp only [marks, List.mem_cons, List.not_mem_nil, or_false] at h
  rcases h with rfl | rfl | rfl <;> decide

variable (same : Char → Char → Prop) (separator : Char)

def TokenCovers : Char → List Char → Prop
  | '*', word => ∀ c ∈ word, ¬ same separator c
  | '?', word => ∃ c, word = [c]
  | '/', word => ∃ c, word = [c] ∧ same separator c
  | token, word => ∃ c, word = [c] ∧ same token c

/-- A run covers a text token by token. -/
inductive RunCovers : List Char → List Char → Prop
  | nil : RunCovers [] []
  | cons {token : Char} {run front back : List Char} :
      TokenCovers same separator token front → RunCovers run back →
        RunCovers (token :: run) (front ++ back)

def DeepCovers (word : List Char) : Prop :=
  word = [] ∨ ∃ front c, word = front ++ [c] ∧ same separator c

/-- Runs cover a text with leading segments between them. -/
inductive RunsCover : List (List Char) → List Char → Prop
  | last {run word : List Char} : RunCovers same separator run word → RunsCover [run] word
  | cons {run front deep back : List Char} {runs : List (List Char)} :
      RunCovers same separator run front → DeepCovers same separator deep → RunsCover runs back →
        RunsCover (run :: runs) (front ++ (deep ++ back))

def EndingCovers : Ending → List Char → Prop
  | .exact, word => word = []
  | .subtree, word => word = [] ∨ ∃ c rest, word = c :: rest ∧ same separator c
  | .openEnd, word => ∀ c ∈ word, ¬ same separator c

/-- The paths that a pattern covers. -/
def Covers (pattern path : List Char) : Prop :=
  pattern = "**".toList ∨ pattern = "**/".toList ∨
    ∃ body ending runs front back, Strips endings pattern body ending ∧
      Cuts "**/".toList body runs ∧ path = front ++ back ∧
      RunsCover same separator runs front ∧ EndingCovers same separator ending back

variable {same separator}

theorem tokenCovers_literal_iff {token : Char} {word : List Char} (htoken : token ∉ marks) :
    TokenCovers same separator token word ↔ ∃ c, word = [c] ∧ same token c := by
  simp only [marks, List.mem_cons, List.not_mem_nil, or_false, not_or] at htoken
  obtain ⟨hstar, hany, hslash⟩ := htoken
  simp [TokenCovers]

theorem runCovers_cons_iff {token : Char} {run word : List Char} :
    RunCovers same separator (token :: run) word ↔
      ∃ front back, word = front ++ back ∧ TokenCovers same separator token front ∧
        RunCovers same separator run back := by
  constructor
  · rintro ⟨⟩
    exact ⟨_, _, rfl, ‹_›, ‹_›⟩
  · rintro ⟨front, back, rfl, hfront, hback⟩
    exact .cons hfront hback

theorem runCovers_append_iff {run rest word : List Char} :
    RunCovers same separator (run ++ rest) word ↔
      ∃ front back, word = front ++ back ∧ RunCovers same separator run front ∧
        RunCovers same separator rest back := by
  induction run generalizing word with
  | nil =>
      constructor
      · exact fun h => ⟨[], word, rfl, .nil, h⟩
      · rintro ⟨_, back, rfl, ⟨⟩, hback⟩
        exact hback
  | cons token run ih =>
      simp only [List.cons_append, runCovers_cons_iff, ih]
      constructor
      · rintro ⟨first, _, rfl, hfirst, front, back, rfl, hfront, hback⟩
        exact ⟨first ++ front, back, by simp, ⟨first, front, rfl, hfirst, hfront⟩, hback⟩
      · rintro ⟨_, back, rfl, ⟨first, front, rfl, hfirst, hfront⟩, hback⟩
        exact ⟨first, front ++ back, by simp, hfirst, front, back, rfl, hfront, hback⟩

theorem runsCover_singleton_iff {run word : List Char} :
    RunsCover same separator [run] word ↔ RunCovers same separator run word := by
  constructor
  · intro h
    cases h with
    | last h => exact h
    | cons _ _ h => cases h
  · exact .last

theorem runsCover_cons_cons_iff {run next word : List Char} {runs : List (List Char)} :
    RunsCover same separator (run :: next :: runs) word ↔
      ∃ front back, word = front ++ back ∧ RunCovers same separator run front ∧
        ∃ deep rest, back = deep ++ rest ∧ DeepCovers same separator deep ∧
          RunsCover same separator (next :: runs) rest := by
  constructor
  · intro h
    cases h with
    | cons hrun hdeep hruns => exact ⟨_, _, rfl, hrun, _, _, rfl, hdeep, hruns⟩
  · rintro ⟨front, _, rfl, hrun, deep, rest, rfl, hdeep, hruns⟩
    exact .cons hrun hdeep hruns

theorem covers_iff_of_ne {pattern path body : List Char} {ending : Ending}
    (hall : isEverything pattern = false) (hsplit : splitEnding pattern = (body, ending)) :
    Covers same separator pattern path ↔
      ∃ front back, path = front ++ back ∧
        RunsCover same separator (splitAt "**/".toList body) front ∧
          EndingCovers same separator ending back := by
  have hneither : pattern ≠ "**".toList ∧ pattern ≠ "**/".toList := by
    simpa [isEverything] using hall
  have hcuts : ∀ {text : List Char} {runs : List (List Char)},
      Cuts "**/".toList text runs ↔ splitAt "**/".toList text = runs := cuts_iff (by decide)
  unfold Covers
  simp only [strips_iff, ← splitEnding_eq_stripFirst, hsplit, Prod.mk.injEq,
    hcuts, hneither.1, hneither.2, false_or]
  constructor
  · rintro ⟨_, _, _, front, back, ⟨rfl, rfl⟩, rfl, hpath, hfront, hback⟩
    exact ⟨front, back, hpath, hfront, hback⟩
  · rintro ⟨front, back, hpath, hfront, hback⟩
    exact ⟨_, _, _, front, back, ⟨rfl, rfl⟩, rfl, hpath, hfront, hback⟩

end

end FileSelection.Glob
