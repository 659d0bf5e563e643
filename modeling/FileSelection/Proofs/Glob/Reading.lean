import FileSelection.Glob
import FileSelection.Proofs.Regex.Reading
import FileSelection.Proofs.Text.Split

/-!
# Reading the expressions of patterns

The written form of a pattern is read without a failure, and what is read is the sequence of parts
that the pattern asks for.
-/

namespace FileSelection.Glob

open FileSelection.Regex FileSelection.Text

/-! ## Parts of patterns -/

def charPart (c : Char) : Part := .char c.toNat false

def outsidePart (mode : Mode) (separator : List Char) : Part :=
  .other (repeated (mode.part (.ofMembers (separator.map .single) true)) ⟨0, none, false⟩)

def anyPart (mode : Mode) (reluctant : Bool) : Part :=
  .other (repeated (mode.part .any) ⟨0, none, reluctant⟩)

def optionalPart (mode : Mode) (index : Nat) (parts : List Part) : Part :=
  .other (.rounds (.group index (mode.parts parts)) ⟨0, some 1, false⟩)

def tokenParts (mode : Mode) (separator : List Char) (c : Char) : List Part :=
  if c == '*' then [outsidePart mode separator]
  else if c == '?' then [.any]
  else if c == '/' then separator.map charPart
  else [charPart c]

def runParts (mode : Mode) (separator run : List Char) : List Part :=
  run.flatMap (tokenParts mode separator)

def deepPart (mode : Mode) (separator : List Char) (index : Nat) : Part :=
  optionalPart mode index (anyPart mode true :: separator.map charPart)

def bodyParts (mode : Mode) (separator : List Char) : Nat → List (List Char) → List Part
  | _, [] => []
  | _, [run] => runParts mode separator run
  | opened, run :: runs =>
      runParts mode separator run ++ deepPart mode separator (opened + 1) ::
        bodyParts mode separator (opened + 1) runs

def endingParts (mode : Mode) (separator : List Char) (index : Nat) : Ending → List Part
  | .exact => []
  | .subtree => [optionalPart mode index (separator.map charPart ++ [anyPart mode false])]
  | .openEnd => [outsidePart mode separator]

def patternParts (mode : Mode) (separator pattern : List Char) : List Part :=
  if isEverything pattern then [.anchor .lineStart, anyPart mode false, .anchor .lineEnd]
  else
    let (body, ending) := splitEnding pattern
    let runs := splitAt "**/".toList body
    .anchor .lineStart :: (bodyParts mode separator 0 runs ++
      endingParts mode separator runs.length ending ++ [.anchor .lineEnd])

/-! ## Literal texts -/

def specialChars : List Char :=
  ['(', ')', '[', ']', '\x7b', '\x7d', '?', '*', '+', '-', '|', '^', '$', '\\', '.', '&', '~', '#',
    ' ', '\t', '\n', '\r', '\x0b', '\x0c']

theorem isSpecial_eq (c : Char) : isSpecial c = specialChars.contains c := rfl

theorem ne_of_not_special {c d : Char} (hc : isSpecial c = false)
    (hd : isSpecial d = true := by decide) : c ≠ d := by
  rintro rfl
  rw [hc] at hd
  cases hd

theorem forall_special {P : Char → Prop} (h : ∀ c ∈ specialChars, P c) {c : Char}
    (hc : isSpecial c = true) : P c :=
  h c (by simpa [isSpecial_eq] using hc)

theorem escape?_special (mode : Mode) (known : Known) (rest : List Char) {c : Char}
    (hc : isSpecial c = true) : escape? mode known (c :: rest) = some (charPart c, rest) := by
  refine forall_special (P := fun c => escape? mode known (c :: rest) = some (charPart c, rest))
    ?_ hc
  simp only [specialChars, List.forall_mem_cons, List.not_mem_nil, false_imp_iff, implies_true,
    and_true]
  and_intros <;> rfl

theorem member?_special (rest : List Char) {c : Char} (hc : isSpecial c = true) :
    member? ('\\' :: c :: rest) = some (.single c, rest) := by
  refine forall_special (P := fun c => member? ('\\' :: c :: rest) = some (.single c, rest)) ?_ hc
  simp only [specialChars, List.forall_mem_cons, List.not_mem_nil, false_imp_iff, implies_true,
    and_true]
  and_intros <;> rfl

theorem member?_literalChar (c : Char) (rest : List Char) :
    member? (literalChar c ++ rest) = some (.single c, rest) := by
  unfold literalChar
  cases hc : isSpecial c with
  | true => exact member?_special rest hc
  | false =>
      simp only [Bool.false_eq_true, if_false, List.singleton_append]
      rw [member?]
      all_goals simp [ne_of_not_special hc (d := '\\')]

theorem exists_literalChar_eq (c : Char) :
    ∃ d rest, literalChar c = d :: rest ∧ (d = '\\' ∨ isSpecial d = false) := by
  unfold literalChar
  cases hc : isSpecial c with
  | true => exact ⟨_, _, rfl, .inl rfl⟩
  | false => exact ⟨_, _, rfl, .inr hc⟩

theorem members?_step {text rest : List Char} {member : Member} (fuel : Nat)
    (members : List Member) (hmember : member? text = some (member, rest))
    (hclose : text.head? ≠ some ']') (hrange : rest.head? ≠ some '-') :
    members? (fuel + 1) members text = members? fuel (member :: members) rest := by
  conv => lhs; unfold members?
  split
  · simp at hclose
  · rw [hmember]
    simp only [Option.bind_eq_bind, Option.bind_some]
    split
    · simp at hrange
    · simp at hrange
    · rfl

theorem head?_literal_append {c : Char} (hc : isSpecial c = true) (hescape : c ≠ '\\')
    (text : List Char) {rest : List Char} (hrest : rest.head? ≠ some c) :
    (literal text ++ rest).head? ≠ some c := by
  cases text with
  | nil => exact hrest
  | cons d text =>
      obtain ⟨e, tail, heq, he⟩ := exists_literalChar_eq d
      simp only [literal, List.flatMap_cons, heq, List.cons_append, List.head?_cons, ne_eq,
        Option.some.injEq]
      rintro rfl
      obtain rfl | he := he
      · exact hescape rfl
      · rw [hc] at he
        cases he

theorem members?_literal (text rest : List Char) (fuel : Nat) (members : List Member)
    (hfuel : text.length < fuel) (hsome : members ≠ [] ∨ text ≠ []) :
    members? fuel members (literal text ++ ']' :: rest) =
      some (members.reverse ++ text.map .single, rest) := by
  induction text generalizing fuel members with
  | nil =>
      obtain ⟨fuel, rfl⟩ := Nat.exists_eq_add_of_le' (show 1 ≤ fuel by omega)
      cases members with
      | nil => simp at hsome
      | cons member members => simp [literal, members?]
  | cons c text ih =>
      obtain ⟨fuel, rfl⟩ := Nat.exists_eq_add_of_le' (show 1 ≤ fuel by omega)
      rw [List.length_cons] at hfuel
      have hmember : member? (literal (c :: text) ++ ']' :: rest) =
          some (.single c, literal text ++ ']' :: rest) := by
        simpa [literal] using member?_literalChar c (literal text ++ ']' :: rest)
      have hclose : (literal (c :: text) ++ ']' :: rest).head? ≠ some ']' := by
        obtain ⟨d, tail, heq, hd⟩ := exists_literalChar_eq c
        simp only [literal, List.flatMap_cons, heq, List.cons_append, List.head?_cons, ne_eq,
          Option.some.injEq]
        rintro rfl
        exact absurd hd (by decide)
      have hrange : (literal text ++ ']' :: rest).head? ≠ some '-' :=
        head?_literal_append (by decide) (by decide) text (by simp)
      rw [members?_step fuel members hmember hclose hrange, ih fuel _ (by omega) (by simp)]
      simp

theorem length_le_length_literal (text : List Char) : text.length ≤ (literal text).length := by
  induction text with
  | nil => exact Nat.le_refl _
  | cons c text ih =>
      obtain ⟨d, tail, heq, -⟩ := exists_literalChar_eq c
      simp only [literal, List.flatMap_cons, heq, List.length_append, List.length_cons] at ih ⊢
      omega

theorem set?_outside {separator : List Char} (hseparator : separator ≠ []) (rest : List Char) :
    set? ('^' :: (literal separator ++ ']' :: rest)) =
      some (.ofMembers (separator.map .single) true, rest) := by
  have hlength := length_le_length_literal separator
  have hmembers := members?_literal separator rest
    ((literal separator ++ ']' :: rest).length + 1) [] (by
      simp only [List.length_append]
      omega) (.inr hseparator)
  simp only [set?, hmembers]
  rfl

/-! ## Pieces of patterns -/

section

variable {mode : Mode} (hverbose : mode.verbose = false) {opened : Nat}

include hverbose

theorem reads_literalChar (c : Char) : Reads mode opened opened (literalChar c) [charPart c] := by
  unfold literalChar
  cases hc : isSpecial c with
  | true =>
      have hitem : IsItem mode ['\\', c] (.single (charPart c)) := by
        intro fuel first known before rest
        rw [List.cons_append, List.singleton_append, Regex.sequence]
        simp [hverbose, quantifier?, escape?_special mode known rest hc, need, bind, Except.bind]
        rfl
      exact .of_isItem (by decide) (by decide) hitem
  | false =>
      have hitem : IsItem mode [c] (.single (charPart c)) := by
        intro fuel first known before rest
        rw [List.singleton_append, Regex.sequence]
        · simp [hverbose, quantifier?, ne_of_not_special hc (d := '*'),
            ne_of_not_special hc (d := '+'), ne_of_not_special hc (d := '?'),
            ne_of_not_special hc (d := '\x7b'), bind, Except.bind]
          rfl
        all_goals exact ne_of_not_special hc
      exact .of_isItem (ne_of_not_special hc) (ne_of_not_special hc) hitem

theorem reads_literal (text : List Char) :
    Reads mode opened opened (literal text) (text.map charPart) := by
  induction text with
  | nil => exact .nil
  | cons c text ih => exact (reads_literalChar hverbose c).append ih

theorem reads_outside {separator : List Char} (hseparator : separator ≠ []) :
    Reads mode opened opened (outside separator ++ ['*']) [outsidePart mode separator] := by
  have hset : IsItem mode (outside separator) (.single (.ofMembers (separator.map .single) true)) :=
    isItem_set hverbose fun rest => by simpa using set?_outside hseparator rest
  exact .starred hverbose (by decide) (by decide) hset

theorem reads_token {separator : List Char} (hseparator : separator ≠ []) (c : Char) :
    Reads mode opened opened (tokenText separator c) (tokenParts mode separator c) := by
  unfold tokenText tokenParts
  split
  · exact reads_outside hverbose hseparator
  · split
    · exact .any hverbose
    · split
      · exact reads_literal hverbose separator
      · exact reads_literalChar hverbose c

theorem reads_run {separator : List Char} (hseparator : separator ≠ []) (run : List Char) :
    Reads mode opened opened (runText separator run) (runParts mode separator run) := by
  induction run with
  | nil => exact .nil
  | cons c run ih => exact (reads_token hverbose hseparator c).append ih

theorem reads_deep (separator : List Char) :
    Reads mode opened (opened + 1) (deepText separator) [deepPart mode separator (opened + 1)] := by
  have hany : Reads mode (opened + 1) (opened + 1) ".*?".toList [anyPart mode true] :=
    Reads.starredReluctant hverbose (by decide) (by decide) (isItem_any hverbose)
  exact (hany.append (reads_literal hverbose separator)).optionalGroup hverbose

theorem reads_body {separator : List Char} (hseparator : separator ≠ []) (run : List Char)
    (runs : List (List Char)) :
    Reads mode opened (opened + runs.length)
      ((deepText separator).intercalate ((run :: runs).map (runText separator)))
      (bodyParts mode separator opened (run :: runs)) := by
  induction runs generalizing opened run with
  | nil => simpa [List.intercalate, bodyParts] using reads_run hverbose hseparator run
  | cons next runs ih =>
      have hnext : Reads mode (opened + 1) (opened + 1 + runs.length) _ _ := ih next
      have hrest := (reads_deep hverbose separator).append hnext
      have hwhole := (reads_run hverbose hseparator run).append hrest
      simpa [bodyParts, List.intercalate_cons_cons, Nat.add_assoc, Nat.add_comm 1] using hwhole

theorem reads_ending {separator : List Char} (hseparator : separator ≠ []) (ending : Ending) :
    ∃ after, Reads mode opened after (endingText separator ending)
      (endingParts mode separator (opened + 1) ending) := by
  cases ending with
  | exact => exact ⟨_, .nil⟩
  | openEnd => exact ⟨_, reads_outside hverbose hseparator⟩
  | subtree =>
      have hany : Reads mode (opened + 1) (opened + 1) ".*".toList [anyPart mode false] :=
        Reads.starred hverbose (by decide) (by decide) (isItem_any hverbose)
      have hwhole := ((reads_literal hverbose separator).append hany).optionalGroup hverbose
      exact ⟨_, by simpa [endingText, endingParts, optionalPart] using hwhole⟩

theorem parse?_runs {separator : List Char} (hseparator : separator ≠ [])
    (runs : List (List Char)) (hruns : runs ≠ []) (ending : Ending) :
    parse? mode ('^' :: (deepText separator).intercalate (runs.map (runText separator)) ++
        endingText separator ending ++ ['$']) =
      .ok (mode.parts (.anchor .lineStart :: (bodyParts mode separator 0 runs ++
        endingParts mode separator runs.length ending ++ [.anchor .lineEnd]))) := by
  cases runs with
  | nil => exact absurd rfl hruns
  | cons run runs =>
      obtain ⟨after, hending⟩ : ∃ after, Reads mode (0 + runs.length) after _ _ :=
        reads_ending hverbose hseparator ending
      have hbody : Reads mode 0 (0 + runs.length) _ _ := reads_body hverbose hseparator run runs
      have hwhole := (((Reads.lineStart hverbose).append hbody).append hending).append
        (.lineEnd hverbose)
      rw [Nat.zero_add] at hwhole
      exact hwhole.parse?

/-- The expression of a pattern is well formed and consists of the parts of the pattern. -/
theorem parse?_regexText {separator : List Char} (hseparator : separator ≠ [])
    (pattern : List Char) :
    parse? mode (regexText separator pattern) =
      .ok (mode.parts (patternParts mode separator pattern)) := by
  unfold regexText patternParts
  split
  · have hany : Reads mode 0 0 ".*".toList [anyPart mode false] :=
      Reads.starred hverbose (by decide) (by decide) (isItem_any hverbose)
    exact (((Reads.lineStart hverbose).append hany).append (.lineEnd hverbose)).parse?
  · exact parse?_runs hverbose hseparator _ (splitAt_ne_nil _ _) _

end

end FileSelection.Glob
