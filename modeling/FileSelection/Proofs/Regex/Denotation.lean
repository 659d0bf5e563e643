import FileSelection.Regex.Match

/-!
# What an expression describes

A second meaning of regular expressions, by the words that they describe between a text before and
a text after.  It covers the plain expressions: characters, anchors, sequences, unlimited runs of
characters, optional parts and groups that nothing refers back to.
-/

namespace FileSelection.Regex

/-- The expressions that `Describes` gives a meaning to. -/
def IsPlain : Regex → Prop
  | .empty | .one _ | .anchor _ => True
  | .seq first second => first.IsPlain ∧ second.IsPlain
  | .many _ times => times.least = 0 ∧ times.most = none
  | .rounds body times => times.least = 0 ∧ times.most = some 1 ∧ body.IsPlain
  | .group _ body => body.IsPlain
  | _ => False

/-- Whether an expression describes `word` between two texts. -/
def Describes : Regex → List Char → List Char → List Char → Prop
  | .empty, _, word, _ => word = []
  | .one set, _, word, _ => ∃ c, word = [c] ∧ set.has c = true
  | .anchor edge, before, word, after =>
      word = [] ∧ edge.holds (before ++ after).toArray before.length = true
  | .seq first second, before, word, after =>
      ∃ front back, word = front ++ back ∧ first.Describes before front (back ++ after) ∧
        second.Describes (before ++ front) back after
  | .many set _, _, word, _ => ∀ c ∈ word, set.has c = true
  | .rounds body _, before, word, after => word = [] ∨ body.Describes before word after
  | .group _ body, before, word, after => body.Describes before word after
  | _, _, _, _ => False

theorem IsPlain.references_eq_nil {regex : Regex} (h : regex.IsPlain) : regex.references = [] := by
  induction regex with
  | seq first second ihFirst ihSecond =>
      simp [references, ihFirst h.1, ihSecond h.2]
  | rounds body times ih => exact ih h.2.2
  | group index body ih => exact ih h
  | empty | one | anchor | many => rfl
  | _ => exact h.elim

/-! ## Sequences of expressions -/

theorem isPlain_seqAll {parts : List Regex} (h : ∀ part ∈ parts, part.IsPlain) :
    (seqAll parts).IsPlain := by
  induction parts with
  | nil => trivial
  | cons part parts ih =>
      cases parts with
      | nil => exact h part (by simp)
      | cons next parts =>
          exact ⟨h part (by simp), ih fun p hp => h p (List.mem_cons_of_mem _ hp)⟩

theorem describes_seqAll_cons (part : Regex) (parts : List Regex) (before word after : List Char) :
    (seqAll (part :: parts)).Describes before word after ↔
      ∃ front back, word = front ++ back ∧ part.Describes before front (back ++ after) ∧
        (seqAll parts).Describes (before ++ front) back after := by
  cases parts with
  | nil =>
      constructor
      · intro h
        exact ⟨word, [], by simp, by simpa [seqAll] using h, rfl⟩
      · rintro ⟨front, back, rfl, h, hback⟩
        cases (hback : back = [])
        simpa [seqAll] using h
  | cons next parts => rfl

theorem describes_seqAll_append (first second : List Regex) (before word after : List Char) :
    (seqAll (first ++ second)).Describes before word after ↔
      ∃ front back, word = front ++ back ∧ (seqAll first).Describes before front (back ++ after) ∧
        (seqAll second).Describes (before ++ front) back after := by
  induction first generalizing before word with
  | nil =>
      constructor
      · intro h
        exact ⟨[], word, rfl, rfl, by simpa using h⟩
      · rintro ⟨front, back, rfl, hfront, h⟩
        cases (hfront : front = [])
        simpa using h
  | cons part parts ih =>
      rw [List.cons_append, describes_seqAll_cons]
      constructor
      · rintro ⟨u, v, rfl, hpart, h⟩
        obtain ⟨front, back, rfl, hfront, hback⟩ := (ih _ _).1 h
        refine ⟨u ++ front, back, by simp, ?_, by simpa using hback⟩
        rw [describes_seqAll_cons]
        exact ⟨u, front, rfl, by simpa using hpart, hfront⟩
      · rintro ⟨front, back, rfl, hfront, hback⟩
        obtain ⟨u, v, rfl, hpart, h⟩ := (describes_seqAll_cons ..).1 hfront
        exact ⟨u, v ++ back, by simp, by simpa using hpart,
          (ih _ _).2 ⟨v, back, rfl, h, by simpa using hback⟩⟩

end FileSelection.Regex
