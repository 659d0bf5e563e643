import FileSelection.Proofs.Text.Pieces
import FileSelection.Segmented
import Mathlib.Logic.Relation

/-!
# Repeated separators

Of a pattern and of a path only the segments count, and whether it begins with the separator.  Where
there is a separator there can as well be several, and at the end there can be some or none.
-/

namespace FileSelection.Segmented

open FileSelection.Text

/-- The same text with more or fewer separators in one place. -/
inductive Respaces (separator : Char) : List Char → List Char → Prop
  | run {front back : List Char} {m n : Nat} :
      Respaces separator (front ++ (List.replicate (m + 1) separator ++ back))
        (front ++ (List.replicate (n + 1) separator ++ back))
  | ending {text : List Char} {n : Nat} :
      text ≠ [] → Respaces separator text (text ++ List.replicate n separator)

abbrev IsRespaced (separator : Char) : List Char → List Char → Prop :=
  Relation.EqvGen (Respaces separator)

variable {separator : Char} {text text' front back : List Char}

/-! ## Segments -/

theorem splitAt_singleton (separator : Char) (text : List Char) :
    splitAt [separator] text = splitWhere (· == separator) text := by
  unfold splitAt
  induction text with
  | nil => rfl
  | cons c text ih =>
      rw [splitAfter, splitWhere, ← ih]
      by_cases hc : c = separator
      · subst hc
        simp
      · have hmark : [separator].isPrefixOf (c :: text) = false := by
          simpa [List.isPrefixOf] using fun h => hc h.symm
        simp [hmark, hc]

theorem segments?_singleton (separator : Char) (text : List Char) :
    segments? [separator] text = some (tokens (· == separator) text) := by
  unfold segments? tokens
  rw [splitAt_singleton]
  rfl

theorem segments?_eq_some_iff {segments : List (List Char)} :
    segments? [separator] text = some segments ↔ Strung (· == separator) segments text := by
  rw [segments?_singleton, Option.some.injEq, tokens_eq_iff]

theorem isGap_replicate (separator : Char) (n : Nat) :
    IsGap (· == separator) (List.replicate n separator) := by
  intro c hc
  simpa using List.eq_of_mem_replicate hc

theorem tokens_run (front back : List Char) (n : Nat) :
    tokens (· == separator) (front ++ (List.replicate (n + 1) separator ++ back)) =
      tokens (· == separator) front ++ tokens (· == separator) back := by
  have hgap := isGap_replicate separator (n + 1)
  rw [tokens_append_of_head (by simp [List.replicate_succ]), tokens_append_of_last hgap.getLast?,
    hgap.tokens_eq_nil, List.nil_append]

theorem tokens_ending (text : List Char) (n : Nat) :
    tokens (· == separator) (text ++ List.replicate n separator) =
      tokens (· == separator) text := by
  cases n with
  | zero => rw [List.replicate_zero, List.append_nil]
  | succ n => simpa using tokens_run text [] n

/-! ## What counts -/

def reading (separator : Char) (text : List Char) : Bool × List (List Char) :=
  ([separator].isPrefixOf text, tokens (· == separator) text)

theorem isPrefixOf_append_of_ne_nil (hne : text ≠ []) (more : List Char) :
    [separator].isPrefixOf (text ++ more) = [separator].isPrefixOf text := by
  cases text with
  | nil => exact absurd rfl hne
  | cons c text => rfl

theorem Respaces.reading_eq (h : Respaces separator text text') :
    reading separator text = reading separator text' := by
  cases h with
  | @run front back m n =>
      refine Prod.ext ?_ ((tokens_run front back m).trans (tokens_run front back n).symm)
      cases front with
      | nil => simp [reading, List.replicate_succ]
      | cons c front => rfl
  | @ending _ n hne =>
      exact Prod.ext (isPrefixOf_append_of_ne_nil hne _).symm (tokens_ending text n).symm

theorem IsRespaced.reading_eq (h : IsRespaced separator text text') :
    reading separator text = reading separator text' := by
  induction h with
  | rel _ _ h => exact h.reading_eq
  | refl => rfl
  | symm _ _ _ ih => exact ih.symm
  | trans _ _ _ _ _ ih ih' => exact ih.trans ih'

theorem coversPath?_singleton (separator : Char) (caseSensitive : Bool) (pattern path : List Char) :
    coversPath? [separator] caseSensitive pattern path =
      some ((reading separator pattern).1 == (reading separator path).1 &&
        Wildcard.covers isDeep (coversSegment caseSensitive) (reading separator pattern).2
          (reading separator path).2) := by
  unfold coversPath? reading
  rw [segments?_singleton, segments?_singleton]
  by_cases halike : [separator].isPrefixOf pattern = [separator].isPrefixOf path
  · simp [halike]
  · simp [halike]

/-- With a separator of one character the segments of a text are its longest parts without that
character, in order: they are strung between runs of it and read back from any such runs, and each
is found where the text has a part that cannot be made longer.  So it does not matter how many
separators there are in one place, nor whether there are some at the end. -/
theorem number_of_separators_is_irrelevant (separator : Char) :
    (∀ caseSensitive pattern pattern' path path',
      IsRespaced separator pattern pattern' → IsRespaced separator path path' →
        ∃ answer, coversPath? [separator] caseSensitive pattern path = some answer ∧
          coversPath? [separator] caseSensitive pattern' path' = some answer) ∧
    (∀ text segments,
      segments? [separator] text = some segments ↔ Strung (· == separator) segments text) ∧
    ∀ text before segment after,
      segments? [separator] text = some (before ++ segment :: after) ↔
        ∃ front back, text = front ++ (segment ++ back) ∧
          IsMaximal (· == separator) front segment back ∧
          segments? [separator] front = some before ∧ segments? [separator] back = some after := by
  refine ⟨?_, fun text segments => segments?_eq_some_iff, ?_⟩
  · intro caseSensitive pattern pattern' path path' hpattern hpath
    refine ⟨_, coversPath?_singleton separator caseSensitive pattern path, ?_⟩
    rw [coversPath?_singleton, hpattern.reading_eq, hpath.reading_eq]
  · intro text before segment after
    simp only [segments?_singleton, Option.some.injEq]
    exact tokens_eq_append_cons_iff

theorem slashes_are_repeated_and_dropped :
    IsRespaced '/' "/a//**/".toList "//a/**".toList ∧
      IsRespaced '/' "///a/b//c".toList "/a/b/c//".toList ∧
      ∃ answer, coversPath? ['/'] true "/a//**/".toList "///a/b//c".toList = some answer ∧
        coversPath? ['/'] true "//a/**".toList "/a/b/c//".toList = some answer := by
  have hpattern : IsRespaced '/' "/a//**/".toList "//a/**".toList := by
    have hlead : Respaces '/' "/a//**/".toList "//a//**/".toList := @Respaces.run '/' [] _ 0 1
    have hinner : Respaces '/' "//a//**/".toList "//a/**/".toList :=
      @Respaces.run '/' "//a".toList _ 1 0
    have hending : Respaces '/' "//a/**".toList "//a/**/".toList :=
      @Respaces.ending '/' _ 1 (by decide)
    have hdropped : IsRespaced '/' "//a/**/".toList "//a/**".toList := .symm _ _ (.rel _ _ hending)
    exact .trans _ _ _ (.rel _ _ hlead) (.trans _ _ _ (.rel _ _ hinner) hdropped)
  have hpath : IsRespaced '/' "///a/b//c".toList "/a/b/c//".toList := by
    have hlead : Respaces '/' "///a/b//c".toList "/a/b//c".toList := @Respaces.run '/' [] _ 2 0
    have hinner : Respaces '/' "/a/b//c".toList "/a/b/c".toList :=
      @Respaces.run '/' "/a/b".toList _ 1 0
    have hending : Respaces '/' "/a/b/c".toList "/a/b/c//".toList :=
      @Respaces.ending '/' _ 2 (by decide)
    exact .trans _ _ _ (.rel _ _ hlead) (.trans _ _ _ (.rel _ _ hinner) (.rel _ _ hending))
  exact ⟨hpattern, hpath,
    (number_of_separators_is_irrelevant '/').1 true _ _ _ _ hpattern hpath⟩

end FileSelection.Segmented
