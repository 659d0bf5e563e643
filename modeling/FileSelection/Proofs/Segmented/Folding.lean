import FileSelection.Ignore.Standard
import FileSelection.Keyed
import FileSelection.Matcher
import FileSelection.Proofs.Segmented.Backtracking
import FileSelection.Proofs.Text.Split

/-!
# Segment patterns up to case

To ignore case, a pattern and a segment are folded before they are matched.  The folding of some
characters is longer than one character, so that `?` stands for them no more.  Nothing else that a
pattern matches as it is written is lost.
-/

namespace FileSelection.Wildcard

variable {α β : Type} {isStar : α → Bool} {same same' : α → β → Bool}

theorem Fits.imp {pattern : List α} {items : List β} (h : Fits isStar same pattern items)
    (hsame : ∀ x ∈ pattern, ∀ item ∈ items, same x item = true → same' x item = true) :
    Fits isStar same' pattern items := by
  induction h with
  | nil => exact .nil
  | @star x pattern taken items hx _ ih =>
      apply Fits.star hx
      apply ih
      intro y hy item hitem
      exact hsame y (List.mem_cons_of_mem x hy) item (List.mem_append_right taken hitem)
  | @one x item pattern items hx hitem _ ih =>
      apply Fits.one hx (hsame x (by simp) item (by simp) hitem)
      apply ih
      intro y hy other hother
      exact hsame y (List.mem_cons_of_mem x hy) other (List.mem_cons_of_mem item hother)

theorem Fits.append_self {same : α → α → Bool} (hself : ∀ x, same x x = true) (front : List α)
    {pattern items : List α} (h : Fits isStar same pattern items) :
    Fits isStar same (front ++ pattern) (front ++ items) := by
  induction front with
  | nil => exact h
  | cons x front ih =>
      cases hx : isStar x with
      | true =>
          have htaken : Fits isStar same (x :: (front ++ pattern)) ([x] ++ (front ++ items)) :=
            .star hx ih
          exact htaken
      | false => exact .one hx (hself x) ih

end FileSelection.Wildcard

namespace FileSelection.Segmented

open FileSelection.Text FileSelection.Wildcard

/-! ## Folded characters -/

/-- The folding of a character is longer than the character. -/
def Expands (c : Char) : Prop := 1 < (foldChar c).length

theorem foldChar_ne_nil (c : Char) : foldChar c ≠ [] := by
  unfold foldChar
  split
  · simp
  · cases hlookup : foldExpansions.lookup c.toNat with
    | none => simp
    | some codes =>
        have htable : ∀ entry ∈ foldExpansions, entry.2 ≠ [] := by decide +kernel
        simpa using htable _ (Keyed.mem_of_lookup hlookup)

theorem not_expands_iff {c : Char} : ¬ Expands c ↔ ∃ d, foldChar c = [d] := by
  rw [← List.length_eq_one_iff, Expands]
  have hpos := List.length_pos_iff.2 (foldChar_ne_nil c)
  omega

theorem caseFold_cons (c : Char) (text : List Char) :
    caseFold (c :: text) = foldChar c ++ caseFold text := rfl

/-! ## Folded segments -/

theorem sameChar_iff {token c : Char} : sameChar token c = true ↔ token = '?' ∨ token = c := by
  simp [sameChar]

/-- A `?` of the pattern may meet a character that expands. -/
def MayExpand (pattern text : List Char) : Prop := '?' ∈ pattern ∧ ∃ c ∈ text, Expands c

theorem MayExpand.mono {pattern text wider longer : List Char} (hpattern : pattern ⊆ wider)
    (htext : text ⊆ longer) (h : MayExpand pattern text) : MayExpand wider longer := by
  obtain ⟨hmark, c, hc, hexpands⟩ := h
  exact ⟨hpattern hmark, c, htext hc, hexpands⟩

theorem fits_caseFold {pattern segment : List Char}
    (h : Fits (· == '*') sameChar pattern segment) (hshort : ¬ MayExpand pattern segment) :
    Fits (· == '*') sameChar (caseFold pattern) (caseFold segment) := by
  induction h with
  | nil => exact .nil
  | @star x pattern taken items hx _ ih =>
      obtain rfl : x = '*' := by simpa using hx
      have hrest := ih
        (mt (.mono (List.subset_cons_self _ _) (List.subset_append_right _ _)) hshort)
      have hstar : foldChar '*' = ['*'] := rfl
      have hitems : caseFold (taken ++ items) = caseFold taken ++ caseFold items :=
        List.flatMap_append
      rw [caseFold_cons, hstar, hitems]
      exact .star hx hrest
  | @one x item pattern items hx hsame _ ih =>
      have hrest := ih (mt (.mono (List.subset_cons_self _ _) (List.subset_cons_self _ _)) hshort)
      rw [caseFold_cons, caseFold_cons]
      rcases sameChar_iff.1 hsame with rfl | rfl
      · have hitem : ¬ Expands item := fun hexpands =>
          hshort ⟨by simp, item, by simp, hexpands⟩
        obtain ⟨d, hd⟩ := not_expands_iff.1 hitem
        have hmark : foldChar '?' = ['?'] := rfl
        rw [hmark, hd]
        exact .one rfl rfl hrest
      · exact hrest.append_self (fun c => sameChar_iff.2 (.inr rfl)) (foldChar x)

theorem coversSegment_false_of_true {pattern segment : List Char}
    (h : coversSegment true pattern segment = true)
    (hshort : ¬ MayExpand pattern segment) :
    coversSegment false pattern segment = true := by
  rw [coversSegment_true_iff, matches_iff_fits] at h
  rw [coversSegment_false_iff, matches_iff_fits]
  exact fits_caseFold h hshort

theorem fits_mark_iff {segment : List Char} :
    Fits (· == '*') sameChar ['?'] segment ↔ ∃ c, segment = [c] := by
  rw [fits_one_iff (by decide)]
  constructor
  · rintro ⟨c, _, rfl, -, ⟨⟩⟩
    exact ⟨c, rfl⟩
  · rintro ⟨c, rfl⟩
    exact ⟨c, [], rfl, rfl, .nil⟩

theorem coversSegment_mark (c : Char) : coversSegment true ['?'] [c] = true ∧
    (coversSegment false ['?'] [c] = true ↔ ¬ Expands c) := by
  have hmark : caseFold ['?'] = ['?'] := rfl
  have hitem : caseFold [c] = foldChar c := List.append_nil _
  rw [coversSegment_true_iff, coversSegment_false_iff, matches_iff_fits, matches_iff_fits, hmark,
    hitem, fits_mark_iff, fits_mark_iff, not_expands_iff]
  exact ⟨⟨c, rfl⟩, Iff.rfl⟩

/-! ## Folded paths -/

theorem infix_of_mem_segments? {separator path segment : List Char} {segments : List (List Char)}
    (hsegments : segments? separator path = some segments) (h : segment ∈ segments) :
    segment <:+: path := by
  unfold segments? at hsegments
  split at hsegments
  · cases hsegments
  · obtain rfl := Option.some.inj hsegments
    have hne : separator ≠ [] := by simpa using ‹¬ separator.isEmpty = true›
    exact infix_of_mem_splitAt hne (List.mem_filter.1 h).1

theorem coversPath?_false_of_true {separator pattern path : List Char}
    (h : coversPath? separator true pattern path = some true)
    (hshort : ¬ MayExpand pattern path) :
    coversPath? separator false pattern path = some true := by
  rw [coversPath?_eq_true_iff] at h ⊢
  obtain ⟨hheads, patterns, parts, hpatterns, hparts, hmatches⟩ := h
  refine ⟨hheads, patterns, parts, hpatterns, hparts, ?_⟩
  rw [matches_iff_fits] at hmatches ⊢
  apply hmatches.imp
  intro segment hsegment part hpart hcovers
  have hwithin := (infix_of_mem_segments? hpatterns hsegment).subset
  have hinside := (infix_of_mem_segments? hparts hpart).subset
  exact coversSegment_false_of_true hcovers (mt (.mono hwithin hinside) hshort)

/-- Ignoring case loses a match only where a pattern has a `?` and the path a character whose
folding is longer, and it does lose every such character for a single `?`. -/
theorem ignoring_case_loses_only_expanding_characters [Ignore.Library]
    (separator pattern text : List Char) :
    (coversSegment true pattern text = true →
      coversSegment false pattern text = true ∨ MayExpand pattern text) ∧
    (coversPath? separator true pattern text = some true →
      coversPath? separator false pattern text = some true ∨ MayExpand pattern text) ∧
    (∀ patterns, ∃ sensitive relaxed,
      Matcher.ofPatterns? .segmented true patterns = .ok sensitive ∧
        Matcher.ofPatterns? .segmented false patterns = .ok relaxed ∧
          ∀ isDirectory path, sensitive.accepts isDirectory path = true →
            relaxed.accepts isDirectory path = true ∨
              ∃ pattern ∈ patterns, MayExpand pattern.toList path.toList) ∧
    ∀ c, coversSegment true ['?'] [c] = true ∧
      (coversSegment false ['?'] [c] = true ↔ ¬ Expands c) := by
  refine ⟨?_, ?_, ?_, coversSegment_mark⟩
  · intro h
    by_cases hshort : MayExpand pattern text
    · exact .inr hshort
    · exact .inl (coversSegment_false_of_true h hshort)
  · intro h
    by_cases hshort : MayExpand pattern text
    · exact .inr hshort
    · exact .inl (coversPath?_false_of_true h hshort)
  · intro patterns
    refine ⟨_, _, rfl, rfl, ?_⟩
    intro isDirectory path h
    simp only [Matcher.accepts, List.any_eq_true, beq_iff_eq] at h ⊢
    obtain ⟨pattern, hpattern, hcovers⟩ := h
    by_cases hshort : MayExpand pattern.toList path.toList
    · exact .inr ⟨pattern, hpattern, hshort⟩
    · exact .inl ⟨pattern, hpattern, coversPath?_false_of_true hcovers hshort⟩

theorem ignoring_case_keeps_match_of_letters :
    coversSegment true "?B".toList "aB".toList = true ∧
      (coversSegment false "?B".toList "aB".toList = true ∨
        MayExpand "?B".toList "aB".toList) ∧
      coversPath? ['/'] true "**/?B".toList "x/aB".toList = some true ∧
      (coversPath? ['/'] false "**/?B".toList "x/aB".toList = some true ∨
        MayExpand "**/?B".toList "x/aB".toList) ∧
      (Matcher.segmented ["**/?B"] true).accepts false "x/aB" = true ∧
      ∃ relaxed, Matcher.ofPatterns? .segmented false ["**/?B"] = .ok relaxed ∧
        (relaxed.accepts false "x/aB" = true ∨
          ∃ pattern ∈ ["**/?B"], MayExpand pattern.toList "x/aB".toList) := by
  have hsegment : coversSegment true "?B".toList "aB".toList = true := by decide +kernel
  have hpath : coversPath? ['/'] true "**/?B".toList "x/aB".toList = some true := by
    decide +kernel
  have haccepts : (Matcher.segmented ["**/?B"] true).accepts false "x/aB" = true := by
    simpa [Matcher.accepts] using hpath
  obtain ⟨hkept, -, hmatchers, -⟩ :=
    ignoring_case_loses_only_expanding_characters ['/'] "?B".toList "aB".toList
  obtain ⟨-, hpaths, -, -⟩ :=
    ignoring_case_loses_only_expanding_characters ['/'] "**/?B".toList "x/aB".toList
  obtain ⟨sensitive, relaxed, hsensitive, hrelaxed, hlost⟩ := hmatchers ["**/?B"]
  obtain rfl : Matcher.segmented ["**/?B"] true = sensitive := Except.ok.inj hsensitive
  exact ⟨hsegment, hkept hsegment, hpath, hpaths hpath, haccepts, relaxed, hrelaxed,
    hlost false "x/aB" haccepts⟩

theorem ignoring_case_loses_sharp_s :
    coversPath? ['/'] true "?".toList "ß".toList = some true ∧
      coversPath? ['/'] false "?".toList "ß".toList = some false := by
  decide +kernel

end FileSelection.Segmented
