import FileSelection.Proofs.Glob.Meaning
import FileSelection.Proofs.Segmented.Stars
import FileSelection.Proofs.Text.Segments

/-!
# Patterns of whole segments

A pattern whose segments are `**` or free of `**` covers a path segment by segment.
-/

namespace FileSelection.Glob

open FileSelection.Text FileSelection.Wildcard

structure IsPlainSegment (segment : List Char) : Prop where
  nonempty : segment ≠ []
  noSlash : '/' ∉ segment
  noDeep : ¬ "**".toList <:+: segment

/-! ## Endings of patterns of segments -/

section

variable (front : List (List Char)) {last : List Char}

theorem not_slash_suffix_joined (hne : last ≠ []) (hslash : '/' ∉ last) :
    ¬ ['/'] <:+ joined (front ++ [last]) := by
  intro h
  have hlast : last <:+ joined (front ++ [last]) := by
    cases front with
    | nil => simp
    | cons segment front =>
        rw [joined_append (by simp) (by simp), joined_singleton]
        exact (List.suffix_cons '/' last).trans (List.suffix_append _ _)
  have hend := List.suffix_of_suffix_length_le h hlast (List.length_pos_iff.2 hne)
  exact hslash (hend.subset (by simp))

theorem not_deep_suffix_joined (h : IsPlainSegment last) :
    ¬ "**".toList <:+ joined (front ++ [last]) := fun hsuffix =>
  h.noDeep (suffix_last_of_suffix_joined (by decide) hsuffix).isInfix

theorem isEverything_joined_plain (h : IsPlainSegment last) :
    isEverything (joined (front ++ [last])) = false := by
  have hslash := not_slash_suffix_joined front h.nonempty h.noSlash
  have hdeep := not_deep_suffix_joined front h
  simp only [isEverything, Bool.or_eq_false_iff, beq_eq_false_iff_ne]
  exact ⟨fun heq => hdeep (heq ▸ List.suffix_rfl), fun heq => hslash (heq ▸ by decide)⟩

theorem isEverything_joined_deep {front : List (List Char)} (h : front ≠ []) :
    isEverything (joined (front ++ ["**".toList])) = false := by
  have hslash : ¬ ['/'] <:+ joined (front ++ ["**".toList]) :=
    not_slash_suffix_joined front (by decide) (by decide)
  simp only [isEverything, Bool.or_eq_false_iff, beq_eq_false_iff_ne]
  refine ⟨fun heq => ?_, fun heq => hslash (heq ▸ by decide)⟩
  have hmem : '/' ∈ joined (front ++ ["**".toList]) := by
    rw [joined_append h (by simp)]
    simp
  rw [heq] at hmem
  exact absurd hmem (by decide)

theorem splitEnding_joined_plain (h : IsPlainSegment last) :
    splitEnding (joined (front ++ [last])) = (joined (front ++ [last]), .exact) := by
  have hslash := not_slash_suffix_joined front h.nonempty h.noSlash
  have hdeep := not_deep_suffix_joined front h
  rw [splitEnding_eq_stripFirst, ← strips_iff]
  refine .later (fun hsuffix => hslash ?_) (.later (fun hsuffix => hdeep ?_)
    (.later hslash (.later hdeep .none)))
  · exact .trans (by decide) hsuffix
  · exact .trans (by decide) hsuffix

theorem splitEnding_joined_deep {front : List (List Char)} (h : front ≠ []) :
    splitEnding (joined (front ++ ["**".toList])) = (joined front, .subtree) := by
  have hslash : ¬ ['/'] <:+ joined (front ++ ["**".toList]) :=
    not_slash_suffix_joined front (by decide) (by decide)
  rw [splitEnding_eq_stripFirst, ← strips_iff]
  rw [joined_append h (by simp), joined_singleton] at hslash ⊢
  exact .later (fun hsuffix => hslash (.trans (by decide) hsuffix)) .here

end

/-! ## Runs of patterns of segments -/

section

variable {same : Char → Char → Prop} {separator : Char} {word : List Char}

theorem runsCover_consPart_iff {c : Char} {runs : List (List Char)} (hruns : runs ≠ []) :
    RunsCover same separator (consPart c runs) word ↔
      ∃ front back, word = front ++ back ∧ TokenCovers same separator c front ∧
        RunsCover same separator runs back := by
  cases runs with
  | nil => exact absurd rfl hruns
  | cons run runs =>
      cases runs with
      | nil => simp only [consPart, runsCover_singleton_iff, runCovers_cons_iff]
      | cons next runs =>
          simp only [consPart, runsCover_cons_cons_iff, runCovers_cons_iff]
          constructor
          · rintro ⟨_, back, rfl, ⟨front, middle, rfl, htoken, hrun⟩, hrest⟩
            exact ⟨front, middle ++ back, by simp, htoken, middle, back, rfl, hrun, hrest⟩
          · rintro ⟨front, _, rfl, htoken, middle, back, rfl, hrun, hrest⟩
            exact ⟨front ++ middle, back, by simp, ⟨front, middle, rfl, htoken, hrun⟩, hrest⟩

theorem runsCover_splitAt_append {run text : List Char}
    (hrun : ∀ tail, tail <:+ run → tail ≠ [] → ¬ "**/".toList <+: tail ++ text) :
    RunsCover same separator (splitAt "**/".toList (run ++ text)) word ↔
      ∃ front back, word = front ++ back ∧ RunCovers same separator run front ∧
        RunsCover same separator (splitAt "**/".toList text) back := by
  induction run generalizing word with
  | nil =>
      constructor
      · exact fun h => ⟨[], word, rfl, .nil, h⟩
      · rintro ⟨_, back, rfl, ⟨⟩, h⟩
        exact h
  | cons c run ih =>
      have hlater : ∀ tail, tail <:+ run → tail ≠ [] → ¬ "**/".toList <+: tail ++ text :=
        fun tail htail => hrun tail (htail.trans (List.suffix_cons c run))
      have hnow : ¬ "**/".toList <+: c :: (run ++ text) :=
        hrun (c :: run) List.suffix_rfl (by simp)
      rw [List.cons_append, splitAt_cons hnow, runsCover_consPart_iff (splitAt_ne_nil _ _)]
      constructor
      · rintro ⟨front, back, rfl, htoken, hback⟩
        obtain ⟨middle, back, rfl, hmiddle, hback⟩ := (ih hlater).1 hback
        exact ⟨front ++ middle, back, by simp, .cons htoken hmiddle, hback⟩
      · rintro ⟨_, back, rfl, hfront, hback⟩
        obtain ⟨front, middle, rfl, htoken, hmiddle⟩ := runCovers_cons_iff.1 hfront
        exact ⟨front, middle ++ back, by simp, htoken, (ih hlater).2 ⟨_, _, rfl, hmiddle, hback⟩⟩

theorem runsCover_segment_iff {segment text : List Char} (h : IsPlainSegment segment) :
    RunsCover same separator (splitAt "**/".toList (segment ++ '/' :: text)) word ↔
      ∃ front c back, word = front ++ c :: back ∧ RunCovers same separator segment front ∧
        same separator c ∧ RunsCover same separator (splitAt "**/".toList text) back := by
  have hrun : ∀ tail, tail <:+ segment → tail ≠ [] →
      ¬ "**/".toList <+: tail ++ '/' :: text := by
    intro tail htail hne hmark
    match tail with
    | [] => exact hne rfl
    | [c] => simp at hmark
    | c :: d :: tail =>
        obtain ⟨rfl, rfl, -⟩ : '*' = c ∧ '*' = d ∧ _ := by simpa using hmark
        exact h.noDeep (.trans ⟨[], tail, by simp⟩ htail.isInfix)
  have hslash : ¬ "**/".toList <+: '/' :: text := by simp
  rw [runsCover_splitAt_append hrun, splitAt_cons hslash]
  simp only [runsCover_consPart_iff (splitAt_ne_nil _ _)]
  constructor
  · rintro ⟨front, _, rfl, hfront, _, back, rfl, ⟨c, rfl, hc⟩, hback⟩
    exact ⟨front, c, back, rfl, hfront, hc, hback⟩
  · rintro ⟨front, c, back, rfl, hfront, hc, hback⟩
    exact ⟨front, c :: back, rfl, hfront, [c], back, rfl, ⟨c, rfl, hc⟩, hback⟩

theorem runsCover_deep_iff {text : List Char} :
    RunsCover same separator (splitAt "**/".toList ("**".toList ++ '/' :: text)) word ↔
      ∃ deep back, word = deep ++ back ∧ DeepCovers same separator deep ∧
        RunsCover same separator (splitAt "**/".toList text) back := by
  have hsplit : splitAt "**/".toList ("**".toList ++ '/' :: text) =
      [] :: splitAt "**/".toList text :=
    splitAt_mark_append (by decide) text
  rw [hsplit]
  cases hruns : splitAt "**/".toList text with
  | nil => exact absurd hruns (splitAt_ne_nil _ _)
  | cons next runs =>
      rw [runsCover_cons_cons_iff]
      constructor
      · rintro ⟨_, _, rfl, ⟨⟩, deep, back, rfl, hdeep, hback⟩
        exact ⟨deep, back, rfl, hdeep, hback⟩
      · rintro ⟨deep, back, rfl, hdeep, hback⟩
        exact ⟨[], _, rfl, .nil, deep, back, rfl, hdeep, hback⟩

theorem splitAt_segment {segment : List Char} (h : '/' ∉ segment) :
    splitAt "**/".toList segment = [segment] :=
  splitAt_of_unmarked fun hwithin => h (hwithin.subset (by decide))

end

end FileSelection.Glob
