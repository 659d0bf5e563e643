import FileSelection.Ignore.Standard
import FileSelection.Proofs.Glob.Slashes
import Mathlib.Data.List.Basic

/-!
# Agreement of globs and segment patterns

Where the segments of a pattern are `**` or free of `**`, and no `?` stands for a separator, both
syntaxes accept the same paths.
-/

namespace FileSelection.Segmented

open FileSelection.Glob FileSelection.Text FileSelection.Regex FileSelection.Wildcard

/-! ## Characters -/

/-- The characters for which both notions of equality up to case are the same. -/
def Comparable (caseSensitive : Bool) (c : Char) : Prop :=
  caseSensitive = true ∨ c.toNat < 128

def foldedChar (caseSensitive : Bool) (c : Char) : Char :=
  if caseSensitive then c else Alphabet.unicode.lowerChar c

section

variable {caseSensitive : Bool} {token c : Char}

theorem standsFor_iff_folded (htoken : Comparable caseSensitive token)
    (hc : Comparable caseSensitive c) :
    StandsFor (mode caseSensitive) token c ↔
      foldedChar caseSensitive token = foldedChar caseSensitive c := by
  cases caseSensitive with
  | true => exact standsFor_iff_eq rfl
  | false =>
      have htoken : token.toNat < 128 := by simpa [Comparable] using htoken
      have hc : c.toNat < 128 := by simpa [Comparable] using hc
      exact CharSet.has_ofChar_ascii htoken hc

theorem foldedChar_eq_iff (hc : Comparable caseSensitive c) {mark : Char}
    (hmark : mark ∈ marks) : foldedChar caseSensitive c = mark ↔ c = mark := by
  cases caseSensitive with
  | true => rfl
  | false =>
      have hc : c.toNat < 128 := by simpa [Comparable] using hc
      have hcode := toNat_lt_of_mem_marks hmark
      have hlower := toNat_lowerChar hc
      show Alphabet.unicode.lowerChar c = mark ↔ c = mark
      rw [← Char.toNat_inj, ← Char.toNat_inj, hlower]
      split <;> omega

end

/-! ## Segments -/

structure IsPatternSegment (caseSensitive : Bool) (segment : List Char) : Prop
    extends IsPlainSegment segment where
  comparable : ∀ token ∈ segment, Comparable caseSensitive token
  noMark : '?' ∉ segment

structure IsPathSegment (caseSensitive : Bool) (segment : List Char) : Prop where
  nonempty : segment ≠ []
  noSlash : '/' ∉ segment
  comparable : ∀ c ∈ segment, Comparable caseSensitive c

section

variable {caseSensitive : Bool}

theorem runCovers_iff_fits {run word : List Char}
    (hrun : ∀ token ∈ run, Comparable caseSensitive token ∧ token ≠ '?' ∧ token ≠ '/')
    (hword : ∀ c ∈ word, Comparable caseSensitive c ∧ c ≠ '/') :
    RunCovers (StandsFor (mode caseSensitive)) '/' run word ↔
      Fits (· == '*') sameChar (run.map (foldedChar caseSensitive))
        (word.map (foldedChar caseSensitive)) := by
  induction run generalizing word with
  | nil =>
      rw [List.map_nil, fits_nil_iff, List.map_eq_nil_iff]
      constructor
      · rintro ⟨⟩
        rfl
      · rintro rfl
        exact .nil
  | cons token run ih =>
      obtain ⟨hcomparable, hmark, hslash⟩ := hrun token (by simp)
      have hlater := fun t ht => hrun t (List.mem_cons_of_mem token ht)
      rw [runCovers_cons_iff, List.map_cons]
      by_cases hstar : token = '*'
      · subst hstar
        have hfolded := (foldedChar_eq_iff hcomparable (by decide)).2 rfl
        rw [fits_star_iff (by simp [hfolded])]
        constructor
        · rintro ⟨front, back, rfl, -, hback⟩
          have hfits := (ih hlater fun c hc => hword c (List.mem_append_right _ hc)).1 hback
          exact ⟨_, by simp, hfits⟩
        · rintro ⟨rest, ⟨taken, htaken⟩, hfits⟩
          obtain ⟨front, back, rfl, rfl, rfl⟩ := List.map_eq_append_iff.1 htaken.symm
          refine ⟨front, back, rfl, fun c hc => ?_,
            (ih hlater fun c hc => hword c (List.mem_append_right _ hc)).2 hfits⟩
          obtain ⟨hknown, hne⟩ := hword c (List.mem_append_left _ hc)
          rw [standsFor_slash_iff_eq]
          exact hne
      · have hstar' : foldedChar caseSensitive token ≠ '*' :=
          fun h => hstar ((foldedChar_eq_iff hcomparable (by decide)).1 h)
        have hmark' : foldedChar caseSensitive token ≠ '?' :=
          fun h => hmark ((foldedChar_eq_iff hcomparable (by decide)).1 h)
        rw [fits_one_iff (by simpa using hstar')]
        constructor
        · rintro ⟨front, back, rfl, htoken, hback⟩
          obtain ⟨c, rfl, hc⟩ : ∃ c, front = [c] ∧ StandsFor (mode caseSensitive) token c := by
            simpa [TokenCovers] using htoken
          obtain ⟨hknown, -⟩ := hword c (by simp)
          have hrest := (ih hlater fun d hd => hword d (List.mem_append_right _ hd)).1 hback
          refine ⟨_, _, rfl, ?_, hrest⟩
          simp [sameChar, (standsFor_iff_folded hcomparable hknown).1 hc]
        · rintro ⟨item, rest, hitems, hsame, hfits⟩
          obtain ⟨c, back, rfl, rfl, rfl⟩ := List.map_eq_cons_iff.1 hitems
          obtain ⟨hknown, -⟩ := hword c (by simp)
          have hc : StandsFor (mode caseSensitive) token c :=
            (standsFor_iff_folded hcomparable hknown).2 (by simpa [sameChar, hmark'] using hsame)
          have hrest := (ih hlater fun d hd => hword d (List.mem_cons_of_mem _ hd)).2 hfits
          refine ⟨[c], back, rfl, ?_, hrest⟩
          simpa [TokenCovers] using hc

theorem coversSegment_eq {segment part : List Char}
    (hsegment : ∀ token ∈ segment, Comparable caseSensitive token)
    (hpart : ∀ c ∈ part, Comparable caseSensitive c) :
    coversSegment caseSensitive segment part =
      covers (· == '*') sameChar (segment.map (foldedChar caseSensitive))
        (part.map (foldedChar caseSensitive)) := by
  cases caseSensitive with
  | true =>
      have hfold : foldedChar true = id := rfl
      simp [coversSegment, hfold]
  | false =>
      have hfold : foldedChar false = Alphabet.unicode.lowerChar := rfl
      simp only [Comparable, Bool.false_eq_true, false_or] at hsegment hpart
      simp [coversSegment, hfold, caseFold_ascii hsegment, caseFold_ascii hpart]

theorem IsPatternSegment.tokens {segment : List Char} (h : IsPatternSegment caseSensitive segment) :
    ∀ token ∈ segment, Comparable caseSensitive token ∧ token ≠ '?' ∧ token ≠ '/' := by
  intro token htoken
  have hmark : token ≠ '?' := fun heq => h.noMark (heq ▸ htoken)
  have hslash : token ≠ '/' := fun heq => h.noSlash (heq ▸ htoken)
  exact ⟨h.comparable token htoken, hmark, hslash⟩

theorem IsPatternSegment.slash_not_mem {segment word : List Char}
    (h : IsPatternSegment caseSensitive segment)
    (hword : RunCovers (StandsFor (mode caseSensitive)) '/' segment word) : '/' ∉ word :=
  slash_not_mem_of_runCovers (keepsSlash_standsFor caseSensitive) h.noMark h.noSlash hword

theorem IsPatternSegment.isDeep_eq_false {segment : List Char}
    (h : IsPatternSegment caseSensitive segment) : isDeep segment = false := by
  rw [isDeep, beq_eq_false_iff_ne]
  rintro rfl
  exact h.noDeep List.infix_rfl

theorem coversSegment_iff {segment part : List Char}
    (hsegment : IsPatternSegment caseSensitive segment) (hpart : IsPathSegment caseSensitive part) :
    coversSegment caseSensitive segment part = true ↔
      RunCovers (StandsFor (mode caseSensitive)) '/' segment part := by
  have hword : ∀ c ∈ part, Comparable caseSensitive c ∧ c ≠ '/' := fun c hc =>
    ⟨hpart.comparable c hc, fun heq => hpart.noSlash (heq ▸ hc)⟩
  rw [coversSegment_eq hsegment.comparable hpart.comparable, covers_iff]
  exact (runCovers_iff_fits hsegment.tokens hword).symm

/-! ## Sequences of segments -/

variable {front parts : List (List Char)} {last : List Char}

theorem runsCover_deep_joined_iff {text : List Char}
    (hparts : ∀ part ∈ parts, IsPathSegment caseSensitive part) (hne : parts ≠ []) :
    RunsCover (StandsFor (mode caseSensitive)) '/' (splitAt "**/".toList ("**".toList ++ '/' :: text))
        (joined parts) ↔
      ∃ rest, rest <:+ parts ∧ rest ≠ [] ∧
        RunsCover (StandsFor (mode caseSensitive)) '/' (splitAt "**/".toList text)
          (joined rest) := by
  have hslash : ∀ {part}, part ∈ parts → '/' ∉ part := fun hpart => (hparts _ hpart).noSlash
  rw [runsCover_deep_iff]
  constructor
  · rintro ⟨deep, back, hword, rfl | ⟨word, c, rfl, hc⟩, hback⟩
    · rw [List.nil_append] at hword
      rw [← hword] at hback
      exact ⟨parts, List.suffix_rfl, hne, hback⟩
    · obtain rfl := (standsFor_slash_iff_eq caseSensitive c).1 hc
      obtain ⟨before, after, -, hafter, rfl, -, rfl⟩ :=
        (joined_eq_append_slash_iff fun _ => hslash).1 (by simpa using hword)
      exact ⟨after, List.suffix_append _ _, hafter, hback⟩
  · rintro ⟨rest, ⟨taken, rfl⟩, hrest, hback⟩
    cases taken with
    | nil => exact ⟨[], joined rest, rfl, .inl rfl, hback⟩
    | cons part taken =>
        have hword : joined (part :: taken ++ rest) =
            joined (part :: taken) ++ ['/'] ++ joined rest := by
          rw [joined_append (by simp) hrest]
          simp
        exact ⟨joined (part :: taken) ++ ['/'], joined rest, hword,
          .inr ⟨_, '/', rfl, standsFor_self caseSensitive '/'⟩, hback⟩

theorem runsCover_segment_joined_iff {segment text : List Char}
    (hsegment : IsPatternSegment caseSensitive segment)
    (hparts : ∀ part ∈ parts, IsPathSegment caseSensitive part) :
    RunsCover (StandsFor (mode caseSensitive)) '/' (splitAt "**/".toList (segment ++ '/' :: text))
        (joined parts) ↔
      ∃ part rest, parts = part :: rest ∧ rest ≠ [] ∧
        coversSegment caseSensitive segment part = true ∧
        RunsCover (StandsFor (mode caseSensitive)) '/' (splitAt "**/".toList text)
          (joined rest) := by
  have hslash : ∀ {part}, part ∈ parts → '/' ∉ part := fun hpart => (hparts _ hpart).noSlash
  rw [runsCover_segment_iff hsegment.toIsPlainSegment]
  constructor
  · rintro ⟨word, c, back, hword, hrun, hc, hback⟩
    obtain rfl := (standsFor_slash_iff_eq caseSensitive c).1 hc
    obtain ⟨before, after, hbefore, hafter, rfl, rfl, rfl⟩ :=
      (joined_eq_append_slash_iff fun _ => hslash).1 hword
    rw [eq_singleton_of_slash_not_mem hbefore (hsegment.slash_not_mem hrun)] at hparts ⊢
    have hcovers := (coversSegment_iff hsegment (hparts _ (by simp))).2 hrun
    exact ⟨joined before, after, rfl, hafter, hcovers, hback⟩
  · rintro ⟨part, rest, rfl, hrest, hcovers, hback⟩
    have hrun := (coversSegment_iff hsegment (hparts part (by simp))).1 hcovers
    exact ⟨part, '/', joined rest, joined_cons part hrest, hrun, standsFor_self caseSensitive '/', hback⟩

theorem runsCover_last_iff (hlast : IsPatternSegment caseSensitive last)
    (hparts : ∀ part ∈ parts, IsPathSegment caseSensitive part) (hne : parts ≠ []) :
    RunsCover (StandsFor (mode caseSensitive)) '/' (splitAt "**/".toList last) (joined parts) ↔
      ∃ part, parts = [part] ∧ coversSegment caseSensitive last part = true := by
  rw [splitAt_segment hlast.noSlash, runsCover_singleton_iff]
  constructor
  · intro hrun
    have hsingle := eq_singleton_of_slash_not_mem hne (hlast.slash_not_mem hrun)
    have hpath : IsPathSegment caseSensitive (joined parts) := hparts _ (by rw [hsingle]; simp)
    exact ⟨_, hsingle, (coversSegment_iff hlast hpath).2 hrun⟩
  · rintro ⟨part, rfl, hcovers⟩
    rw [joined_singleton]
    exact (coversSegment_iff hlast (hparts part (by simp))).1 hcovers

theorem ne_nil_of_fits (hlast : IsPatternSegment caseSensitive last)
    (hfits : Fits isDeep (coversSegment caseSensitive) (front ++ [last]) parts) : parts ≠ [] := by
  rintro rfl
  have hstar := hfits.isStar_of_nil (x := last) (by simp)
  rw [hlast.isDeep_eq_false] at hstar
  cases hstar

theorem runsCover_joined_iff
    (hfront : ∀ segment ∈ front, segment = "**".toList ∨ IsPatternSegment caseSensitive segment)
    (hlast : IsPatternSegment caseSensitive last)
    (hparts : ∀ part ∈ parts, IsPathSegment caseSensitive part) (hne : parts ≠ []) :
    RunsCover (StandsFor (mode caseSensitive)) '/'
        (splitAt "**/".toList (joined (front ++ [last]))) (joined parts) ↔
      Fits isDeep (coversSegment caseSensitive) (front ++ [last]) parts := by
  induction front generalizing parts with
  | nil =>
      rw [List.nil_append, joined_singleton, runsCover_last_iff hlast hparts hne,
        fits_one_iff hlast.isDeep_eq_false]
      constructor
      · rintro ⟨part, rfl, hcovers⟩
        exact ⟨part, [], rfl, hcovers, .nil⟩
      · rintro ⟨part, _, rfl, hcovers, ⟨⟩⟩
        exact ⟨part, rfl, hcovers⟩
  | cons segment front ih =>
      have hlater := fun s hs => hfront s (List.mem_cons_of_mem segment hs)
      rw [List.cons_append, joined_cons segment (by simp)]
      obtain rfl | hsegment := hfront segment (by simp)
      · rw [runsCover_deep_joined_iff hparts hne, fits_star_iff (by rfl)]
        constructor
        · rintro ⟨rest, hsuffix, hne, hback⟩
          have hothers := fun part hpart => hparts part (hsuffix.subset hpart)
          exact ⟨rest, hsuffix, (ih hlater hothers hne).1 hback⟩
        · rintro ⟨rest, hsuffix, hfits⟩
          have hothers := fun part hpart => hparts part (hsuffix.subset hpart)
          have hne := ne_nil_of_fits hlast hfits
          exact ⟨rest, hsuffix, hne, (ih hlater hothers hne).2 hfits⟩
      · rw [runsCover_segment_joined_iff hsegment hparts, fits_one_iff hsegment.isDeep_eq_false]
        constructor
        · rintro ⟨part, rest, rfl, hne, hcovers, hback⟩
          have hothers := fun p hp => hparts p (List.mem_cons_of_mem part hp)
          exact ⟨part, rest, rfl, hcovers, (ih hlater hothers hne).1 hback⟩
        · rintro ⟨part, rest, rfl, hcovers, hfits⟩
          have hothers := fun p hp => hparts p (List.mem_cons_of_mem part hp)
          have hne := ne_nil_of_fits hlast hfits
          exact ⟨part, rest, rfl, hne, hcovers, (ih hlater hothers hne).2 hfits⟩

theorem covers_plain_iff
    (hfront : ∀ segment ∈ front, segment = "**".toList ∨ IsPatternSegment caseSensitive segment)
    (hlast : IsPatternSegment caseSensitive last)
    (hparts : ∀ part ∈ parts, IsPathSegment caseSensitive part) (hne : parts ≠ []) :
    Covers (StandsFor (mode caseSensitive)) '/' (joined (front ++ [last])) (joined parts) ↔
      Fits isDeep (coversSegment caseSensitive) (front ++ [last]) parts := by
  rw [← runsCover_joined_iff hfront hlast hparts hne,
    covers_iff_of_ne (isEverything_joined_plain front hlast.toIsPlainSegment)
      (splitEnding_joined_plain front hlast.toIsPlainSegment)]
  constructor
  · rintro ⟨word, _, hpath, hword, rfl⟩
    rwa [hpath, List.append_nil]
  · exact fun h => ⟨_, [], by simp, h, rfl⟩

theorem covers_subtree_iff
    (hfront : ∀ segment ∈ front, segment = "**".toList ∨ IsPatternSegment caseSensitive segment)
    (hlast : IsPatternSegment caseSensitive last)
    (hparts : ∀ part ∈ parts, IsPathSegment caseSensitive part) (hne : parts ≠ []) :
    Covers (StandsFor (mode caseSensitive)) '/' (joined (front ++ [last] ++ ["**".toList]))
        (joined parts) ↔
      Fits isDeep (coversSegment caseSensitive) (front ++ [last] ++ ["**".toList]) parts := by
  rw [covers_iff_of_ne (isEverything_joined_deep (by simp)) (splitEnding_joined_deep (by simp)),
    fits_append_star_iff (by rfl)]
  constructor
  · rintro ⟨word, _, hpath, hword, rfl | ⟨c, rest, rfl, hc⟩⟩
    · rw [List.append_nil] at hpath
      rw [← hpath] at hword
      exact ⟨parts, List.prefix_rfl, (runsCover_joined_iff hfront hlast hparts hne).1 hword⟩
    · obtain rfl := (standsFor_slash_iff_eq caseSensitive c).1 hc
      obtain ⟨before, after, hbefore, -, rfl, rfl, -⟩ :=
        (joined_eq_append_slash_iff fun part hpart => (hparts part hpart).noSlash).1 hpath
      have hparts := fun part hpart => hparts part (List.mem_append_left after hpart)
      exact ⟨before, List.prefix_append _ _,
        (runsCover_joined_iff hfront hlast hparts hbefore).1 hword⟩
  · rintro ⟨taken, ⟨rest, rfl⟩, hfits⟩
    have htaken := ne_nil_of_fits hlast hfits
    have hparts := fun part hpart => hparts part (List.mem_append_left rest hpart)
    have hword := (runsCover_joined_iff hfront hlast hparts htaken).2 hfits
    by_cases hrest : rest = []
    · subst hrest
      exact ⟨joined taken, [], by simp, hword, .inl rfl⟩
    · exact ⟨joined taken, '/' :: joined rest, joined_append htaken hrest, hword,
        .inr ⟨'/', _, rfl, standsFor_self caseSensitive '/'⟩⟩

theorem covers_deep_deep (hparts : ∀ part ∈ parts, IsPathSegment caseSensitive part)
    (hne : parts ≠ []) :
    Covers (StandsFor (mode caseSensitive)) '/' (joined (["**".toList] ++ ["**".toList]))
      (joined parts) := by
  rw [covers_iff_of_ne (isEverything_joined_deep (by simp)) (splitEnding_joined_deep (by simp)),
    joined_singleton, splitAt_segment (by decide)]
  cases parts with
  | nil => exact absurd rfl hne
  | cons part rest =>
      have hword : TokenCovers (StandsFor (mode caseSensitive)) '/' '*' part := by
        intro c hc
        have hpart := hparts part (by simp)
        rw [standsFor_slash_iff_eq]
        rintro rfl
        exact hpart.noSlash hc
      have hrun : RunCovers (StandsFor (mode caseSensitive)) '/' "**".toList part := by
        have hnone : TokenCovers (StandsFor (mode caseSensitive)) '/' '*' [] := by
          intro c hc
          cases hc
        simpa using RunCovers.cons hword (.cons hnone .nil)
      cases rest with
      | nil => exact ⟨part, [], by simp, .last hrun, .inl rfl⟩
      | cons next rest =>
          exact ⟨part, '/' :: joined (next :: rest), joined_cons part (by simp), .last hrun,
            .inr ⟨'/', _, rfl, standsFor_self caseSensitive '/'⟩⟩

end

/-! ## Matchers -/

/-- The patterns that both syntaxes read alike: no segment is empty, `**` only occurs as a segment,
and no two of them end the pattern after other segments. -/
structure IsShared (pattern : List Char) : Prop where
  nonempty : ∀ segment ∈ splitAt ['/'] pattern, segment ≠ []
  deep : ∀ segment ∈ splitAt ['/'] pattern, segment = "**".toList ∨ ¬ "**".toList <:+: segment
  noMark : '?' ∉ pattern
  ending : ¬ "/**/**".toList <:+ pattern

theorem IsShared.segment {caseSensitive : Bool} {pattern segment : List Char} (h : IsShared pattern)
    (hcase : ∀ c ∈ pattern, Comparable caseSensitive c)
    (hsegment : segment ∈ splitAt ['/'] pattern) :
    segment = "**".toList ∨ IsPatternSegment caseSensitive segment := by
  have hmem : ∀ c ∈ segment, c ∈ pattern := fun c hc =>
    joined_splitAt pattern ▸ mem_joined hsegment hc
  refine (h.deep segment hsegment).imp_right fun hdeep => ?_
  exact {
    nonempty := h.nonempty segment hsegment
    noSlash := slash_not_mem_of_mem_splitAt hsegment
    noDeep := hdeep
    comparable := fun c hc => hcase c (hmem c hc)
    noMark := fun hmark => h.noMark (hmem '?' hmark) }

theorem covers_iff_fits {caseSensitive : Bool} {pattern path : List Char} (h : IsShared pattern)
    (hpath : ∀ segment ∈ splitAt ['/'] path, segment ≠ [])
    (hpatternCase : ∀ c ∈ pattern, Comparable caseSensitive c)
    (hpathCase : ∀ c ∈ path, Comparable caseSensitive c) :
    Covers (StandsFor (mode caseSensitive)) '/' pattern path ↔
      Fits isDeep (coversSegment caseSensitive) (splitAt ['/'] pattern) (splitAt ['/'] path) := by
  have hparts : ∀ part ∈ splitAt ['/'] path, IsPathSegment caseSensitive part := fun part hpart => {
    nonempty := hpath part hpart
    noSlash := slash_not_mem_of_mem_splitAt hpart
    comparable := fun c hc => hpathCase c (joined_splitAt path ▸ mem_joined hpart hc) }
  have hsegments : ∀ segment ∈ splitAt ['/'] pattern,
      segment = "**".toList ∨ IsPatternSegment caseSensitive segment :=
    fun segment => h.segment hpatternCase
  have hending := h.ending
  have hne := splitAt_ne_nil ['/'] path
  rw [← joined_splitAt pattern] at hending
  conv => lhs; rw [← joined_splitAt pattern, ← joined_splitAt path]
  generalize splitAt ['/'] path = parts at hparts hne
  obtain hnil | ⟨front, last, heq⟩ := List.eq_nil_or_concat' (splitAt ['/'] pattern)
  · exact absurd hnil (splitAt_ne_nil _ _)
  rw [heq] at hsegments hending ⊢
  have hfront := fun segment hsegment => hsegments segment (List.mem_append_left [last] hsegment)
  obtain rfl | hlast := hsegments last (by simp)
  · obtain rfl | ⟨init, middle, rfl⟩ := List.eq_nil_or_concat' front
    · have hfits : Fits isDeep (coversSegment caseSensitive) ([] ++ ["**".toList]) parts :=
        (fits_append_star_iff (by rfl)).2 ⟨[], List.nil_prefix, .nil⟩
      exact iff_of_true (.inl rfl) hfits
    · obtain rfl | hmiddle := hfront middle (by simp)
      · obtain rfl : init = [] := by
          cases init with
          | nil => rfl
          | cons first init =>
              refine absurd ⟨joined (first :: init), ?_⟩ hending
              rw [List.append_assoc, joined_append (by simp) (by simp)]
              rfl
        have hfits : Fits isDeep (coversSegment caseSensitive)
            ([] ++ ["**".toList] ++ ["**".toList]) parts :=
          (fits_append_star_iff (by rfl)).2 ⟨[], List.nil_prefix,
            (fits_append_star_iff (by rfl)).2 ⟨[], List.nil_prefix, .nil⟩⟩
        exact iff_of_true (covers_deep_deep hparts hne) hfits
      · have hinit := fun segment hsegment =>
          hfront segment (List.mem_append_left [middle] hsegment)
        exact covers_subtree_iff hinit hmiddle hparts hne
  · exact covers_plain_iff hfront hlast hparts hne

theorem isPrefixOf_slash_eq_false {text : List Char}
    (h : ∀ segment ∈ splitAt ['/'] text, segment ≠ []) : ['/'].isPrefixOf text = false := by
  rw [Bool.eq_false_iff, ne_eq, List.isPrefixOf_iff_prefix]
  rintro ⟨rest, rfl⟩
  rw [splitAt_mark_append (by simp)] at h
  exact h [] (by simp) rfl

theorem segments?_eq_splitAt {text : List Char} (h : ∀ segment ∈ splitAt ['/'] text, segment ≠ []) :
    segments? ['/'] text = some (splitAt ['/'] text) := by
  have hfilter : (splitAt ['/'] text).filter (fun segment => !segment.isEmpty) =
      splitAt ['/'] text := by
    rw [List.filter_eq_self]
    intro segment hsegment
    simpa using h segment hsegment
  simp [segments?, hfilter]

/-- On a shared pattern the two matchers answer alike. -/
theorem glob_and_segmented_accept_alike [Ignore.Library] (pattern : String) (caseSensitive : Bool)
    (h : IsShared pattern.toList)
    (hpatternCase : caseSensitive = true ∨ ∀ c ∈ pattern.toList, c.toNat < 128) :
    ∃ glob segmented, Matcher.ofPatterns? .glob caseSensitive [pattern] = .ok glob ∧
      Matcher.ofPatterns? .segmented caseSensitive [pattern] = .ok segmented ∧
        ∀ isDirectory path, (∀ segment ∈ splitAt ['/'] path.toList, segment ≠ []) →
          (caseSensitive = true ∨ ∀ c ∈ path.toList, c.toNat < 128) →
            glob.accepts isDirectory path = segmented.accepts isDirectory path := by
  obtain ⟨glob, hglob, haccepts⟩ := ofGlobs?_singleton pattern '/' caseSensitive
  refine ⟨glob, .segmented [pattern] caseSensitive, hglob, rfl, ?_⟩
  intro isDirectory path hpath hpathCase
  have hpatternComparable : ∀ c ∈ pattern.toList, Comparable caseSensitive c := fun c hc =>
    hpatternCase.imp_right fun hall => hall c hc
  have hpathComparable : ∀ c ∈ path.toList, Comparable caseSensitive c := fun c hc =>
    hpathCase.imp_right fun hall => hall c hc
  have hcovers : coversPath? ['/'] caseSensitive pattern.toList path.toList =
      some (covers isDeep (coversSegment caseSensitive) (splitAt ['/'] pattern.toList)
        (splitAt ['/'] path.toList)) := by
    rw [coversPath?, isPrefixOf_slash_eq_false h.nonempty, isPrefixOf_slash_eq_false hpath,
      segments?_eq_splitAt h.nonempty, segments?_eq_splitAt hpath]
    rfl
  rw [Bool.eq_iff_iff, haccepts, covers_iff_fits h hpath hpatternComparable hpathComparable]
  simp [Matcher.accepts, hcovers, covers_iff]

theorem deep_pattern_accepts_alike_up_to_case :
    IsShared "A*/**/*b".toList ∧ (∀ c ∈ "A*/**/*b".toList, c.toNat < 128) ∧
      (∀ segment ∈ splitAt ['/'] "ax/y/zB".toList, segment ≠ []) ∧
      (∀ c ∈ "ax/y/zB".toList, c.toNat < 128) ∧
      ∃ glob segmented, Matcher.ofPatterns? .glob false ["A*/**/*b"] = .ok glob ∧
        Matcher.ofPatterns? .segmented false ["A*/**/*b"] = .ok segmented ∧
          glob.accepts false "ax/y/zB" = segmented.accepts false "ax/y/zB" := by
  have hshared : IsShared "A*/**/*b".toList :=
    ⟨by decide +kernel, by decide +kernel, by decide +kernel, by decide +kernel⟩
  have hpattern : ∀ c ∈ "A*/**/*b".toList, c.toNat < 128 := by simp
  have hpath : ∀ c ∈ "ax/y/zB".toList, c.toNat < 128 := by simp
  have hsegments : ∀ segment ∈ splitAt ['/'] "ax/y/zB".toList, segment ≠ [] := by decide +kernel
  obtain ⟨glob, segmented, hglob, hsegmented, halike⟩ :=
    glob_and_segmented_accept_alike "A*/**/*b" false hshared (.inr hpattern)
  exact ⟨hshared, hpattern, hsegments, hpath, glob, segmented, hglob, hsegmented,
    halike false "ax/y/zB" hsegments (.inr hpath)⟩

end FileSelection.Segmented
