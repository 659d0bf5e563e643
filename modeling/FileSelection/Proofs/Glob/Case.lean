import FileSelection.Ignore.Standard
import FileSelection.Proofs.Glob.Prefixed
import Mathlib.Data.List.Forall2

/-!
# Patterns up to case

Up to case a pattern covers all that it covers as it is written, and the case of ASCII letters makes
no difference, in the pattern or in the path.  Both say that characters can be exchanged: where the
new characters of the pattern stand for the new ones of the path, the path is covered still.
-/

namespace FileSelection.Glob

open FileSelection.Regex FileSelection.Text

/-! ## Exchanged characters -/

/-- Exchanging characters for others keeps the marks and what characters stand for. -/
structure Exchanges (swap same same' : Char → Char → Prop) : Prop where
  mark_iff : ∀ {c d}, swap c d → ∀ mark ∈ marks, c = mark ↔ d = mark
  slash_iff : ∀ {c d}, swap c d → (same '/' c ↔ same' '/' d)
  same : ∀ {token other c d}, swap token other → swap c d → same token c → same' other d

variable {swap same same' : Char → Char → Prop}

theorem exists_append_of_forall₂ {front back text : List Char}
    (h : List.Forall₂ swap (front ++ back) text) :
    ∃ front' back', text = front' ++ back' ∧ List.Forall₂ swap front front' ∧
      List.Forall₂ swap back back' := by
  induction front generalizing text with
  | nil => exact ⟨[], text, rfl, .nil, h⟩
  | cons c front ih =>
      obtain ⟨d, rest, hc, hrest, rfl⟩ := List.forall₂_cons_left_iff.1 h
      obtain ⟨front', back', rfl, hfront, hback⟩ := ih hrest
      exact ⟨d :: front', back', rfl, .cons hc hfront, hback⟩

theorem forall₂_consPart {c d : Char} (hc : swap c d) {parts others : List (List Char)}
    (h : List.Forall₂ (List.Forall₂ swap) parts others) :
    List.Forall₂ (List.Forall₂ swap) (consPart c parts) (consPart d others) := by
  cases h with
  | nil => exact .cons (.cons hc .nil) .nil
  | cons hpart hparts => exact .cons (.cons hc hpart) hparts

namespace Exchanges

variable (hswap : Exchanges swap same same')

include hswap

/-! ### Cutting a pattern -/

theorem prefix_iff {mark text other : List Char} (hmark : mark ⊆ marks)
    (h : List.Forall₂ swap text other) : mark <+: text ↔ mark <+: other := by
  induction h generalizing mark with
  | nil => rfl
  | @cons c d text other hc _ ih =>
      cases mark with
      | nil => simp
      | cons m mark =>
          obtain ⟨hm, hmark⟩ := List.cons_subset.1 hmark
          simp only [List.cons_prefix_cons, eq_comm, hswap.mark_iff hc m hm, ih hmark]

theorem suffix_iff {mark text other : List Char} (hmark : mark ⊆ marks)
    (h : List.Forall₂ swap text other) : mark <:+ text ↔ mark <:+ other := by
  have hreverse : mark.reverse ⊆ marks := by simpa using hmark
  rw [← List.reverse_prefix, hswap.prefix_iff hreverse (List.forall₂_reverse_iff.2 h),
    List.reverse_prefix]

theorem eq_iff {mark text other : List Char} (hmark : mark ⊆ marks)
    (h : List.Forall₂ swap text other) : text = mark ↔ other = mark := by
  have hlength := h.length_eq
  have hbegins := hswap.prefix_iff hmark h
  constructor
  · rintro rfl
    exact ((hbegins.1 List.prefix_rfl).eq_of_length hlength).symm
  · rintro rfl
    exact ((hbegins.2 List.prefix_rfl).eq_of_length hlength.symm).symm

theorem splitAfter {mark text other : List Char} (hmark : mark ⊆ marks) (skip : Nat)
    (h : List.Forall₂ swap text other) :
    List.Forall₂ (List.Forall₂ swap) (splitAfter mark skip text) (splitAfter mark skip other) := by
  induction h generalizing skip with
  | nil => exact .cons .nil .nil
  | @cons c d text other hc hrest ih =>
      cases skip with
      | succ skip => exact ih skip
      | zero =>
          have hmarked := hswap.prefix_iff hmark (.cons hc hrest)
          simp only [Text.splitAfter, List.isPrefixOf_iff_prefix, hmarked]
          split
          · exact .cons .nil (ih _)
          · exact forall₂_consPart hc (ih 0)

theorem stripFirst {endings : List (List Char × Ending)}
    (hmarks : ∀ ending ∈ endings, ending.1 ⊆ marks) {pattern other : List Char}
    (h : List.Forall₂ swap pattern other) :
    List.Forall₂ swap (stripFirst endings pattern).1 (stripFirst endings other).1 ∧
      (stripFirst endings pattern).2 = (stripFirst endings other).2 := by
  induction endings with
  | nil => exact ⟨h, rfl⟩
  | cons first endings ih =>
      obtain ⟨mark, ending⟩ := first
      obtain ⟨hmark, hmarks⟩ := List.forall_mem_cons.1 hmarks
      have hsuffix := hswap.suffix_iff hmark h
      by_cases hmarked : mark <:+ pattern
      · simp only [Glob.stripFirst, dropSuffix?, List.isSuffixOf_iff_suffix, hmarked,
          hsuffix.1 hmarked, if_true, h.length_eq]
        exact ⟨List.forall₂_take _ h, trivial⟩
      · simpa only [Glob.stripFirst, dropSuffix?, List.isSuffixOf_iff_suffix, hmarked,
          mt hsuffix.2 hmarked, if_false] using ih hmarks

/-! ### Covering a path -/

theorem noSlash {word word' : List Char} (hword : List.Forall₂ swap word word')
    (h : ∀ c ∈ word, ¬ same '/' c) : ∀ d ∈ word', ¬ same' '/' d := by
  induction hword with
  | nil => simp
  | cons hc _ ih =>
      obtain ⟨hfirst, hrest⟩ := List.forall_mem_cons.1 h
      exact List.forall_mem_cons.2 ⟨mt (hswap.slash_iff hc).2 hfirst, ih hrest⟩

theorem tokenCovers {token other : Char} {word word' : List Char} (htoken : swap token other)
    (hword : List.Forall₂ swap word word') (h : TokenCovers same '/' token word) :
    TokenCovers same' '/' other word' := by
  have hother := hswap.mark_iff htoken
  by_cases hmark : token ∈ marks
  · obtain rfl : token = other := ((hother token hmark).1 rfl).symm
    simp only [marks, List.mem_cons, List.not_mem_nil, or_false] at hmark
    rcases hmark with rfl | rfl | rfl
    · exact hswap.noSlash hword h
    · obtain ⟨c, rfl⟩ := h
      obtain ⟨d, _, hc, hnil, rfl⟩ := List.forall₂_cons_left_iff.1 hword
      cases hnil
      exact ⟨d, rfl⟩
    · obtain ⟨c, rfl, hslash⟩ := h
      obtain ⟨d, _, hc, hnil, rfl⟩ := List.forall₂_cons_left_iff.1 hword
      cases hnil
      exact ⟨d, rfl, (hswap.slash_iff hc).1 hslash⟩
  · have hmark' : other ∉ marks := fun hmem => hmark ((hother other hmem).2 rfl ▸ hmem)
    obtain ⟨c, rfl, hsame⟩ := (tokenCovers_literal_iff hmark).1 h
    obtain ⟨d, _, hc, hnil, rfl⟩ := List.forall₂_cons_left_iff.1 hword
    cases hnil
    exact (tokenCovers_literal_iff hmark').2 ⟨d, rfl, hswap.same htoken hc hsame⟩

theorem runCovers {run run' word word' : List Char} (hrun : List.Forall₂ swap run run')
    (hword : List.Forall₂ swap word word') (h : RunCovers same '/' run word) :
    RunCovers same' '/' run' word' := by
  induction h generalizing run' word' with
  | nil =>
      cases hrun
      cases hword
      exact .nil
  | cons htoken _ ih =>
      obtain ⟨front, back, rfl, hfront, hback⟩ := exists_append_of_forall₂ hword
      cases hrun with
      | cons hother hrun => exact .cons (hswap.tokenCovers hother hfront htoken) (ih hrun hback)

theorem deepCovers {word word' : List Char} (hword : List.Forall₂ swap word word')
    (h : DeepCovers same '/' word) : DeepCovers same' '/' word' := by
  rcases h with rfl | ⟨front, c, rfl, hc⟩
  · exact .inl (List.forall₂_nil_left_iff.1 hword)
  · obtain ⟨front', _, rfl, -, hlast⟩ := exists_append_of_forall₂ hword
    obtain ⟨d, _, hcd, hnil, rfl⟩ := List.forall₂_cons_left_iff.1 hlast
    cases hnil
    exact .inr ⟨front', d, rfl, (hswap.slash_iff hcd).1 hc⟩

theorem runsCover {runs runs' : List (List Char)} {word word' : List Char}
    (hruns : List.Forall₂ (List.Forall₂ swap) runs runs') (hword : List.Forall₂ swap word word')
    (h : RunsCover same '/' runs word) : RunsCover same' '/' runs' word' := by
  induction h generalizing runs' word' with
  | last hrun =>
      obtain ⟨run', _, hrun', hnil, rfl⟩ := List.forall₂_cons_left_iff.1 hruns
      cases hnil
      exact .last (hswap.runCovers hrun' hword hrun)
  | cons hrun hdeep _ ih =>
      obtain ⟨front, _, rfl, hfront, hrest⟩ := exists_append_of_forall₂ hword
      obtain ⟨deep, back, rfl, hdeep', hback⟩ := exists_append_of_forall₂ hrest
      cases hruns with
      | cons hrun' hruns =>
          exact .cons (hswap.runCovers hrun' hfront hrun) (hswap.deepCovers hdeep' hdeep)
            (ih hruns hback)

theorem endingCovers {ending : Ending} {word word' : List Char}
    (hword : List.Forall₂ swap word word') (h : EndingCovers same '/' ending word) :
    EndingCovers same' '/' ending word' := by
  cases ending with
  | exact =>
      subst h
      exact List.forall₂_nil_left_iff.1 hword
  | subtree =>
      rcases h with rfl | ⟨c, rest, rfl, hc⟩
      · exact .inl (List.forall₂_nil_left_iff.1 hword)
      · obtain ⟨d, rest', hcd, -, rfl⟩ := List.forall₂_cons_left_iff.1 hword
        exact .inr ⟨d, rest', rfl, (hswap.slash_iff hcd).1 hc⟩
  | openEnd => exact hswap.noSlash hword h

theorem covers {pattern pattern' path path' : List Char}
    (hpattern : List.Forall₂ swap pattern pattern') (hpath : List.Forall₂ swap path path')
    (h : Covers same '/' pattern path) : Covers same' '/' pattern' path' := by
  have hcut : "**/".toList ⊆ marks := by decide
  have hendings : ∀ ending ∈ endings, ending.1 ⊆ marks := by decide
  rcases h with rfl | rfl | ⟨body, ending, runs, front, back, hstrips, hruns, rfl, hfront, hback⟩
  · exact .inl ((hswap.eq_iff (by decide) hpattern).1 rfl)
  · exact .inr (.inl ((hswap.eq_iff (by decide) hpattern).1 rfl))
  · obtain ⟨hbody, hending⟩ := hswap.stripFirst hendings hpattern
    rw [strips_iff.1 hstrips] at hbody hending
    obtain ⟨front', back', rfl, hfront', hback'⟩ := exists_append_of_forall₂ hpath
    obtain rfl := (cuts_iff (by decide)).1 hruns
    have hstrips' : Strips endings pattern' (Glob.stripFirst endings pattern').1 ending :=
      strips_iff.2 (Prod.ext rfl hending.symm)
    have hruns' := hswap.runsCover (hswap.splitAfter hcut 0 hbody) hfront' hfront
    exact .inr (.inr ⟨_, ending, _, front', back', hstrips', cuts_splitAt (by decide) _, rfl,
      hruns', hswap.endingCovers hback' hback⟩)

end Exchanges

/-! ## Characters up to case -/

section

variable {token c : Char}

theorem toLower_eq_mark_iff (c : Char) {mark : Char} (hmark : mark ∈ marks) :
    c.toLower = mark ↔ c = mark := by
  have hcode := toNat_lt_of_mem_marks hmark
  rw [← Char.toNat_inj, ← Char.toNat_inj, toNat_toLower]
  split <;> omega

theorem standsFor_toLower_iff :
    StandsFor (mode false) token.toLower c.toLower ↔ StandsFor (mode false) token c := by
  cases hcased : isCased token.toNat with
  | true =>
      have hlower := (isCased_toLower token).trans hcased
      rw [standsFor_iff_of_cased hlower, standsFor_iff_of_cased hcased, lowerCode_toLower,
        lowerCode_toLower]
  | false =>
      have hfixed := toLower_of_uncased hcased
      rw [hfixed, standsFor_iff_of_uncased hcased, standsFor_iff_of_uncased hcased]
      constructor
      · rintro rfl
        rw [isCased_toLower] at hcased
        exact (toLower_of_uncased hcased).symm
      · rintro rfl
        exact hfixed

theorem exchanges_eq : Exchanges Eq (StandsFor (mode true)) (StandsFor (mode false)) where
  mark_iff := by
    rintro c _ rfl mark -
    rfl
  slash_iff := by
    rintro c _ rfl
    rw [standsFor_slash_iff_eq, standsFor_slash_iff_eq]
  same := by
    rintro token _ c _ rfl rfl h
    obtain rfl := (standsFor_iff_eq rfl).1 h
    exact standsFor_self false token

theorem exchanges_toLower : Exchanges (fun c d => c.toLower = d.toLower) (StandsFor (mode false))
    (StandsFor (mode false)) where
  mark_iff {c d} hcd mark hmark := by
    rw [← toLower_eq_mark_iff c hmark, hcd, toLower_eq_mark_iff d hmark]
  slash_iff {c d} hcd := by
    have hmark : '/' ∈ marks := by decide
    rw [standsFor_slash_iff_eq, standsFor_slash_iff_eq, ← toLower_eq_mark_iff c hmark, hcd,
      toLower_eq_mark_iff d hmark]
  same {token other c d} htoken hcd h := by
    rw [← standsFor_toLower_iff] at h ⊢
    rwa [← htoken, ← hcd]

end

/-! ## Matchers -/

theorem forall₂_of_toLower_eq {text other : String} (h : text.toLower = other.toLower) :
    List.Forall₂ (fun c d : Char => c.toLower = d.toLower) text.toList other.toList := by
  have hlists : text.toList.map Char.toLower = other.toList.map Char.toLower := by
    rw [← toList_toLower, h, toList_toLower]
  rw [← List.forall₂_eq_eq_eq, List.forall₂_map_left_iff, List.forall₂_map_right_iff] at hlists
  exact hlists

theorem covers_of_toLower_eq {pattern pattern' path path' : String}
    (hpattern : pattern.toLower = pattern'.toLower) (hpath : path.toLower = path'.toLower)
    (h : Covers (StandsFor (mode false)) '/' pattern.toList path.toList) :
    Covers (StandsFor (mode false)) '/' pattern'.toList path'.toList :=
  exchanges_toLower.covers (forall₂_of_toLower_eq hpattern) (forall₂_of_toLower_eq hpath) h

/-- Up to case a pattern accepts all that it accepts as it is written, and how the ASCII letters of
the pattern and of the path are written makes no difference. -/
theorem ignoring_case_accepts_more_in_any_ascii_case [Ignore.Library] (pattern : String) :
    ∃ sensitive relaxed, Matcher.ofPatterns? .glob true [pattern] = .ok sensitive ∧
      Matcher.ofPatterns? .glob false [pattern] = .ok relaxed ∧
      (∀ isDirectory path, sensitive.accepts isDirectory path = true →
        relaxed.accepts isDirectory path = true) ∧
      ∀ pattern', pattern.toLower = pattern'.toLower →
        ∃ relaxed', Matcher.ofPatterns? .glob false [pattern'] = .ok relaxed' ∧
          ∀ isDirectory path path', path.toLower = path'.toLower →
            relaxed'.accepts isDirectory path' = relaxed.accepts isDirectory path := by
  obtain ⟨sensitive, hsensitive, haccepts⟩ := ofGlobs?_singleton pattern '/' true
  obtain ⟨relaxed, hrelaxed, hignoring⟩ := ofGlobs?_singleton pattern '/' false
  refine ⟨sensitive, relaxed, hsensitive, hrelaxed, ?_, ?_⟩
  · intro isDirectory path hpath
    rw [hignoring]
    rw [haccepts] at hpath
    exact exchanges_eq.covers (List.forall₂_refl _) (List.forall₂_refl _) hpath
  · intro pattern' hpattern
    obtain ⟨relaxed', hrelaxed', hignoring'⟩ := ofGlobs?_singleton pattern' '/' false
    refine ⟨relaxed', hrelaxed', ?_⟩
    intro isDirectory path path' hpath
    rw [Bool.eq_iff_iff, hignoring, hignoring']
    exact ⟨covers_of_toLower_eq hpattern.symm hpath.symm, covers_of_toLower_eq hpattern hpath⟩

theorem covers_capital_extension :
    Covers (StandsFor (mode true)) '/' "*.TXT".toList "a.TXT".toList := by
  have hstar : TokenCovers (StandsFor (mode true)) '/' '*' ['a'] := by
    intro c hc
    rw [standsFor_slash_iff_eq, List.mem_singleton.1 hc]
    decide
  have htail : RunCovers (StandsFor (mode true)) '/' ".TXT".toList ".TXT".toList :=
    runCovers_self (standsFor_self true) (by decide)
  rw [covers_iff_runsCover (by decide) (by decide) (by decide), splitAt_segment (by decide)]
  exact .last (.cons hstar htail)

theorem ignoring_case_accepts_other_case_of_extension :
    "*.TXT".toLower = "*.txt".toLower ∧ "a.TXT".toLower = "A.txt".toLower ∧
      ∃ sensitive relaxed relaxed', Matcher.ofPatterns? .glob true ["*.TXT"] = .ok sensitive ∧
        Matcher.ofPatterns? .glob false ["*.TXT"] = .ok relaxed ∧
        Matcher.ofPatterns? .glob false ["*.txt"] = .ok relaxed' ∧
          sensitive.accepts false "a.TXT" = true ∧ relaxed.accepts false "a.TXT" = true ∧
            relaxed'.accepts false "A.txt" = true := by
  have hpattern : "*.TXT".toLower = "*.txt".toLower := by
    simp [← String.toList_inj, toList_toLower]
  have hpath : "a.TXT".toLower = "A.txt".toLower := by simp [← String.toList_inj, toList_toLower]
  obtain ⟨sensitive, relaxed, hsensitive, hrelaxed, hmore, hcase⟩ :=
    ignoring_case_accepts_more_in_any_ascii_case "*.TXT"
  obtain ⟨relaxed', hrelaxed', hsame⟩ := hcase "*.txt" hpattern
  have haccepts : sensitive.accepts false "a.TXT" = true := by
    rw [accepts_iff_of_ofPatterns hsensitive]
    exact covers_capital_extension
  have hignoring := hmore false "a.TXT" haccepts
  have hother := (hsame false "a.TXT" "A.txt" hpath).trans hignoring
  exact ⟨hpattern, hpath, sensitive, relaxed, relaxed', hsensitive, hrelaxed, hrelaxed', haccepts,
    hignoring, hother⟩

end FileSelection.Glob
