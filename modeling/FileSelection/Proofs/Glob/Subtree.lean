import FileSelection.Ignore.Standard
import FileSelection.Proofs.Glob.Compilation
import FileSelection.Proofs.Glob.Segments

/-!
# Patterns of subtrees

A pattern that ends in `/`, `/**` or `/**/` covers what the pattern before this ending covers, and
everything below it.  On its own, the shorter pattern may have an ending as well, or be the pattern
for everything; this makes no difference.
-/

namespace FileSelection.Glob

open FileSelection.Regex FileSelection.Text

/-! ## Text behind the runs -/

section

variable {same : Char → Char → Prop} {separator : Char} {word text tail : List Char}

theorem unmarked_append {c : Char} (hmark : ¬ "**/".toList <+: c :: text)
    (hends : ∀ taken rest, tail = taken ++ '/' :: rest → ¬ "**".toList <:+ c :: text ++ taken) :
    ¬ "**/".toList <+: c :: (text ++ tail) := by
  rintro ⟨back, hback⟩
  have hwhole : "**".toList ++ '/' :: back = c :: text ++ tail := by simpa using hback
  rcases List.append_eq_append_iff.1 hwhole with ⟨extra, htext, hrest⟩ | ⟨extra, hstars, hrest⟩
  · cases extra with
    | nil =>
        apply hends [] back (by simpa using hrest.symm)
        rw [htext]
        simp
    | cons d extra =>
        obtain ⟨rfl, -⟩ := List.cons.inj hrest
        exact hmark ⟨extra, by simp [htext]⟩
  · exact hends extra back hrest ⟨[], hstars⟩

theorem runsCover_append_iff
    (hends : ∀ taken rest, tail = taken ++ '/' :: rest → ¬ "**".toList <:+ text ++ taken) :
    RunsCover same separator (splitAt "**/".toList (text ++ tail)) word ↔
      ∃ front back, word = front ++ back ∧
        RunsCover same separator (splitAt "**/".toList text) front ∧
          RunCovers same separator tail back := by
  -- the text starts with a mark or with a token; what is left of it is shorter
  induction hlength : text.length using Nat.strongRecOn generalizing text word with
  | ind length ih =>
      by_cases hmark : "**/".toList <+: text
      · obtain ⟨rest, rfl⟩ := hmark
        have hlater : ∀ taken after, tail = taken ++ '/' :: after → ¬ "**".toList <:+ rest ++ taken :=
          fun taken after htail hsuffix =>
            hends taken after htail (hsuffix.trans ⟨"**/".toList, by simp⟩)
        have hdeep (text : List Char) : "**/".toList ++ text = "**".toList ++ '/' :: text := by simp
        have hshorter : rest.length < length := by
          simp [← hlength]
          omega
        rw [List.append_assoc, hdeep, hdeep]
        simp only [runsCover_deep_iff, ih rest.length hshorter hlater rfl]
        constructor
        · rintro ⟨deep, _, rfl, hcovers, front, back, rfl, hfront, hback⟩
          exact ⟨deep ++ front, back, by simp, ⟨deep, front, rfl, hcovers, hfront⟩, hback⟩
        · rintro ⟨_, back, rfl, ⟨deep, front, rfl, hcovers, hfront⟩, hback⟩
          exact ⟨deep, front ++ back, by simp, hcovers, front, back, rfl, hfront, hback⟩
      · cases text with
        | nil =>
            have hunmarked : ¬ "**/".toList <:+: tail := by
              rintro ⟨front, back, htail⟩
              apply hends (front ++ "**".toList) back (by simp [← htail])
              simp
            have hnone : splitAt "**/".toList [] = [[]] := rfl
            rw [List.nil_append, splitAt_of_unmarked hunmarked, hnone]
            simp only [runsCover_singleton_iff]
            constructor
            · exact fun h => ⟨[], word, rfl, .nil, h⟩
            · rintro ⟨_, back, rfl, ⟨⟩, hback⟩
              exact hback
        | cons c text =>
            have hlater : ∀ taken rest, tail = taken ++ '/' :: rest →
                ¬ "**".toList <:+ text ++ taken :=
              fun taken rest htail hsuffix =>
                hends taken rest htail (hsuffix.trans (List.suffix_cons c _))
            have hshorter : text.length < length := by simp [← hlength]
            rw [splitAt_cons hmark, List.cons_append, splitAt_cons (unmarked_append hmark hends)]
            simp only [runsCover_consPart_iff (splitAt_ne_nil _ _),
              ih text.length hshorter hlater rfl]
            constructor
            · rintro ⟨token, _, rfl, hcovers, front, back, rfl, hfront, hback⟩
              exact ⟨token ++ front, back, by simp, ⟨token, front, rfl, hcovers, hfront⟩, hback⟩
            · rintro ⟨_, back, rfl, ⟨token, front, rfl, hcovers, hfront⟩, hback⟩
              exact ⟨token, front ++ back, by simp, hcovers, front, back, rfl, hfront, hback⟩

theorem runCovers_stars_iff :
    RunCovers same separator "**".toList word ↔ ∀ c ∈ word, ¬ same separator c := by
  have hnone : TokenCovers same separator '*' [] := by
    intro c hc
    cases hc
  constructor
  · intro h
    obtain ⟨front, _, rfl, hfront, h⟩ := runCovers_cons_iff.1 h
    obtain ⟨back, _, rfl, hback, ⟨⟩⟩ := runCovers_cons_iff.1 h
    rw [List.append_nil]
    exact List.forall_mem_append.2 ⟨hfront, hback⟩
  · intro h
    have hword : RunCovers same separator "**".toList (word ++ ([] ++ [])) :=
      .cons h (.cons hnone .nil)
    simpa using hword

end

/-! ## Endings -/

section

variable {body ending path : List Char} {same : Char → Char → Prop} {separator : Char}

theorem isEverything_eq_false (hslash : ¬ "/".toList <:+ body) (hne : body ≠ "**".toList) :
    isEverything body = false := by
  simp only [isEverything, Bool.or_eq_false_iff, beq_eq_false_iff_ne]
  refine ⟨hne, ?_⟩
  rintro rfl
  exact hslash (by decide)

theorem no_mark_in_stars (front : List Char) {taken rest : List Char}
    (h : "**".toList = taken ++ '/' :: rest) : ¬ "**".toList <:+ front ++ taken := by
  have hmem : '/' ∈ "**".toList := by simp [h]
  exact absurd hmem (by decide)

theorem covers_iff_runsCover (hslash : ¬ "/".toList <:+ body) (hdeep : ¬ "/**".toList <:+ body)
    (hne : body ≠ "**".toList) :
    Covers same separator body path ↔
      RunsCover same separator (splitAt "**/".toList body) path := by
  have hall := isEverything_eq_false hslash hne
  have hlong : ¬ "/**/".toList <:+ body := fun hsuffix => hslash (.trans (by decide) hsuffix)
  by_cases hstars : "**".toList <:+ body
  · obtain ⟨front, rfl⟩ := hstars
    have hsplit : splitEnding (front ++ "**".toList) = (front, .openEnd) := by
      rw [splitEnding_eq_stripFirst, ← strips_iff]
      exact .later hlong (.later hdeep (.later hslash .here))
    rw [covers_iff_of_ne hall hsplit, runsCover_append_iff fun _ _ => no_mark_in_stars front]
    simp only [runCovers_stars_iff]
    rfl
  · have hsplit : splitEnding body = (body, .exact) := by
      rw [splitEnding_eq_stripFirst, ← strips_iff]
      exact .later hlong (.later hdeep (.later hslash (.later hstars .none)))
    rw [covers_iff_of_ne hall hsplit]
    constructor
    · rintro ⟨front, _, rfl, hfront, rfl⟩
      rwa [List.append_nil]
    · exact fun h => ⟨path, [], by simp, h, rfl⟩

def subtreeEndings : List (List Char) := ["/".toList, "/**".toList, "/**/".toList]

theorem splitEnding_deep (hending : ending = "/**".toList ∨ ending = "/**/".toList) :
    splitEnding (body ++ ending) = (body, .subtree) := by
  rw [splitEnding_eq_stripFirst, ← strips_iff]
  rcases hending with rfl | rfl
  · refine .later ?_ .here
    rintro ⟨front, hfront⟩
    simpa using congrArg List.getLast? hfront
  · exact .here

theorem splitEnding_subtree (hdeep : ¬ "/**".toList <:+ body) (hending : ending ∈ subtreeEndings) :
    splitEnding (body ++ ending) = (body, .subtree) := by
  simp only [subtreeEndings, List.mem_cons, List.not_mem_nil, or_false] at hending
  rcases hending with rfl | hending
  · rw [splitEnding_eq_stripFirst, ← strips_iff]
    refine .later ?_ (.later ?_ .here)
    · rintro ⟨front, hfront⟩
      have hsame : front ++ "/**".toList ++ "/".toList = body ++ "/".toList := by simpa using hfront
      exact hdeep ⟨front, List.append_cancel_right hsame⟩
    · rintro ⟨front, hfront⟩
      simpa using congrArg List.getLast? hfront
  · exact splitEnding_deep hending

theorem isEverything_subtree (hne : body ≠ "**".toList) (hending : ending ∈ subtreeEndings) :
    isEverything (body ++ ending) = false := by
  simp only [isEverything, Bool.or_eq_false_iff, beq_eq_false_iff_ne]
  simp only [subtreeEndings, List.mem_cons, List.not_mem_nil, or_false] at hending
  rcases hending with rfl | rfl | rfl
  · constructor
    · intro h
      simpa using congrArg List.getLast? h
    · intro h
      have hsame : body ++ "/".toList = "**".toList ++ "/".toList := by simpa using h
      exact hne (List.append_cancel_right hsame)
  · constructor
    · intro h
      have := congrArg List.length h
      simp at this
    · intro h
      simpa using congrArg List.getLast? h
  · constructor
    · intro h
      simpa using congrArg List.length h
    · intro h
      simpa using congrArg List.length h

theorem exists_first_segment (text : List Char) :
    ∃ segment, '/' ∉ segment ∧ (text = segment ∨ ∃ rest, text = segment ++ '/' :: rest) := by
  by_cases h : '/' ∈ text
  · obtain ⟨segment, rest, rfl, hsegment⟩ := List.eq_append_cons_of_mem h
    exact ⟨segment, hsegment, .inr ⟨rest, rfl⟩⟩
  · exact ⟨text, h, .inl rfl⟩

theorem not_same_slash_iff (hseparator : ∀ c, same '/' c ↔ c = '/') {word : List Char} :
    (∀ c ∈ word, ¬ same '/' c) ↔ '/' ∉ word := by
  simp only [hseparator]
  exact ⟨fun h hmem => h '/' hmem rfl, fun h c hc hslash => h (hslash ▸ hc)⟩

theorem tokenCovers_slash_iff (hseparator : ∀ c, same '/' c ↔ c = '/') {word : List Char} :
    TokenCovers same '/' '/' word ↔ word = ['/'] := by
  constructor
  · rintro ⟨c, rfl, hc⟩
    rw [(hseparator c).1 hc]
  · rintro rfl
    exact ⟨'/', rfl, (hseparator '/').2 rfl⟩

theorem exists_stars_above (hseparator : ∀ c, same '/' c ↔ c = '/') (path : List Char) :
    ∃ front back, path = front ++ back ∧
      RunsCover same '/' (splitAt "**/".toList "**".toList) front ∧
        EndingCovers same '/' .subtree back := by
  obtain ⟨segment, hsegment, hpath⟩ := exists_first_segment path
  have hstars : RunsCover same '/' (splitAt "**/".toList "**".toList) segment := by
    rw [splitAt_segment (by decide), runsCover_singleton_iff, runCovers_stars_iff]
    exact (not_same_slash_iff hseparator).2 hsegment
  rcases hpath with rfl | ⟨rest, rfl⟩
  · exact ⟨path, [], by simp, hstars, .inl rfl⟩
  · exact ⟨segment, _, rfl, hstars, .inr ⟨'/', rest, rfl, (hseparator '/').2 rfl⟩⟩

theorem covers_append_ending_iff (hseparator : ∀ c, same '/' c ↔ c = '/')
    (hslash : ¬ "/".toList <:+ body) (hdeep : ¬ "/**".toList <:+ body)
    (hending : ending ∈ subtreeEndings) :
    Covers same '/' (body ++ ending) path ↔
      ∃ above, Covers same '/' body above ∧
        (path = above ∨ ∃ rest, path = above ++ '/' :: rest) := by
  have hsplit := splitEnding_subtree hdeep hending
  by_cases hall : body = "**".toList
  · subst hall
    refine iff_of_true ?_ ⟨path, .inl rfl, .inl rfl⟩
    cases hpattern : isEverything ("**".toList ++ ending) with
    | true =>
        have hpattern : "**".toList ++ ending = "**".toList ∨ "**".toList ++ ending = "**/".toList := by
          simpa [isEverything] using hpattern
        exact hpattern.elim .inl fun h => .inr (.inl h)
    | false =>
        rw [covers_iff_of_ne hpattern hsplit]
        exact exists_stars_above hseparator path
  · rw [covers_iff_of_ne (isEverything_subtree hall hending) hsplit]
    simp only [covers_iff_runsCover hslash hdeep hall]
    constructor
    · rintro ⟨front, _, rfl, hfront, rfl | ⟨c, rest, rfl, hc⟩⟩
      · exact ⟨front, hfront, .inl (by simp)⟩
      · rw [(hseparator c).1 hc]
        exact ⟨front, hfront, .inr ⟨rest, rfl⟩⟩
    · rintro ⟨front, hfront, rfl | ⟨rest, rfl⟩⟩
      · exact ⟨path, [], by simp, hfront, .inl rfl⟩
      · exact ⟨front, _, rfl, hfront, .inr ⟨'/', rest, rfl, (hseparator '/').2 rfl⟩⟩

/-! ## What lies below -/

theorem runCovers_segment_iff (hseparator : ∀ c, same '/' c ↔ c = '/') {word : List Char} :
    RunCovers same '/' ['/', '*'] word ↔ ∃ segment, word = '/' :: segment ∧ '/' ∉ segment := by
  constructor
  · intro h
    obtain ⟨_, _, rfl, hslash, hrest⟩ := runCovers_cons_iff.1 h
    obtain ⟨segment, _, rfl, hsegment, ⟨⟩⟩ := runCovers_cons_iff.1 hrest
    rw [(tokenCovers_slash_iff hseparator).1 hslash]
    exact ⟨segment, by simp, (not_same_slash_iff hseparator).1 hsegment⟩
  · rintro ⟨segment, rfl, hsegment⟩
    have hstar : TokenCovers same '/' '*' segment := (not_same_slash_iff hseparator).2 hsegment
    have hword : RunCovers same '/' ['/', '*'] (['/'] ++ (segment ++ [])) :=
      .cons ((tokenCovers_slash_iff hseparator).2 rfl) (.cons hstar .nil)
    simpa using hword

theorem covers_below_iff (hseparator : ∀ c, same '/' c ↔ c = '/') (hslash : ¬ "/".toList <:+ body)
    (hstars : ¬ "**".toList <:+ body) :
    Covers same '/' (body ++ "/*/".toList) path ↔
      ∃ front rest, path = front ++ '/' :: rest ∧ Covers same '/' body front := by
  have hdeep : ¬ "/**".toList <:+ body := fun hsuffix => hstars (.trans (by decide) hsuffix)
  have hne : body ≠ "**".toList := fun h => hstars (h ▸ List.suffix_rfl)
  have hinner : body ++ ['/', '*'] ≠ "**".toList := by
    intro h
    simpa using congrArg List.reverse h
  have hinnerSlash : ¬ "/".toList <:+ body ++ ['/', '*'] := by
    rintro ⟨front, hfront⟩
    simpa using congrArg List.getLast? hfront
  have hinnerDeep : ¬ "/**".toList <:+ body ++ ['/', '*'] := by
    rintro ⟨front, hfront⟩
    simpa using congrArg List.reverse hfront
  have hends : ∀ taken rest, ['/', '*'] = taken ++ '/' :: rest → ¬ "**".toList <:+ body ++ taken := by
    intro taken rest htail
    cases taken with
    | nil => simpa using hstars
    | cons c taken =>
        have hmem : '/' ∈ ['*'] := by simp [(List.cons.inj htail).2]
        exact absurd hmem (by decide)
  have hpattern : body ++ "/*/".toList = body ++ ['/', '*'] ++ "/".toList := by simp
  rw [hpattern, covers_append_ending_iff hseparator hinnerSlash hinnerDeep (by simp [subtreeEndings])]
  simp only [covers_iff_runsCover hinnerSlash hinnerDeep hinner,
    covers_iff_runsCover hslash hdeep hne, runsCover_append_iff hends,
    runCovers_segment_iff hseparator]
  constructor
  · rintro ⟨_, ⟨front, _, rfl, hfront, segment, rfl, -⟩, rfl | ⟨rest, rfl⟩⟩
    · exact ⟨front, segment, rfl, hfront⟩
    · exact ⟨front, segment ++ '/' :: rest, by simp, hfront⟩
  · rintro ⟨front, rest, rfl, hfront⟩
    obtain ⟨segment, hsegment, hrest⟩ := exists_first_segment rest
    refine ⟨front ++ '/' :: segment, ⟨front, _, rfl, hfront, segment, rfl, hsegment⟩, ?_⟩
    rcases hrest with rfl | ⟨deeper, rfl⟩
    · exact .inl rfl
    · exact .inr ⟨deeper, by simp⟩

end

/-! ## Matchers -/

theorem accepts_subtree_iff {body ending : String} {caseSensitive : Bool}
    (hslash : ¬ "/".toList <:+ body.toList) (hdeep : ¬ "/**".toList <:+ body.toList)
    (hending : ending ∈ ["/", "/**", "/**/"]) {root subtree : String → Bool}
    (hroot : ∀ path, root path = true ↔
      Covers (StandsFor (mode caseSensitive)) '/' body.toList path.toList)
    (hsubtree : ∀ path, subtree path = true ↔
      Covers (StandsFor (mode caseSensitive)) '/' (body ++ ending).toList path.toList)
    (path : String) :
    subtree path = true ↔
      ∃ above, root above = true ∧ (path = above ∨ ∃ rest, path = above ++ "/" ++ rest) := by
  have hmem : ending.toList ∈ subtreeEndings := by
    simpa [subtreeEndings, ← String.toList_inj] using hending
  rw [hsubtree, String.toList_append,
    covers_append_ending_iff (standsFor_slash_iff_eq caseSensitive) hslash hdeep hmem]
  constructor
  · rintro ⟨above, habove, hpath⟩
    refine ⟨String.ofList above, (hroot _).2 (by simpa using habove), ?_⟩
    rcases hpath with hpath | ⟨rest, hpath⟩
    · exact .inl (by simp [← hpath])
    · exact .inr ⟨String.ofList rest, by simp [← String.toList_inj, hpath]⟩
  · rintro ⟨above, habove, hpath⟩
    refine ⟨above.toList, (hroot above).1 habove, ?_⟩
    rcases hpath with rfl | ⟨rest, rfl⟩
    · exact .inl rfl
    · exact .inr ⟨rest.toList, by simp⟩

theorem accepts_below_iff {pattern : String} (hslash : ¬ "/".toList <:+ pattern.toList)
    (hstars : ¬ "**".toList <:+ pattern.toList) (caseSensitive : Bool) (path : String) :
    (compiled (pattern ++ "/*/") "/" caseSensitive).accepts path = true ↔
      ∃ front rest, path.toList = front ++ '/' :: rest ∧
        (compiled pattern "/" caseSensitive).accepts (String.ofList front) = true := by
  have hseparator := standsFor_slash_iff_eq caseSensitive
  apply (accepts_compiled_iff (pattern ++ "/*/") '/' caseSensitive path).trans
  rw [String.toList_append, covers_below_iff hseparator hslash hstars]
  apply exists_congr
  intro front
  apply exists_congr
  intro rest
  apply and_congr_right'
  have hfront := accepts_compiled_iff pattern '/' caseSensitive (String.ofList front)
  rw [String.toList_ofList] at hfront
  exact hfront.symm

/-- The three ways to write the pattern of a subtree accept the same paths: what the pattern of the
root accepts, and all that lies below it. -/
theorem subtree_patterns_accept_below [Ignore.Library] (body : String) (caseSensitive : Bool)
    (hslash : ¬ "/".toList <:+ body.toList) (hdeep : ¬ "/**".toList <:+ body.toList) :
    ∃ root, Matcher.ofPatterns? .glob caseSensitive [body] = .ok root ∧
      ∀ ending ∈ ["/", "/**", "/**/"], ∃ subtree,
        Matcher.ofPatterns? .glob caseSensitive [body ++ ending] = .ok subtree ∧
          ∀ isDirectory path,
            (subtree.accepts isDirectory path = true ↔
              ∃ above, root.accepts isDirectory above = true ∧
                (path = above ∨ ∃ rest, path = above ++ "/" ++ rest)) ∧
            (subtree.accepts isDirectory path = true →
              ∀ rest, subtree.accepts isDirectory (path ++ "/" ++ rest) = true) := by
  obtain ⟨root, hroot, haccepts⟩ := ofGlobs?_singleton body '/' caseSensitive
  refine ⟨root, hroot, ?_⟩
  intro ending hending
  obtain ⟨subtree, hsubtree, hbelow⟩ := ofGlobs?_singleton (body ++ ending) '/' caseSensitive
  refine ⟨subtree, hsubtree, ?_⟩
  intro isDirectory path
  have hiff := accepts_subtree_iff hslash hdeep hending (haccepts isDirectory) (hbelow isDirectory)
  refine ⟨hiff path, ?_⟩
  intro haccepted rest
  obtain ⟨above, habove, hpath⟩ := (hiff path).1 haccepted
  apply (hiff _).2
  refine ⟨above, habove, .inr ?_⟩
  rcases hpath with rfl | ⟨between, rfl⟩
  · exact ⟨rest, rfl⟩
  · exact ⟨between ++ "/" ++ rest, by simp [String.append_assoc]⟩

theorem open_end_pattern_accepts_below :
    ¬ "/".toList <:+ "x**".toList ∧ ¬ "/**".toList <:+ "x**".toList ∧
      ∃ root subtree, Matcher.ofPatterns? .glob true ["x**"] = .ok root ∧
        Matcher.ofPatterns? .glob true ["x**/"] = .ok subtree ∧
          (subtree.accepts false "xy/z" = true ↔
            ∃ above, root.accepts false above = true ∧
              ("xy/z" = above ∨ ∃ rest, "xy/z" = above ++ "/" ++ rest)) := by
  have hslash : ¬ "/".toList <:+ "x**".toList := by decide
  have hdeep : ¬ "/**".toList <:+ "x**".toList := by decide
  obtain ⟨root, hroot, hsubtrees⟩ := subtree_patterns_accept_below "x**" true hslash hdeep
  obtain ⟨subtree, hsubtree, hbelow⟩ := hsubtrees "/" (by simp)
  exact ⟨hslash, hdeep, root, subtree, hroot, hsubtree, (hbelow false "xy/z").1⟩

end FileSelection.Glob
