import FileSelection.Ignore.Standard
import FileSelection.Proofs.Glob.Prefixed

/-!
# Repeated stars

A `**/` stands for any number of segments, and so do two of them in a row.  Only at the end of a
pattern the second one makes a difference.  The ending of the pattern is then behind two stars that
are read as a run of their own, so that the slash before them has to occur in the path.
-/

namespace FileSelection.Glob

open FileSelection.Regex FileSelection.Text

variable {same : Char → Char → Prop}

/-! ## Runs before and behind a mark -/

section

variable {separator : Char} {word : List Char}

theorem isUnbordered_mark : IsUnbordered "**/".toList := by
  intro border hends hbegins
  simp only [List.suffix_cons_iff, String.reduceToList, List.suffix_nil] at hends
  rcases hends with rfl | rfl | rfl | rfl
  · exact .inr rfl
  · simp at hbegins
  · simp at hbegins
  · exact .inl rfl

theorem runsCover_append_runs_iff {front back : List (List Char)} (hfront : front ≠ [])
    (hback : back ≠ []) :
    RunsCover same separator (front ++ back) word ↔
      ∃ before deep after, word = before ++ (deep ++ after) ∧
        RunsCover same separator front before ∧ DeepCovers same separator deep ∧
          RunsCover same separator back after := by
  induction front generalizing word with
  | nil => exact absurd rfl hfront
  | cons run front ih =>
      cases front with
      | nil =>
          obtain ⟨next, others, rfl⟩ := List.exists_cons_of_ne_nil hback
          simp only [List.singleton_append, runsCover_cons_cons_iff, runsCover_singleton_iff]
          constructor
          · rintro ⟨before, _, rfl, hrun, deep, after, rfl, hdeep, hafter⟩
            exact ⟨before, deep, after, rfl, hrun, hdeep, hafter⟩
          · rintro ⟨before, deep, after, rfl, hrun, hdeep, hafter⟩
            exact ⟨before, deep ++ after, rfl, hrun, deep, after, rfl, hdeep, hafter⟩
      | cons next front =>
          rw [List.cons_append, List.cons_append, runsCover_cons_cons_iff]
          simp only [runsCover_cons_cons_iff, ← List.cons_append, ih (by simp)]
          constructor
          · rintro ⟨first, _, rfl, hrun, between, _, rfl, hbetween, before, deep, after, rfl,
              hfront, hdeep, hafter⟩
            exact ⟨first ++ (between ++ before), deep, after, by simp,
              ⟨first, between ++ before, rfl, hrun, between, before, rfl, hbetween, hfront⟩, hdeep,
              hafter⟩
          · rintro ⟨_, deep, after, rfl,
              ⟨first, _, rfl, hrun, between, before, rfl, hbetween, hfront⟩, hdeep, hafter⟩
            exact ⟨first, between ++ (before ++ (deep ++ after)), by simp, hrun, between, _, rfl,
              hbetween, before, deep, after, rfl, hfront, hdeep, hafter⟩

theorem DeepCovers.append {first second : List Char} (hfirst : DeepCovers same separator first)
    (hsecond : DeepCovers same separator second) : DeepCovers same separator (first ++ second) := by
  rcases hsecond with rfl | ⟨front, c, rfl, hc⟩
  · rwa [List.append_nil]
  · exact .inr ⟨first ++ front, c, by simp, hc⟩

theorem runsCover_mark_iff (front rest : List Char) :
    RunsCover same separator (splitAt "**/".toList (front ++ "**/".toList ++ rest)) word ↔
      ∃ before deep after, word = before ++ (deep ++ after) ∧
        RunsCover same separator (splitAt "**/".toList front) before ∧
          DeepCovers same separator deep ∧
            RunsCover same separator (splitAt "**/".toList rest) after := by
  rw [splitAt_append_mark_append (by decide) isUnbordered_mark,
    runsCover_append_runs_iff (splitAt_ne_nil _ _) (splitAt_ne_nil _ _)]

theorem runsCover_repeated_iff (front rest : List Char) :
    RunsCover same separator
        (splitAt "**/".toList (front ++ "**/".toList ++ ("**/".toList ++ rest))) word ↔
      RunsCover same separator (splitAt "**/".toList (front ++ "**/".toList ++ rest)) word := by
  have hsecond : "**/".toList ++ rest = "**".toList ++ '/' :: rest := rfl
  rw [hsecond]
  simp only [runsCover_mark_iff, runsCover_deep_iff]
  constructor
  · rintro ⟨before, deep, _, rfl, hbefore, hdeep, more, after, rfl, hmore, hafter⟩
    exact ⟨before, deep ++ more, after, by simp, hbefore, hdeep.append hmore, hafter⟩
  · rintro ⟨before, deep, after, rfl, hbefore, hdeep, hafter⟩
    exact ⟨before, deep, after, rfl, hbefore, hdeep, [], after, rfl, .inl rfl, hafter⟩

end

/-! ## Patterns that end in a mark -/

section

variable {front path : List Char}

theorem isEverything_of_length {pattern : List Char} (h : 3 < pattern.length) :
    isEverything pattern = false := by
  simp only [isEverything, Bool.or_eq_false_iff, beq_eq_false_iff_ne]
  constructor <;> rintro rfl <;> simp at h

/-- Paths that begin with what the runs of a text cover. -/
def CoversAbove (same : Char → Char → Prop) (front path : List Char) : Prop :=
  ∃ above below, path = above ++ below ∧ RunsCover same '/' (splitAt "**/".toList front) above

theorem coversAbove_nil : CoversAbove same [] path :=
  ⟨[], path, rfl, .last .nil⟩

theorem coversAbove_mark_iff :
    CoversAbove same (front ++ "**/".toList) path ↔ CoversAbove same front path := by
  have hmark : front ++ "**/".toList = front ++ "**/".toList ++ [] := by simp
  have hempty : RunsCover same '/' (splitAt "**/".toList []) [] := .last .nil
  unfold CoversAbove
  rw [hmark]
  simp only [runsCover_mark_iff]
  constructor
  · rintro ⟨_, below, rfl, above, deep, after, rfl, habove, -⟩
    exact ⟨above, deep ++ after ++ below, by simp, habove⟩
  · rintro ⟨above, below, rfl, habove⟩
    exact ⟨above, below, rfl, above, [], [], by simp, habove, .inl rfl, hempty⟩

theorem covers_mark_subtree_iff (hseparator : ∀ c, same '/' c ↔ c = '/') (front path : List Char)
    {ending : List Char} (hending : ending = "/**".toList ∨ ending = "/**/".toList) :
    Covers same '/' (front ++ "**".toList ++ ending) path ↔ CoversAbove same front path := by
  have hall : isEverything (front ++ "**".toList ++ ending) = false := by
    apply isEverything_of_length
    rcases hending with rfl | rfl <;> simp
  rw [covers_iff_of_ne hall (splitEnding_deep hending)]
  simp only [runsCover_append_iff fun _ _ => no_mark_in_stars front]
  constructor
  · rintro ⟨_, back, rfl, ⟨above, segment, rfl, habove, -⟩, -⟩
    exact ⟨above, segment ++ back, by simp, habove⟩
  · rintro ⟨above, below, rfl, habove⟩
    obtain ⟨segment, back, rfl, hsegment, hback⟩ := exists_stars_above hseparator below
    rw [splitAt_segment (by decide), runsCover_singleton_iff] at hsegment
    exact ⟨above ++ segment, back, by simp, ⟨above, segment, rfl, habove, hsegment⟩, hback⟩

theorem exists_deep_segment (hseparator : ∀ c, same '/' c ↔ c = '/') (text : List Char) :
    ∃ deep segment, text = deep ++ segment ∧ DeepCovers same '/' deep ∧ '/' ∉ segment := by
  induction text with
  | nil => exact ⟨[], [], rfl, .inl rfl, by simp⟩
  | cons c text ih =>
      obtain ⟨deep, segment, rfl, rfl | ⟨before, d, rfl, hd⟩, hsegment⟩ := ih
      · by_cases hc : c = '/'
        · subst hc
          exact ⟨['/'], segment, rfl, .inr ⟨[], '/', rfl, (hseparator '/').2 rfl⟩, hsegment⟩
        · exact ⟨[], c :: segment, rfl, .inl rfl, by simp [Ne.symm hc, hsegment]⟩
      · exact ⟨c :: (before ++ [d]), segment, rfl, .inr ⟨c :: before, d, rfl, hd⟩, hsegment⟩

theorem covers_mark_star_iff (hseparator : ∀ c, same '/' c ↔ c = '/') (front path : List Char) :
    Covers same '/' (front ++ "**/*".toList) path ↔ CoversAbove same front path := by
  have hslash : ¬ "/".toList <:+ front ++ "**/*".toList := by
    rintro ⟨other, hother⟩
    simpa using congrArg List.getLast? hother
  have hdeep : ¬ "/**".toList <:+ front ++ "**/*".toList := by
    rintro ⟨other, hother⟩
    simpa using congrArg List.reverse hother
  have hne : front ++ "**/*".toList ≠ "**".toList := by
    intro h
    simpa using congrArg List.length h
  have hlast : splitAt "**/".toList ['*'] = [['*']] := splitAt_segment (by decide)
  have hmark : front ++ "**/*".toList = front ++ "**/".toList ++ ['*'] := by simp
  rw [covers_iff_runsCover hslash hdeep hne, hmark, runsCover_mark_iff, hlast]
  simp only [runsCover_singleton_iff]
  constructor
  · rintro ⟨above, deep, segment, rfl, habove, -⟩
    exact ⟨above, deep ++ segment, rfl, habove⟩
  · rintro ⟨above, below, rfl, habove⟩
    obtain ⟨deep, segment, rfl, hdeep, hsegment⟩ := exists_deep_segment hseparator below
    have hstar : TokenCovers same '/' '*' segment := (not_same_slash_iff hseparator).2 hsegment
    refine ⟨above, deep, segment, rfl, habove, hdeep, ?_⟩
    simpa using RunCovers.cons hstar .nil

end

/-! ## Patterns with a repeated mark -/

section

variable {front rest path ending : List Char}

theorem covers_behind_mark_iff {body : List Char} {kind : Ending} (hrest : rest ≠ [])
    (hall : isEverything rest = false) (hsplit : splitEnding rest = (body, kind)) :
    Covers same '/' (front ++ "**/".toList ++ rest) path ↔
      ∃ above below, path = above ++ below ∧
        RunsCover same '/' (splitAt "**/".toList (front ++ "**/".toList ++ body)) above ∧
          EndingCovers same '/' kind below := by
  have hslash (text : List Char) :
      front ++ "**/".toList ++ text = front ++ "**".toList ++ '/' :: text := by simp
  have hwhole : isEverything (front ++ "**".toList ++ '/' :: rest) = false := by
    have hlength := List.length_pos_iff.2 hrest
    apply isEverything_of_length
    simp
    omega
  rw [hslash, hslash, covers_iff_of_ne hwhole (splitEnding_prefixed hrest hall hsplit)]

theorem covers_repeated_iff (hseparator : ∀ c, same '/' c ↔ c = '/') (front path : List Char)
    (hrest : rest ≠ []) :
    Covers same '/' (front ++ "**/".toList ++ ("**/".toList ++ rest)) path ↔
      Covers same '/' (front ++ "**/".toList ++ rest) path := by
  cases hall : isEverything rest with
  | true =>
      have hending : '/' :: rest = "/**".toList ∨ '/' :: rest = "/**/".toList := by
        simpa [isEverything] using hall
      have honce : front ++ "**/".toList ++ rest = front ++ "**".toList ++ '/' :: rest := by simp
      have htwice : front ++ "**/".toList ++ ("**/".toList ++ rest) =
          front ++ "**/".toList ++ "**".toList ++ '/' :: rest := by simp
      rw [honce, htwice, covers_mark_subtree_iff hseparator _ _ hending,
        covers_mark_subtree_iff hseparator _ _ hending, coversAbove_mark_iff]
  | false =>
      cases hsplit : splitEnding rest with
      | mk body kind =>
          have htwice (text : List Char) : front ++ "**/".toList ++ ("**/".toList ++ text) =
              front ++ "**/".toList ++ "**/".toList ++ text := by simp
          rw [htwice, covers_behind_mark_iff hrest hall hsplit,
            covers_behind_mark_iff hrest hall hsplit]
          simp only [← htwice, runsCover_repeated_iff]

theorem runCovers_slash_iff (hseparator : ∀ c, same '/' c ↔ c = '/') {word : List Char} :
    RunCovers same '/' ['/'] word ↔ word = ['/'] := by
  constructor
  · intro h
    obtain ⟨_, _, rfl, hslash, ⟨⟩⟩ := runCovers_cons_iff.1 h
    rw [(tokenCovers_slash_iff hseparator).1 hslash]
    rfl
  · rintro rfl
    exact .cons ((tokenCovers_slash_iff hseparator).2 rfl) .nil

theorem coversAbove_slash_iff (hseparator : ∀ c, same '/' c ↔ c = '/')
    (hstars : ¬ "**".toList <:+ front)
    (hending : ending = "/**".toList ∨ ending = "/**/".toList) :
    CoversAbove same (front ++ ['/']) path ↔
      ∃ entry below, path = entry ++ '/' :: below ∧ Covers same '/' (front ++ ending) entry := by
  have hne : front ≠ "**".toList := fun h => hstars (h ▸ List.suffix_rfl)
  have hmem : ending ∈ subtreeEndings := by
    rcases hending with rfl | rfl <;> simp [subtreeEndings]
  have hends : ∀ taken rest, ['/'] = taken ++ '/' :: rest → ¬ "**".toList <:+ front ++ taken := by
    intro taken rest htail
    obtain rfl : taken = [] := by
      cases taken with
      | nil => rfl
      | cons c taken => simp at htail
    rwa [List.append_nil]
  simp only [CoversAbove, runsCover_append_iff hends, runCovers_slash_iff hseparator,
    covers_iff_of_ne (isEverything_subtree hne hmem) (splitEnding_deep hending)]
  constructor
  · rintro ⟨_, below, rfl, entry, _, rfl, hentry, rfl⟩
    exact ⟨entry, below, by simp, entry, [], by simp, hentry, .inl rfl⟩
  · rintro ⟨_, below, rfl, entry, back, rfl, hentry, rfl | ⟨c, between, rfl, hc⟩⟩
    · exact ⟨entry ++ ['/'], below, by simp, entry, ['/'], rfl, hentry, rfl⟩
    · obtain rfl := (hseparator c).1 hc
      exact ⟨entry ++ ['/'], between ++ '/' :: below, by simp, entry, ['/'], rfl, hentry, rfl⟩

theorem covers_repeated_ending_iff (hseparator : ∀ c, same '/' c ↔ c = '/')
    (path : List Char) (hstars : ¬ "**".toList <:+ front)
    (hending : ending = "/**".toList ∨ ending = "/**/".toList) :
    Covers same '/' (front ++ "/**".toList ++ ending) path ↔
      ∃ entry below, path = entry ++ '/' :: below ∧ Covers same '/' (front ++ ending) entry := by
  have hslash : front ++ "/**".toList = front ++ ['/'] ++ "**".toList := by simp
  rw [hslash, covers_mark_subtree_iff hseparator _ _ hending]
  exact coversAbove_slash_iff hseparator hstars hending

end

/-! ## Matchers -/

section

variable {caseSensitive : Bool} {front rest ending : String}

theorem acceptAlike_repeated [Ignore.Library] (hrest : rest ≠ "") :
    AcceptAlike caseSensitive (front ++ "**/**/" ++ rest) (front ++ "**/" ++ rest) := by
  apply AcceptAlike.of_covers
  intro path
  have hseparator := standsFor_slash_iff_eq caseSensitive
  have hne : rest.toList ≠ [] := by simpa using hrest
  simpa using covers_repeated_iff hseparator front.toList path hne

theorem slash_ending (hending : ending ∈ ["**", "**/"]) :
    '/' :: ending.toList = "/**".toList ∨ '/' :: ending.toList = "/**/".toList := by
  simpa [← String.toList_inj] using hending

theorem acceptAlike_mark_star [Ignore.Library] (hending : ending ∈ ["**", "**/"]) :
    AcceptAlike caseSensitive (front ++ "**/" ++ ending) (front ++ "**/*") := by
  apply AcceptAlike.of_covers
  intro path
  have hseparator := standsFor_slash_iff_eq caseSensitive
  have hsubtree := covers_mark_subtree_iff hseparator front.toList path (slash_ending hending)
  have hstar := covers_mark_star_iff hseparator front.toList path
  simpa using hsubtree.trans hstar.symm

theorem acceptAlike_everything [Ignore.Library] (hending : ending ∈ ["**", "**/"]) :
    AcceptAlike caseSensitive ("**/" ++ ending) ending := by
  apply AcceptAlike.of_covers
  intro path
  have hseparator := standsFor_slash_iff_eq caseSensitive
  have hsubtree := covers_mark_subtree_iff hseparator [] path (slash_ending hending)
  have hboth : ending.toList = "**".toList ∨ ending.toList = "**/".toList := by
    simpa [← String.toList_inj] using hending
  apply iff_of_true
  · simpa using hsubtree.2 coversAbove_nil
  · exact hboth.imp_right .inl

theorem accepts_repeated_ending_iff [Ignore.Library] (hending : ending ∈ ["**", "**/"])
    (hstars : ¬ "**".toList <:+ front.toList) :
    ∃ once twice, Matcher.ofPatterns? .glob caseSensitive [front ++ "/" ++ ending] = .ok once ∧
      Matcher.ofPatterns? .glob caseSensitive [front ++ "/**/" ++ ending] = .ok twice ∧
        ∀ isDirectory path, twice.accepts isDirectory path = true ↔
          ∃ entry below, path = entry ++ "/" ++ below ∧
            once.accepts isDirectory entry = true := by
  obtain ⟨once, honce, hentry⟩ := ofGlobs?_singleton (front ++ "/" ++ ending) '/' caseSensitive
  obtain ⟨twice, htwice, hpath⟩ := ofGlobs?_singleton (front ++ "/**/" ++ ending) '/' caseSensitive
  refine ⟨once, twice, honce, htwice, ?_⟩
  intro isDirectory path
  have hseparator := standsFor_slash_iff_eq caseSensitive
  have hcovers := covers_repeated_ending_iff hseparator path.toList hstars (slash_ending hending)
  have hpattern : (front ++ "/**/" ++ ending).toList =
      front.toList ++ "/**".toList ++ '/' :: ending.toList := by simp
  have hsubtree : (front ++ "/" ++ ending).toList = front.toList ++ '/' :: ending.toList := by simp
  rw [hpath, hpattern, hcovers, ← hsubtree]
  constructor
  · rintro ⟨entry, below, hwhole, hcovered⟩
    refine ⟨String.ofList entry, String.ofList below, ?_, ?_⟩
    · simp [← String.toList_inj, hwhole]
    · simpa [hentry] using hcovered
  · rintro ⟨entry, below, rfl, hcovered⟩
    exact ⟨entry.toList, below.toList, by simp, (hentry isDirectory entry).1 hcovered⟩

end

/-- A second mark makes a difference only behind a slash at the end of a pattern, where what is left
is below the paths that the pattern with one mark accepts. -/
theorem repeated_mark_differs_only_at_end [Ignore.Library] (caseSensitive : Bool) :
    (∀ front rest, rest ≠ "" →
      AcceptAlike caseSensitive (front ++ "**/**/" ++ rest) (front ++ "**/" ++ rest)) ∧
    ∀ ending ∈ ["**", "**/"],
      AcceptAlike caseSensitive ("**/" ++ ending) ending ∧
      (∀ front, AcceptAlike caseSensitive (front ++ "**/" ++ ending) (front ++ "**/*")) ∧
      ∀ front, ¬ "**".toList <:+ front.toList → ∃ once twice,
        Matcher.ofPatterns? .glob caseSensitive [front ++ "/" ++ ending] = .ok once ∧
          Matcher.ofPatterns? .glob caseSensitive [front ++ "/**/" ++ ending] = .ok twice ∧
            ∀ isDirectory path, twice.accepts isDirectory path = true ↔
              ∃ entry below, path = entry ++ "/" ++ below ∧
                once.accepts isDirectory entry = true := by
  refine ⟨fun front rest hrest => acceptAlike_repeated hrest, ?_⟩
  intro ending hending
  refine ⟨acceptAlike_everything hending, fun front => acceptAlike_mark_star hending, ?_⟩
  intro front hstars
  exact accepts_repeated_ending_iff hending hstars

theorem repeated_mark_in_middle_and_at_end :
    "b" ≠ "" ∧ "**" ∈ ["**", "**/"] ∧ ¬ "**".toList <:+ "a".toList ∧
      AcceptAlike true "a/**/**/b" "a/**/b" ∧ AcceptAlike true "**/**" "**" ∧
      AcceptAlike true "a/**/**" "a/**/*" ∧
      ∃ once twice, Matcher.ofPatterns? .glob true ["a/**"] = .ok once ∧
        Matcher.ofPatterns? .glob true ["a/**/**"] = .ok twice ∧
          (twice.accepts false "a/b" = true ↔
            ∃ entry below, "a/b" = entry ++ "/" ++ below ∧ once.accepts false entry = true) := by
  have hmiddle : "b" ≠ "" := by decide
  have hending : "**" ∈ ["**", "**/"] := by simp
  have hstars : ¬ "**".toList <:+ "a".toList := by decide
  obtain ⟨hinner, hends⟩ := repeated_mark_differs_only_at_end true
  obtain ⟨heverything, hstar, hdirectory⟩ := hends "**" hending
  obtain ⟨once, twice, honce, htwice, hbelow⟩ := hdirectory "a" hstars
  exact ⟨hmiddle, hending, hstars, hinner "a/" "b" hmiddle, heverything, hstar "a/", once, twice,
    honce, htwice, hbelow false "a/b"⟩

theorem repeated_mark_misses_directory :
    ∃ once twice, Matcher.ofPatterns? .glob true ["a/**"] = .ok once ∧
      Matcher.ofPatterns? .glob true ["a/**/**"] = .ok twice ∧
        once.accepts false "a" = true ∧ twice.accepts false "a" = false := by
  obtain ⟨once, honce, hcovers⟩ := ofGlobs?_singleton "a/**" '/' true
  obtain ⟨twice, htwice, hothers⟩ := ofGlobs?_singleton "a/**/**" '/' true
  refine ⟨once, twice, honce, htwice, ?_, ?_⟩
  · have hsplit : splitEnding "a/**".toList = ("a".toList, .subtree) := by decide
    have hrun : RunCovers (StandsFor (mode true)) '/' "a".toList "a".toList :=
      runCovers_self (standsFor_self true) (by decide)
    rw [hcovers, covers_iff_of_ne (by decide) hsplit]
    exact ⟨"a".toList, [], rfl, .last hrun, .inl rfl⟩
  · have hstars : ¬ "**".toList <:+ "a".toList := by decide
    have hbelow :=
      covers_repeated_ending_iff (standsFor_slash_iff_eq true) "a".toList hstars (.inl rfl)
    rw [Bool.eq_false_iff, ne_eq, hothers]
    intro hcovered
    obtain ⟨entry, below, hpath, -⟩ := hbelow.1 hcovered
    have hslash : '/' ∈ "a".toList := by simp [hpath]
    exact absurd hslash (by decide)

end FileSelection.Glob
