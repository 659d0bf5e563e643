import FileSelection.Proofs.Glob.Meaning
import FileSelection.Proofs.Regex.CharSet

/-!
# Compiled patterns

Each piece of an expression describes the same words wherever it stands, apart from the anchors.
The pieces of a compiled pattern describe what the pieces of the pattern cover.
-/

namespace FileSelection.Glob

open FileSelection.Regex FileSelection.Text

/-- Whether a character of a path is one that a character of a pattern stands for. -/
def StandsFor (mode : Mode) (token c : Char) : Prop :=
  (CharSet.ofChar mode.alphabet mode.ignoreCase false token.toNat).has c = true

structure Spells (mode : Mode) (parts : List Part) (meaning : List Char → Prop) : Prop where
  plain : ∀ part ∈ parts, (mode.part part).IsPlain
  describes_iff : ∀ before word after,
    (mode.parts parts).Describes before word after ↔ meaning word

/-! ## Characters -/

theorem standsFor_iff_eq {mode : Mode} {token c : Char} (h : mode.ignoreCase = false) :
    StandsFor mode token c ↔ token = c := by
  rw [StandsFor, h, CharSet.has_ofChar_uncased rfl, Char.toNat_inj, eq_comm]

theorem standsFor_iff_of_cased {token c : Char} (h : isCased token.toNat = true) :
    StandsFor (mode false) token c ↔
      lowerCode c.toNat ∈ lowerCode token.toNat :: twins (lowerCode token.toNat) := by
  rw [← toNat_lowerChar_eq_lowerCode c]
  exact CharSet.has_ofChar_cased h

theorem standsFor_iff_of_uncased {token c : Char} (h : isCased token.toNat = false) :
    StandsFor (mode false) token c ↔ c = token := by
  have huncased : (true && Alphabet.unicode.isCased token.toNat) = false := by
    rwa [Bool.true_and]
  rw [← Char.toNat_inj]
  exact CharSet.has_ofChar_uncased huncased

theorem standsFor_self (caseSensitive : Bool) (c : Char) : StandsFor (mode caseSensitive) c c :=
  CharSet.has_ofChar_self _ c

theorem standsFor_slash_iff_eq (caseSensitive : Bool) (c : Char) :
    StandsFor (mode caseSensitive) '/' c ↔ c = '/' := by
  cases caseSensitive with
  | true => exact (standsFor_iff_eq rfl).trans eq_comm
  | false => exact standsFor_iff_of_uncased (by decide +kernel)

theorem standsFor_iff_eq_slash (caseSensitive : Bool) (token : Char) :
    StandsFor (mode caseSensitive) token '/' ↔ token = '/' := by
  cases caseSensitive with
  | true => exact standsFor_iff_eq rfl
  | false =>
      have huncased : isCased ('/' : Char).toNat = false := by decide +kernel
      cases hcased : isCased token.toNat with
      | false => exact (standsFor_iff_of_uncased hcased).trans eq_comm
      | true =>
          have hne : token ≠ '/' := by
            rintro rfl
            exact Bool.false_ne_true (huncased.symm.trans hcased)
          have hlower : lowerCode ('/' : Char).toNat = 47 := by decide +kernel
          rw [standsFor_iff_of_cased hcased, iff_false_right hne, hlower, List.mem_cons, not_or]
          constructor
          · intro hcode
            have hlowered := lowerCode_eq_of_lt (by omega : lowerCode token.toNat < 65)
            exact hne (Char.toNat_inj.1 (hlowered.symm.trans hcode.symm))
          · intro htwin
            have := letter_of_mem_twins htwin
            omega

theorem outsidePart_singleton (mode : Mode) (separator : Char) :
    outsidePart mode [separator] =
      .other (.many (.ofChar mode.alphabet mode.ignoreCase true separator.toNat)
        ⟨0, none, false⟩) := rfl

namespace Spells

variable {mode : Mode} {parts : List Part} {meaning : List Char → Prop}

theorem congr {meaning' : List Char → Prop} (h : Spells mode parts meaning)
    (hmeaning : ∀ word, meaning word ↔ meaning' word) : Spells mode parts meaning' where
  plain := h.plain
  describes_iff before word after := (h.describes_iff before word after).trans (hmeaning word)

theorem nil : Spells mode [] (· = []) where
  plain := by simp
  describes_iff _ _ _ := Iff.rfl

theorem append {parts' : List Part} {meaning' : List Char → Prop} (h : Spells mode parts meaning)
    (h' : Spells mode parts' meaning') :
    Spells mode (parts ++ parts') fun word =>
      ∃ front back, word = front ++ back ∧ meaning front ∧ meaning' back where
  plain part hpart := (List.mem_append.1 hpart).elim (h.plain part) (h'.plain part)
  describes_iff before word after := by
    simp only [Mode.parts, List.map_append, describes_seqAll_append]
    refine exists_congr fun front => exists_congr fun back => and_congr_right fun _ => ?_
    exact and_congr (h.describes_iff ..) (h'.describes_iff ..)

theorem char (token : Char) :
    Spells mode [charPart token] fun word => ∃ c, word = [c] ∧ StandsFor mode token c where
  plain := by simp [charPart, Mode.part, IsPlain]
  describes_iff _ _ _ := Iff.rfl

theorem any (hmode : mode.dotAll = true) :
    Spells mode [.any] fun word => ∃ c, word = [c] where
  plain := by simp [Mode.part, IsPlain]
  describes_iff before word after := by
    simp [Mode.parts, Mode.part, seqAll, Describes, hmode, CharSet.all, CharSet.has]

theorem anyPart (hmode : mode.dotAll = true) (reluctant : Bool) :
    Spells mode [Glob.anyPart mode reluctant] fun _ => True where
  plain := by simp [Glob.anyPart, Mode.part, repeated, IsPlain]
  describes_iff before word after := by
    simp [Mode.parts, Glob.anyPart, Mode.part, repeated, seqAll, Describes, hmode, CharSet.all,
      CharSet.has]

theorem outside (separator : Char) :
    Spells mode [outsidePart mode [separator]] fun word =>
      ∀ c ∈ word, ¬ StandsFor mode separator c where
  plain := by simp [outsidePart_singleton, Mode.part, IsPlain]
  describes_iff before word after := by
    simp [Mode.parts, outsidePart_singleton, Mode.part, seqAll, Describes, StandsFor,
      CharSet.has_ofChar_inverse]

theorem optional (index : Nat) (h : Spells mode parts meaning) :
    Spells mode [optionalPart mode index parts] fun word => word = [] ∨ meaning word where
  plain := by
    simpa [optionalPart, Mode.part, IsPlain, Mode.parts] using
      isPlain_seqAll (List.forall_mem_map.2 h.plain)
  describes_iff before word after := or_congr_right (h.describes_iff before word after)

theorem matchesAll_iff (h : Spells mode parts meaning) (hmode : mode.multiLine = false)
    (text : List Char) :
    (mode.parts (.anchor .lineStart :: (parts ++ [.anchor .lineEnd]))).matchesAll text = true ↔
      meaning text := by
  have hplain : (mode.parts (.anchor .lineStart :: (parts ++ [.anchor .lineEnd]))).IsPlain := by
    refine isPlain_seqAll (List.forall_mem_map.2 ?_)
    simp only [List.forall_mem_cons, List.forall_mem_append, List.not_mem_nil, false_imp_iff,
      implies_true, and_true]
    exact ⟨trivial, h.plain, trivial⟩
  rw [Regex.matchesAll_iff hplain]
  simp only [Mode.parts, List.map_cons, List.map_append, describes_seqAll_cons,
    describes_seqAll_append]
  constructor
  · rintro ⟨_, _, htext, ⟨rfl, -⟩, word, _, rfl, hword, _, _, rfl, ⟨rfl, -⟩, hrest⟩
    obtain rfl : _ = [] := hrest
    simpa [htext] using (h.describes_iff ..).1 hword
  · intro htext
    refine ⟨[], text, rfl, ⟨rfl, ?_⟩, text, [], by simp, (h.describes_iff ..).2 htext,
      [], [], rfl, ⟨rfl, ?_⟩, rfl⟩
    · simp [Mode.place, hmode, Anchor.holds]
    · simp [Mode.place, hmode, Anchor.holds]

end Spells

/-! ## Pieces of patterns -/

section

variable {mode : Mode} (hmode : mode.dotAll = true) (separator : Char)

include hmode

theorem spells_token (token : Char) :
    Spells mode (tokenParts mode [separator] token)
      (TokenCovers (StandsFor mode) separator token) := by
  unfold tokenParts
  split
  · obtain rfl : token = '*' := by simp_all
    exact .outside separator
  · split
    · obtain rfl : token = '?' := by simp_all
      exact .any hmode
    · split
      · obtain rfl : token = '/' := by simp_all
        exact .char separator
      · have hstar : token ≠ '*' := by simp_all
        have hmark : token ≠ '?' := by simp_all
        have hslash : token ≠ '/' := by simp_all
        refine (Spells.char token).congr fun word => ?_
        simp [TokenCovers]

theorem spells_run (run : List Char) :
    Spells mode (runParts mode [separator] run) (RunCovers (StandsFor mode) separator run) := by
  induction run with
  | nil =>
      refine Spells.nil.congr fun word => ⟨?_, ?_⟩
      · rintro rfl
        exact .nil
      · rintro ⟨⟩
        rfl
  | cons token run ih =>
      exact ((spells_token hmode separator token).append ih).congr fun word =>
        runCovers_cons_iff.symm

theorem spells_deep (index : Nat) :
    Spells mode [deepPart mode [separator] index] (DeepCovers (StandsFor mode) separator) := by
  refine (((Spells.anyPart hmode true).append (.char separator)).optional index).congr fun word =>
    or_congr_right ?_
  constructor
  · rintro ⟨front, back, rfl, -, c, rfl, hc⟩
    exact ⟨front, c, rfl, hc⟩
  · rintro ⟨front, c, rfl, hc⟩
    exact ⟨front, [c], rfl, trivial, c, rfl, hc⟩

theorem spells_body (opened : Nat) (run : List Char) (runs : List (List Char)) :
    Spells mode (bodyParts mode [separator] opened (run :: runs))
      (RunsCover (StandsFor mode) separator (run :: runs)) := by
  induction runs generalizing opened run with
  | nil => exact (spells_run hmode separator run).congr fun word => runsCover_singleton_iff.symm
  | cons next runs ih =>
      have hrest := (spells_deep hmode separator (opened + 1)).append (ih (opened + 1) next)
      exact ((spells_run hmode separator run).append hrest).congr fun word =>
        runsCover_cons_cons_iff.symm

theorem spells_ending (index : Nat) (ending : Ending) :
    Spells mode (endingParts mode [separator] index ending)
      (EndingCovers (StandsFor mode) separator ending) := by
  cases ending with
  | exact => exact .nil
  | openEnd => exact .outside separator
  | subtree =>
      refine (((Spells.char separator).append (.anyPart hmode false)).optional index).congr
        fun word => or_congr_right ?_
      constructor
      · rintro ⟨_, rest, rfl, ⟨c, rfl, hc⟩, -⟩
        exact ⟨c, rest, rfl, hc⟩
      · rintro ⟨c, rest, rfl, hc⟩
        exact ⟨[c], rest, rfl, ⟨c, rfl, hc⟩, trivial⟩

theorem matchesAll_patternParts_iff (hline : mode.multiLine = false) (pattern path : List Char) :
    (mode.parts (patternParts mode [separator] pattern)).matchesAll path = true ↔
      Covers (StandsFor mode) separator pattern path := by
  unfold patternParts
  cases hall : isEverything pattern with
  | true =>
      have hpattern : pattern = "**".toList ∨ pattern = "**/".toList := by
        simpa [isEverything] using hall
      have hcovers : Covers (StandsFor mode) separator pattern path :=
        hpattern.elim .inl fun h => .inr (.inl h)
      simpa [hcovers] using (Spells.anyPart hmode false).matchesAll_iff hline path
  | false =>
      cases hsplit : splitEnding pattern with
      | mk body ending =>
          rw [covers_iff_of_ne hall hsplit]
          cases hruns : splitAt "**/".toList body with
          | nil => exact absurd hruns (splitAt_ne_nil _ _)
          | cons run runs =>
              have hinner := (spells_body hmode separator 0 run runs).append
                (spells_ending hmode separator (run :: runs).length ending)
              have hwhole := hinner.matchesAll_iff hline path
              simpa only [hsplit, hruns, Bool.false_eq_true, if_false] using hwhole

end

/-! ## Matchers -/

def compiled (pattern separator : String) (caseSensitive : Bool) : Expression where
  source := toRegex pattern separator
  mode := mode caseSensitive
  regex := (mode caseSensitive).parts
    (patternParts (mode caseSensitive) separator.toList pattern.toList)

theorem compile?_eq_compiled (pattern : String) {separator : String} (hseparator : separator ≠ "")
    (caseSensitive : Bool) :
    compile? pattern separator caseSensitive = .ok (compiled pattern separator caseSensitive) := by
  have hne : separator.toList ≠ [] := fun h => hseparator (String.toList_eq_nil_iff.1 h)
  have hparse : Regex.parse? (mode caseSensitive) (regexText separator.toList pattern.toList) = _ :=
    parse?_regexText rfl hne pattern.toList
  simp [compile?, Expression.compile?, toRegex, hparse, Except.map, compiled]

theorem compileGlobs?_eq (patterns : List String) {separator : String} (hseparator : separator ≠ "")
    (caseSensitive : Bool) :
    Matcher.compileGlobs? patterns separator caseSensitive =
      .ok (patterns.map fun pattern => compiled pattern separator caseSensitive) := by
  unfold Matcher.compileGlobs?
  induction patterns with
  | nil => rfl
  | cons pattern patterns ih =>
      rw [List.mapM_cons, compile?_eq_compiled pattern hseparator caseSensitive, ih]
      rfl

theorem ofGlobs?_eq (patterns : List String) (separator : Char) (caseSensitive : Bool) :
    Matcher.ofGlobs? patterns (String.singleton separator) caseSensitive =
      .ok (.glob patterns caseSensitive
        (patterns.map fun pattern => compiled pattern (String.singleton separator) caseSensitive)) := by
  rw [Matcher.ofGlobs?, compileGlobs?_eq patterns (by simp) caseSensitive]
  rfl

theorem accepts_compiled_iff (pattern : String) (separator : Char) (caseSensitive : Bool)
    (path : String) :
    (compiled pattern (String.singleton separator) caseSensitive).accepts path = true ↔
      Covers (StandsFor (mode caseSensitive)) separator pattern.toList path.toList := by
  simp only [Expression.accepts, compiled, String.toList_singleton]
  exact matchesAll_patternParts_iff rfl separator rfl pattern.toList path.toList

theorem ofGlobs?_singleton (pattern : String) (separator : Char) (caseSensitive : Bool) :
    ∃ matcher, Matcher.ofGlobs? [pattern] (String.singleton separator) caseSensitive = .ok matcher ∧
      ∀ isDirectory path, matcher.accepts isDirectory path = true ↔
        Covers (StandsFor (mode caseSensitive)) separator pattern.toList path.toList := by
  refine ⟨_, ofGlobs?_eq [pattern] separator caseSensitive, fun isDirectory path => ?_⟩
  simpa [Matcher.accepts] using accepts_compiled_iff pattern separator caseSensitive path

theorem accepts_iff_of_ofPatterns [Ignore.Library] {pattern : String} {caseSensitive : Bool}
    {matcher : Matcher} (h : Matcher.ofPatterns? .glob caseSensitive [pattern] = .ok matcher)
    (isDirectory : Bool) (path : String) : matcher.accepts isDirectory path = true ↔
      Covers (StandsFor (mode caseSensitive)) '/' pattern.toList path.toList := by
  obtain ⟨other, hother, hcovers⟩ := ofGlobs?_singleton pattern '/' caseSensitive
  obtain rfl : matcher = other := Except.ok.inj (h.symm.trans hother)
  exact hcovers isDirectory path

def AcceptAlike [Ignore.Library] (caseSensitive : Bool) (pattern other : String) : Prop :=
  ∃ first second, Matcher.ofPatterns? .glob caseSensitive [pattern] = .ok first ∧
    Matcher.ofPatterns? .glob caseSensitive [other] = .ok second ∧
      ∀ isDirectory path, first.accepts isDirectory path = second.accepts isDirectory path

theorem AcceptAlike.of_covers [Ignore.Library] {caseSensitive : Bool} {pattern other : String}
    (h : ∀ path, Covers (StandsFor (mode caseSensitive)) '/' pattern.toList path ↔
      Covers (StandsFor (mode caseSensitive)) '/' other.toList path) :
    AcceptAlike caseSensitive pattern other := by
  obtain ⟨first, hfirst, haccepts⟩ := ofGlobs?_singleton pattern '/' caseSensitive
  obtain ⟨second, hsecond, hothers⟩ := ofGlobs?_singleton other '/' caseSensitive
  refine ⟨first, second, hfirst, hsecond, ?_⟩
  intro isDirectory path
  rw [Bool.eq_iff_iff, haccepts, hothers, h]

/-- Every pattern compiles, and a matcher of one pattern accepts exactly what the pattern covers. -/
theorem glob_compiles_and_accepts_iff_covers (pattern : String) :
    (∀ separator caseSensitive, separator ≠ "" →
      ∃ expression, Matcher.compileGlobs? [pattern] separator caseSensitive = .ok [expression]) ∧
    ∀ separator : Char, ∃ matcher,
      Matcher.ofGlobs? [pattern] (String.singleton separator) true = .ok matcher ∧
        ∀ isDirectory path, matcher.accepts isDirectory path = true ↔
          Covers (fun token c => token = c) separator pattern.toList path.toList := by
  constructor
  · intro separator caseSensitive hseparator
    exact ⟨_, compileGlobs?_eq [pattern] hseparator caseSensitive⟩
  · intro separator
    have hsame : StandsFor (mode true) = fun token c => token = c := by
      funext token c
      exact propext (standsFor_iff_eq rfl)
    simpa only [hsame] using ofGlobs?_singleton pattern separator true

theorem unclosed_bracket_glob_compiles : "::" ≠ "" ∧
    ∃ expression, Matcher.compileGlobs? ["***/[a"] "::" false = .ok [expression] :=
  ⟨by decide, (glob_compiles_and_accepts_iff_covers "***/[a").1 "::" false (by decide)⟩

end FileSelection.Glob
