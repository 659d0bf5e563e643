import FileSelection.Ignore.Standard
import FileSelection.Proofs.Glob.Prefixed
import Mathlib.Data.List.Forall2

/-!
# Patterns and the segments of paths

Of the characters of a pattern without `**`, only a slash and `?` stand for a slash of the path.  A
pattern accepts the paths that its segments accept, segment by segment, after any of its `?` have
been turned into slashes.
-/

namespace FileSelection.Glob

open FileSelection.Regex FileSelection.Text

/-! ## Slashes of a pattern -/

structure KeepsSlash (same : Char → Char → Prop) : Prop where
  separator_iff : ∀ c, same '/' c ↔ c = '/'
  token_iff : ∀ token, same token '/' ↔ token = '/'

/-- Any of the marks for one character are turned into slashes. -/
def Turns (run turned : List Char) : Prop :=
  List.Forall₂ (fun token other => other = token ∨ token = '?' ∧ other = '/') run turned

section

variable {same : Char → Char → Prop} {token other : Char} {run turned word : List Char}

theorem slash_not_mem_of_tokenCovers (hsame : KeepsSlash same) (hany : token ≠ '?')
    (hslash : token ≠ '/') (h : TokenCovers same '/' token word) : '/' ∉ word := by
  by_cases hstar : token = '*'
  · subst hstar
    exact (not_same_slash_iff hsame.separator_iff).1 h
  · have htoken : token ∉ marks := by simp [marks, hstar, hany, hslash]
    obtain ⟨c, rfl, hc⟩ := (tokenCovers_literal_iff htoken).1 h
    rw [List.mem_singleton]
    rintro rfl
    exact hslash ((hsame.token_iff token).1 hc)

theorem slash_not_mem_of_runCovers (hsame : KeepsSlash same) (hany : '?' ∉ run) (hslash : '/' ∉ run)
    (h : RunCovers same '/' run word) : '/' ∉ word := by
  induction h with
  | nil => simp
  | cons htoken _ ih =>
      rw [List.mem_cons, not_or] at hany hslash
      have hfront := slash_not_mem_of_tokenCovers hsame (Ne.symm hany.1) (Ne.symm hslash.1) htoken
      rw [List.mem_append, not_or]
      exact ⟨hfront, ih hany.2 hslash.2⟩

theorem exists_turned_token (hsame : KeepsSlash same) (h : TokenCovers same '/' token word) :
    ∃ other, (other = token ∨ token = '?' ∧ other = '/') ∧ TokenCovers same '/' other word ∧
      [other].count '/' = word.count '/' := by
  by_cases hslash : token = '/'
  · subst hslash
    obtain rfl := (tokenCovers_slash_iff hsame.separator_iff).1 h
    exact ⟨'/', .inl rfl, h, rfl⟩
  · by_cases hany : token = '?' ∧ word = ['/']
    · obtain ⟨rfl, rfl⟩ := hany
      exact ⟨'/', .inr ⟨rfl, rfl⟩, (tokenCovers_slash_iff hsame.separator_iff).2 rfl, rfl⟩
    · have hword : '/' ∉ word := by
        by_cases hmark : token = '?'
        · subst hmark
          obtain ⟨c, rfl⟩ := h
          rw [List.mem_singleton]
          rintro rfl
          exact hany ⟨rfl, rfl⟩
        · exact slash_not_mem_of_tokenCovers hsame hmark hslash h
      refine ⟨token, .inl rfl, h, ?_⟩
      rw [List.count_eq_zero.2 hword, List.count_eq_zero]
      simp [Ne.symm hslash]

theorem exists_turned (hsame : KeepsSlash same) (h : RunCovers same '/' run word) :
    ∃ turned, Turns run turned ∧ RunCovers same '/' turned word ∧
      turned.count '/' = word.count '/' := by
  induction h with
  | nil => exact ⟨[], .nil, .nil, rfl⟩
  | cons htoken _ ih =>
      obtain ⟨other, hother, hfront, hcount⟩ := exists_turned_token hsame htoken
      obtain ⟨turned, hturned, hback, hcounts⟩ := ih
      refine ⟨other :: turned, .cons hother hturned, .cons hfront hback, ?_⟩
      rw [List.count_append, ← hcount, ← hcounts, ← List.count_append, List.singleton_append]

theorem Turns.runCovers (hsame : KeepsSlash same) (hturned : Turns run turned)
    (h : RunCovers same '/' turned word) : RunCovers same '/' run word := by
  induction h generalizing run with
  | nil =>
      cases hturned
      exact .nil
  | cons hother _ ih =>
      cases hturned with
      | cons htoken hturned =>
          refine .cons ?_ (ih hturned)
          rcases htoken with rfl | ⟨rfl, rfl⟩
          · exact hother
          · exact ⟨'/', (tokenCovers_slash_iff hsame.separator_iff).1 hother⟩

theorem count_le_of_runCovers (hsame : KeepsSlash same) (h : RunCovers same '/' run word) :
    run.count '/' ≤ word.count '/' := by
  induction h with
  | nil => exact Nat.le_refl _
  | @cons token run front back htoken _ ih =>
      by_cases hslash : token = '/'
      · subst hslash
        obtain rfl := (tokenCovers_slash_iff hsame.separator_iff).1 htoken
        simpa using ih
      · rw [List.count_cons_of_ne hslash, List.count_append]
        omega

/-! ## Segments of a pattern -/

theorem runCovers_at_slash_iff {segment part rest tail : List Char} (hsame : KeepsSlash same)
    (hpart : '/' ∉ part) (hcount : rest.count '/' = tail.count '/') :
    RunCovers same '/' (segment ++ '/' :: rest) (part ++ '/' :: tail) ↔
      RunCovers same '/' segment part ∧ RunCovers same '/' rest tail := by
  simp only [runCovers_append_iff, runCovers_cons_iff, tokenCovers_slash_iff hsame.separator_iff]
  constructor
  · rintro ⟨front, _, hword, hfront, _, back, rfl, rfl, hback⟩
    have hslashes := congrArg (List.count '/') hword
    have hleast := count_le_of_runCovers hsame hback
    simp only [List.count_append, List.count_cons_self, List.count_eq_zero.2 hpart] at hslashes
    have hfree : '/' ∉ front := List.count_eq_zero.1 (by omega)
    have hsplit := congrArg (splitAt ['/']) hword
    rw [List.singleton_append, splitAt_slash hpart, splitAt_slash hfree] at hsplit
    obtain ⟨rfl, -⟩ := List.cons.inj hsplit
    obtain ⟨-, rfl⟩ := List.cons.inj (List.append_cancel_left hword)
    exact ⟨hfront, hback⟩
  · rintro ⟨hfront, hback⟩
    exact ⟨part, _, rfl, hfront, ['/'], tail, rfl, rfl, hback⟩

theorem runCovers_iff_segments (hsame : KeepsSlash same) (hcount : run.count '/' = word.count '/') :
    RunCovers same '/' run word ↔
      List.Forall₂ (RunCovers same '/') (splitAt ['/'] run) (splitAt ['/'] word) := by
  induction hlength : run.length using Nat.strongRecOn generalizing run word with
  | ind length ih =>
      obtain ⟨segment, hsegment, rfl | ⟨rest, rfl⟩⟩ := exists_first_segment run
      · rw [List.count_eq_zero.2 hsegment, eq_comm, List.count_eq_zero] at hcount
        rw [splitAt_of_slash_not_mem hsegment, splitAt_of_slash_not_mem hcount, List.forall₂_cons,
          and_iff_left .nil]
      · obtain ⟨part, hpart, rfl | ⟨tail, rfl⟩⟩ := exists_first_segment word
        · rw [List.count_eq_zero.2 hpart, List.count_eq_zero] at hcount
          simp at hcount
        · have hcounts : rest.count '/' = tail.count '/' := by
            simpa [List.count_eq_zero.2 hsegment, List.count_eq_zero.2 hpart] using hcount
          have hshorter : rest.length < length := by
            simp [← hlength]
            omega
          rw [splitAt_slash hsegment, splitAt_slash hpart, List.forall₂_cons,
            runCovers_at_slash_iff hsame hpart hcounts]
          exact and_congr_right fun _ => ih rest.length hshorter hcounts rfl

/-- A run covers what its segments cover, once some of its marks have been turned into slashes. -/
theorem runCovers_iff_exists_turned (hsame : KeepsSlash same) :
    RunCovers same '/' run word ↔ ∃ turned, Turns run turned ∧
      List.Forall₂ (RunCovers same '/') (splitAt ['/'] turned) (splitAt ['/'] word) := by
  constructor
  · intro h
    obtain ⟨turned, hturned, hcovers, hcount⟩ := exists_turned hsame h
    exact ⟨turned, hturned, (runCovers_iff_segments hsame hcount).1 hcovers⟩
  · rintro ⟨turned, hturned, hsegments⟩
    have hcount := hsegments.length_eq
    rw [length_splitAt_slash, length_splitAt_slash, Nat.add_right_cancel_iff] at hcount
    exact hturned.runCovers hsame ((runCovers_iff_segments hsame hcount).2 hsegments)

/-! ## Patterns without deep wildcards -/

theorem covers_iff_runCovers (hdeep : ¬ "**".toList <:+: run) (hslash : ¬ "/".toList <:+ run) :
    Covers same '/' run word ↔ RunCovers same '/' run word := by
  have hsubtree : ¬ "/**".toList <:+ run := fun hsuffix =>
    hdeep (.trans (by decide) hsuffix.isInfix)
  have hmark : ¬ "**/".toList <:+: run := fun hwithin => hdeep (.trans (by decide) hwithin)
  have hne : run ≠ "**".toList := fun h => hdeep (h ▸ List.infix_rfl)
  rw [covers_iff_runsCover hslash hsubtree hne, splitAt_of_unmarked hmark, runsCover_singleton_iff]

theorem Turns.eq_self (hturned : Turns run turned) (hmark : '?' ∉ run) : turned = run := by
  induction hturned with
  | nil => rfl
  | cons hother _ ih =>
      rw [List.mem_cons, not_or] at hmark
      rcases hother with rfl | ⟨rfl, -⟩
      · rw [ih hmark.2]
      · exact absurd rfl hmark.1

theorem Turns.not_deep (hturned : Turns run turned) (hdeep : ¬ "**".toList <:+: run) :
    ¬ "**".toList <:+: turned := by
  have hmark : "**".toList = ['*', '*'] := by simp
  rw [hmark] at hdeep ⊢
  rintro ⟨front, back, rfl⟩
  have hstars := List.forall₂_drop_append _ front ['*', '*']
    (List.forall₂_take_append run (front ++ ['*', '*']) back hturned)
  obtain ⟨first, _, hfirst, hrest, hrun⟩ := List.forall₂_cons_right_iff.1 hstars
  obtain ⟨second, _, hsecond, hnil, rfl⟩ := List.forall₂_cons_right_iff.1 hrest
  cases hnil
  obtain rfl : '*' = first := by simpa using hfirst
  obtain rfl : '*' = second := by simpa using hsecond
  have hwithin := (List.drop_suffix front.length (run.take (front ++ ['*', '*']).length)).isInfix
  rw [hrun] at hwithin
  exact hdeep (hwithin.trans (List.take_prefix _ run).isInfix)

theorem forall₂_covers_iff {words : List (List Char)} (hdeep : ¬ "**".toList <:+: turned) :
    List.Forall₂ (Covers same '/') (splitAt ['/'] turned) words ↔
      List.Forall₂ (RunCovers same '/') (splitAt ['/'] turned) words := by
  have hsegments : ∀ segment ∈ splitAt ['/'] turned,
      ¬ "**".toList <:+: segment ∧ ¬ "/".toList <:+ segment := by
    intro segment hsegment
    have hwithin := infix_of_mem_splitAt (by simp) hsegment
    have hfree := slash_not_mem_of_mem_splitAt hsegment
    exact ⟨fun h => hdeep (h.trans hwithin), fun h => hfree (h.subset (by decide))⟩
  constructor
  · intro h
    refine ((List.forall₂_and_left _ _).2 ⟨hsegments, h⟩).imp fun segment word hcovers => ?_
    exact (covers_iff_runCovers hcovers.1.1 hcovers.1.2).1 hcovers.2
  · intro h
    refine ((List.forall₂_and_left _ _).2 ⟨hsegments, h⟩).imp fun segment word hcovers => ?_
    exact (covers_iff_runCovers hcovers.1.1 hcovers.1.2).2 hcovers.2

theorem covers_iff_segments (hsame : KeepsSlash same) (hdeep : ¬ "**".toList <:+: run)
    (hslash : ¬ "/".toList <:+ run) :
    Covers same '/' run word ↔ ∃ turned, Turns run turned ∧
      List.Forall₂ (Covers same '/') (splitAt ['/'] turned) (splitAt ['/'] word) := by
  rw [covers_iff_runCovers hdeep hslash, runCovers_iff_exists_turned hsame]
  refine exists_congr fun turned => and_congr_right fun hturned => ?_
  exact (forall₂_covers_iff (hturned.not_deep hdeep)).symm

end

/-! ## Matchers -/

theorem keepsSlash_standsFor (caseSensitive : Bool) :
    KeepsSlash (StandsFor (mode caseSensitive)) where
  separator_iff := standsFor_slash_iff_eq caseSensitive
  token_iff := standsFor_iff_eq_slash caseSensitive

def Accepts [Ignore.Library] (caseSensitive : Bool) (pattern path : List Char) : Prop :=
  ∃ matcher, Matcher.ofPatterns? .glob caseSensitive [String.ofList pattern] = .ok matcher ∧
    ∀ isDirectory, matcher.accepts isDirectory (String.ofList path) = true

theorem accepts_iff_covers [Ignore.Library] {caseSensitive : Bool} {pattern path : List Char} :
    Accepts caseSensitive pattern path ↔
      Covers (StandsFor (mode caseSensitive)) '/' pattern path := by
  constructor
  · rintro ⟨matcher, hmatcher, haccepts⟩
    simpa using (accepts_iff_of_ofPatterns hmatcher true _).1 (haccepts true)
  · intro h
    obtain ⟨matcher, hmatcher, hcovers⟩ :=
      ofGlobs?_singleton (String.ofList pattern) '/' caseSensitive
    exact ⟨matcher, hmatcher, fun isDirectory => (hcovers isDirectory _).2 (by simpa using h)⟩

/-- Without `**`, a pattern accepts what its segments accept one by one, except that each `?` may
stand for a slash as well. -/
theorem question_mark_may_stand_for_slash [Ignore.Library] (caseSensitive : Bool) (pattern : String)
    (hdeep : ¬ "**".toList <:+: pattern.toList) (hslash : ¬ "/".toList <:+ pattern.toList) :
    ∃ matcher, Matcher.ofPatterns? .glob caseSensitive [pattern] = .ok matcher ∧
      ∀ isDirectory path,
        (matcher.accepts isDirectory path = true ↔ ∃ turned, Turns pattern.toList turned ∧
          List.Forall₂ (Accepts caseSensitive) (splitAt ['/'] turned)
            (splitAt ['/'] path.toList)) ∧
        ('?' ∉ pattern.toList → matcher.accepts isDirectory path = true →
          path.toList.count '/' = pattern.toList.count '/' ∧
            List.Forall₂ (Accepts caseSensitive) (splitAt ['/'] pattern.toList)
              (splitAt ['/'] path.toList)) := by
  obtain ⟨matcher, hmatcher, hcovers⟩ := ofGlobs?_singleton pattern '/' caseSensitive
  refine ⟨matcher, hmatcher, ?_⟩
  intro isDirectory path
  have hsame : Covers (StandsFor (mode caseSensitive)) '/' = Accepts caseSensitive := by
    funext segment part
    exact propext accepts_iff_covers.symm
  have hsegments : matcher.accepts isDirectory path = true ↔ ∃ turned,
      Turns pattern.toList turned ∧ List.Forall₂ (Accepts caseSensitive) (splitAt ['/'] turned)
        (splitAt ['/'] path.toList) := by
    rw [hcovers, covers_iff_segments (keepsSlash_standsFor caseSensitive) hdeep hslash, hsame]
  refine ⟨hsegments, ?_⟩
  intro hmark haccepts
  obtain ⟨turned, hturned, hparts⟩ := hsegments.1 haccepts
  obtain rfl := hturned.eq_self hmark
  have hlength := hparts.length_eq
  rw [length_splitAt_slash, length_splitAt_slash] at hlength
  exact ⟨by omega, hparts⟩

theorem covers_name_in_directory :
    Covers (StandsFor (mode true)) '/' "a/*".toList "a/b".toList := by
  have hstar : TokenCovers (StandsFor (mode true)) '/' '*' ['b'] :=
    (not_same_slash_iff (standsFor_slash_iff_eq true)).2 (by decide)
  have hfront : RunCovers (StandsFor (mode true)) '/' "a/".toList "a/".toList :=
    runCovers_self (standsFor_self true) (by decide)
  rw [covers_iff_runCovers (by decide) (by decide)]
  exact runCovers_append_iff.2 ⟨"a/".toList, ['b'], rfl, hfront, .cons hstar .nil⟩

theorem star_stays_in_segment :
    ¬ "**".toList <:+: "a/*".toList ∧ ¬ "/".toList <:+ "a/*".toList ∧ '?' ∉ "a/*".toList ∧
      ∃ matcher, Matcher.ofPatterns? .glob true ["a/*"] = .ok matcher ∧
        matcher.accepts false "a/b" = true ∧ "a/b".toList.count '/' = "a/*".toList.count '/' ∧
          List.Forall₂ (Accepts true) (splitAt ['/'] "a/*".toList)
            (splitAt ['/'] "a/b".toList) := by
  have hdeep : ¬ "**".toList <:+: "a/*".toList := by decide
  have hslash : ¬ "/".toList <:+ "a/*".toList := by decide
  have hmark : '?' ∉ "a/*".toList := by decide
  obtain ⟨matcher, hmatcher, hsegments⟩ :=
    question_mark_may_stand_for_slash true "a/*" hdeep hslash
  have haccepts : matcher.accepts false "a/b" = true := by
    rw [accepts_iff_of_ofPatterns hmatcher]
    exact covers_name_in_directory
  exact ⟨hdeep, hslash, hmark, matcher, hmatcher, haccepts,
    (hsegments false "a/b").2 hmark haccepts⟩

theorem question_mark_accepts_slash :
    ∃ matcher, Matcher.ofPatterns? .glob true ["a?b"] = .ok matcher ∧
      matcher.accepts false "a/b" = true ∧ "a/b".toList.count '/' ≠ "a?b".toList.count '/' := by
  obtain ⟨matcher, hmatcher, hcovers⟩ := ofGlobs?_singleton "a?b" '/' true
  have hself := standsFor_self true
  have hany : TokenCovers (StandsFor (mode true)) '/' '?' ['/'] := ⟨'/', rfl⟩
  have hrun : RunCovers (StandsFor (mode true)) '/' "a?b".toList "a/b".toList :=
    .cons (tokenCovers_self hself (by decide))
      (.cons hany (.cons (tokenCovers_self hself (by decide)) .nil))
  refine ⟨matcher, hmatcher, ?_, by decide⟩
  rw [hcovers, covers_iff_runCovers (by decide) (by decide)]
  exact hrun

end FileSelection.Glob
