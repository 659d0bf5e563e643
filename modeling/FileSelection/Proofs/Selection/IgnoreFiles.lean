import FileSelection.Proofs.FileSystem.Canonical
import FileSelection.Proofs.FileSystem.Questions
import FileSelection.Proofs.Selection.FailedCalls

/-!
# Lines that are dropped from an ignore file

Two readers see the lines of an ignore file.  The first one drops what it takes for blank lines and
comments.  The second one is the library of ignore rules, which passes over blank lines and comments
by itself, so that dropping them changes nothing.  The two readers differ in the comments: the first
one looks for a `#` behind leading blanks, the second one only at the front of a line.
-/

namespace FileSelection

open Text

variable {σ : Type}

/-! ## Lines without a rule -/

/-- A `#` is the first character that is not blank, with blanks before it. -/
def IgnoreFile.isIndentedComment (line : List Char) : Bool :=
  line.head? != some '#' && (trimStart line).head? == some '#'

theorem IgnoreFile.isRule_eq_false_iff {line : List Char} :
    isRule line = false ↔ trimStart line = [] ∨ (trimStart line).head? = some '#' := by
  unfold isRule trim
  cases hline : trimStart line with
  | nil => simp [trimEnd, trimStart]
  | cons c rest =>
      rw [trimEnd_cons (not_isBlank_of_trimStart hline)]
      by_cases hc : c = '#'
      · simp [hc]
      · simp [hc]

theorem Ignore.isSkipped_of_dropped {line : List Char} (hdropped : IgnoreFile.isRule line = false)
    (hindented : IgnoreFile.isIndentedComment line = false) : IsSkipped (String.ofList line) := by
  rw [IsSkipped, String.toList_ofList]
  obtain hblank | hcomment := IgnoreFile.isRule_eq_false_iff.1 hdropped
  · exact .inl (List.dropWhile_eq_nil_iff.1 hblank)
  · exact .inr (by simpa [IgnoreFile.isIndentedComment, hcomment] using hindented)

/-! ## The rules of an ignore file -/

namespace IgnoreFile

/-- The lines of a text without the indented comments. -/
def unindented (text : List Char) : List String :=
  ((lines text).filter (!isIndentedComment ·)).map String.ofList

theorem unindented_eq {text : List Char}
    (h : ∀ line ∈ lines text, isIndentedComment line = false) :
    unindented text = (lines text).map String.ofList := by
  rw [unindented, List.filter_eq_self.2 fun line hline => by simp [h line hline]]

theorem isIndentedComment_of_isRule {line : List Char} (h : isRule line = true) :
    isIndentedComment line = false := by
  cases hindented : isIndentedComment line with
  | false => rfl
  | true =>
      have hcomment : (trimStart line).head? = some '#' := by
        simpa using (Bool.and_eq_true_iff.1 hindented).2
      exact absurd (isRule_eq_false_iff.2 (.inr hcomment)) (by simp [h])

theorem ruleLines_eq (text : List Char) :
    ruleLines text = (unindented text).filter fun line => isRule line.toList := by
  rw [ruleLines, unindented, List.filter_map, List.filter_filter]
  congr 1
  refine List.filter_congr fun line _ => ?_
  cases hrule : isRule line with
  | true => simp [hrule, isIndentedComment_of_isRule hrule]
  | false => simp [hrule]

theorem decisions?_ruleLines [Ignore.Library] (hskips : Ignore.Library.SkipsComments)
    (text : List Char) :
    Ignore.decisions? (ruleLines text) = Ignore.decisions? (unindented text) := by
  rw [ruleLines_eq]
  refine hskips.decisions?_filter fun line hline hdropped => ?_
  obtain ⟨characters, hmem, rfl⟩ := List.mem_map.1 hline
  have hindented := (List.mem_filter.1 hmem).2
  rw [String.toList_ofList] at hdropped
  exact Ignore.isSkipped_of_dropped hdropped (by simpa using hindented)

theorem ruleLines_unifyNewlines (text : List Char) :
    ruleLines (unifyNewlines text) = ruleLines text := by
  rw [ruleLines, lines_unifyNewlines, ruleLines]

theorem ruleLines_eq_nil_iff {text : List Char} :
    ruleLines text = [] ↔ ∀ line ∈ lines text, isRule line = false := by
  simp [ruleLines]

end IgnoreFile

section

variable [Ignore.Library]

namespace Selection

variable {host : Host σ} {selection : Selection σ} {file : Path} {state last : σ}
  {content : ByteArray} {text : String}

theorem excludesFrom_of_read (hread : host.read file state = some (.ok content, last))
    (htext : String.fromUTF8? content = some text) :
    selection.excludesFrom host file state =
      some (if IgnoreFile.ruleLines text.toList = [] then .ok selection
        else (Ignore.Library.compile? (IgnoreFile.ruleLines text.toList)).map fun rules =>
          selection.exclude (.matching (.ignore rules)), last) := by
  have hrules : IgnoreFile.rulesOf host file state =
      some (IgnoreFile.rulesIn (.ok content), last) := by
    rw [IgnoreFile.rulesOf_eq]
    exact (Act.bind_of_ok (Act.attempt_eq_ok_iff.2 hread)).trans (Act.ofExcept_apply _ _)
  have hin : IgnoreFile.rulesIn (.ok content) =
      if IgnoreFile.ruleLines text.toList = [] then .ok none
      else (Ignore.Library.compile? (IgnoreFile.ruleLines text.toList)).map some := by
    simp only [IgnoreFile.rulesIn, IgnoreFile.decode?, htext, Option.map_some,
      IgnoreFile.ruleLines_unifyNewlines, List.isEmpty_iff]
  rw [hin] at hrules
  by_cases hnone : IgnoreFile.ruleLines text.toList = []
  · rw [if_pos hnone] at hrules ⊢
    exact (Act.bind_of_ok hrules).trans rfl
  · rw [if_neg hnone] at hrules ⊢
    cases hlines : Ignore.Library.compile? (IgnoreFile.ruleLines text.toList) with
    | error failure =>
        rw [hlines] at hrules
        exact Act.bind_of_error hrules
    | ok rules =>
        rw [hlines] at hrules
        exact (Act.bind_of_ok hrules).trans rfl

/-- Of an ignore file that is a text, the lines other than the indented comments count, as if they
were all read as rules: `excludesFrom` fails as reading them does, and otherwise adds a matcher, or
none if nothing is left of the file, that accepts what their rules ignore. -/
theorem excludesFrom_reads_unindented_lines (hskips : Ignore.Library.SkipsComments)
    (host : Host σ) (selection : Selection σ)
    (hread : host.read file state = some (.ok content, last))
    (htext : String.fromUTF8? content = some text) :
    (∀ failure, selection.excludesFrom host file state = some (.error failure, last) ↔
      Ignore.Library.compile? (IgnoreFile.unindented text.toList) = .error failure) ∧
    (∀ rules, Ignore.Library.compile? (IgnoreFile.unindented text.toList) = .ok rules →
      ∃ added : Option Matcher,
        selection.excludesFrom host file state =
          some (.ok (selection.extend (added.toList.map .matching) .excludes), last) ∧
        (added = none ↔ ∀ line ∈ lines text.toList, IgnoreFile.isRule line = false) ∧
        ∀ isDirectory relative, added.any (·.accepts isDirectory relative) =
          (Matcher.ignore rules).accepts isDirectory relative) ∧
    ((∀ line ∈ lines text.toList, IgnoreFile.isIndentedComment line = false) →
      IgnoreFile.unindented text.toList = (lines text.toList).map String.ofList) := by
  rw [excludesFrom_of_read hread htext, ← IgnoreFile.ruleLines_eq_nil_iff]
  obtain ⟨failure, hfound, hall⟩ | ⟨found, rules, hfound, hall, hsame⟩ :=
    Ignore.cases_of_decisions? (IgnoreFile.decisions?_ruleLines hskips text.toList)
  · have hsome : IgnoreFile.ruleLines text.toList ≠ [] := fun hnone => by
      have hnothing := hskips.nothing
      rw [Ignore.decisions?, ← hnone, hfound] at hnothing
      cases hnothing
    rw [if_neg hsome, hfound, hall]
    exact ⟨fun failure => by simp [Except.map], nofun, IgnoreFile.unindented_eq⟩
  · rw [hfound, hall]
    refine ⟨fun failure => ⟨?_, nofun⟩, ?_, IgnoreFile.unindented_eq⟩
    · split <;> nofun
    · rintro _ ⟨⟩
      by_cases hnone : IgnoreFile.ruleLines text.toList = []
      · have hnothing := hskips.nothing
        rw [Ignore.decisions?, ← hnone, hfound] at hnothing
        rw [if_pos hnone]
        refine ⟨none, by simp [extend_nil], by simp [hnone], fun isDirectory relative => ?_⟩
        rw [Matcher.accepts, ← hsame, Except.ok.inj hnothing]
        rfl
      · rw [if_neg hnone]
        refine ⟨some (.ignore found), rfl, by simp [hnone], fun isDirectory relative => ?_⟩
        rw [Option.any_some, Matcher.accepts, hsame, Matcher.accepts]

end Selection

end

namespace Selection

/-! ## An ignore file with an indented comment -/

def ignoreFileOf (text : String) : FileSystem :=
  ⟨.directory [("i", .file text.toUTF8 0)], []⟩

theorem read_ignoreFileOf (text : String) :
    Session.host.read (Path.ofText "i") (Session.ofFiles (ignoreFileOf text) ()) =
      some (.ok text.toUTF8, Session.ofFiles (ignoreFileOf text) ()) := by
  have hread : (ignoreFileOf text).read (Path.ofText "i") = .ok text.toUTF8 := by
    rw [FileSystem.read, ignoreFileOf, FileSystem.locate_name (by decide) (by decide) (by decide),
      FileSystem.follow_name_cons rfl (by decide) (by decide) (by decide) rfl (by nofun),
      FileSystem.follow]
    rfl
  exact Session.host_read rfl hread

theorem comment_and_blank_line_are_no_rules :
    ∃ rules, Ignore.Library.compile? ["a/b", "#a", " ", "!a/b"] = .ok rules ∧
      ∃ added : Option Matcher,
        ignoringSelection.excludesFrom Session.host (Path.ofText "i")
            (Session.ofFiles (ignoreFileOf "a/b\n#a\n \n!a/b\n") ()) =
          some (.ok (ignoringSelection.extend (added.toList.map .matching) .excludes),
            Session.ofFiles (ignoreFileOf "a/b\n#a\n \n!a/b\n") ()) ∧
        added ≠ none ∧
        ∀ isDirectory relative, added.any (·.accepts isDirectory relative) =
          (Matcher.ignore rules).accepts isDirectory relative := by
  have hlines : lines "a/b\n#a\n \n!a/b\n".toList =
      ["a/b".toList, "#a".toList, [' '], "!a/b".toList] := by decide
  obtain ⟨-, hadded, hall⟩ := excludesFrom_reads_unindented_lines
    Ignore.Standard.skipsComments Session.host ignoringSelection
    (read_ignoreFileOf "a/b\n#a\n \n!a/b\n") (fromUTF8?_toUTF8 _)
  have hkept : IgnoreFile.unindented "a/b\n#a\n \n!a/b\n".toList = ["a/b", "#a", " ", "!a/b"] := by
    rw [hall (by rw [hlines]; decide), hlines]
    decide
  have hrules : (Ignore.Library.compile? ["a/b", "#a", " ", "!a/b"]).isOk = true := by
    decide +kernel
  cases hread : Ignore.Library.compile? ["a/b", "#a", " ", "!a/b"] with
  | error failure =>
      rw [hread] at hrules
      cases hrules
  | ok rules =>
      obtain ⟨added, hexcludes, hnone, haccepts⟩ := hadded rules (hkept ▸ hread)
      refine ⟨rules, rfl, added, hexcludes, fun h => ?_, haccepts⟩
      have hrule := hnone.1 h "a/b".toList (by rw [hlines]; decide)
      revert hrule
      decide

/-- What `excludesFrom` would be if it read all lines of an ignore file. -/
def ReadsEveryLine [Ignore.Library] : Prop :=
  ∀ (host : Host (Session Unit)) (selection : Selection (Session Unit)) file state content text
      rules, host.read file state = some (.ok content, state) →
    String.fromUTF8? content = some text →
    Ignore.Library.compile? ((lines text.toList).map String.ofList) = .ok rules →
      ∃ added : Option Matcher,
        selection.excludesFrom host file state =
          some (.ok (selection.extend (added.toList.map .matching) .excludes), state) ∧
        ∀ isDirectory relative, added.any (·.accepts isDirectory relative) =
          (Matcher.ignore rules).accepts isDirectory relative

theorem not_readsEveryLine [Ignore.Library] {rules : Ignore.Rules}
    (hrules : Ignore.Library.compile? [" #/x"] = .ok rules)
    (hignored : rules.ignores " #/x" = true) : ¬ ReadsEveryLine := by
  intro h
  have hlines : (lines " #/x\n".toList).map String.ofList = [" #/x"] := by decide
  have hdropped : IgnoreFile.ruleLines " #/x\n".toList = [] := by decide
  have hread := read_ignoreFileOf " #/x\n"
  have htext := fromUTF8?_toUTF8 " #/x\n"
  obtain ⟨added, hexcludes, haccepts⟩ :=
    h Session.host ignoringSelection _ _ _ _ rules hread htext (hlines ▸ hrules)
  rw [excludesFrom_of_read hread htext, if_pos hdropped] at hexcludes
  have hnone : added = none := by
    cases added with
    | none => rfl
    | some matcher => cases hexcludes
  have haccepted := haccepts false " #/x"
  rw [hnone, show (Matcher.ignore rules).accepts false " #/x" = true from hignored] at haccepted
  cases haccepted

/-- With any library for which a line with a blank before its `#` is a rule, `excludesFrom` misses
that rule. -/
theorem indented_comment_is_not_read :
    (∀ [Ignore.Library], ∀ rules, Ignore.Library.compile? [" #/x"] = .ok rules →
        rules.ignores " #/x" = true → ¬ ReadsEveryLine) ∧
      ¬ ∀ [Ignore.Library], Ignore.Library.SkipsComments → ReadsEveryLine := by
  refine ⟨fun _ => not_readsEveryLine, fun h => ?_⟩
  have hignored : (Ignore.Library.compile? [" #/x"]).toOption.map (·.ignores " #/x") =
      some true := by
    decide +kernel
  cases hrules : Ignore.Library.compile? [" #/x"] with
  | error failure =>
      rw [hrules] at hignored
      cases hignored
  | ok rules =>
      rw [hrules] at hignored
      exact not_readsEveryLine hrules (Option.some.inj hignored) (h Ignore.Standard.skipsComments)

end Selection

end FileSelection
