import FileSelection.Proofs.FileSystem.Refusals
import FileSelection.Proofs.Glob.Compilation
import FileSelection.Proofs.Ignore.Laws

/-!
# Failures of making a selection

Globs are always understood and so are the patterns with segments.  Making a selection from the
patterns of a command line or a settings file can fail in a way that a run does not report only at
an ignore rule, or where the word `--` has taken the place of a pattern.
-/

namespace FileSelection

open Failure

/-! ## Rules -/

namespace Ignore

variable [Library]

inductive Breaks (line : String) : Failure → Prop
  | badExpression : Library.compile? [line] = .error .badExpression → Breaks line .badExpression
  | uncountable : Library.compile? [line] = .error .uncountable → Breaks line .uncountable

theorem Library.ReadsByLine.compile?_failures (hreads : ReadsByLine) (lines : List String) :
    Only (ReportedOr fun failure => ∃ line ∈ lines, Breaks line failure) (compile? lines) := by
  refine (hreads.compile?_faults lines).mono ?_
  rintro failure ⟨line, hline, hfailure⟩
  obtain rfl | hfault := hreads.faults line failure hfailure
  · exact .inl hreads.refusal
  cases hfault with
  | badExpression => exact .inr ⟨line, hline, .badExpression hfailure⟩
  | uncountable => exact .inr ⟨line, hline, .uncountable hfailure⟩
  | longNumber digits => exact .inl rfl
  | alphabetClash => exact .inl rfl

end Ignore

namespace Engine

theorem ofName?_name (engine : Engine) : ofName? engine.name = .ok engine := by
  cases engine <;> rfl

theorem name_of_ofName? {name : String} {engine : Engine} (h : ofName? name = .ok engine) :
    engine.name = name := by
  unfold ofName? at h
  split at h <;> cases h <;> rfl

theorem ofName?_reported [Ignore.Library] (name : String) : Only Reported (ofName? name) := by
  unfold ofName?
  split
  · exact .ok _
  · exact .ok _
  · exact .ok _
  · exact .error rfl

end Engine

theorem Matcher.ofPatterns?_failures [Ignore.Library] (hreads : Ignore.Library.ReadsByLine)
    (engine : Engine) (caseSensitive : Bool) (patterns : List String) :
    Only
      (ReportedOr fun failure => engine = .ignore ∧ ∃ line ∈ patterns, Ignore.Breaks line failure)
      (ofPatterns? engine caseSensitive patterns) := by
  cases engine with
  | glob =>
      refine Only.map (Only.mapM fun pattern _ => ?_) _
      rw [Glob.compile?_eq_compiled pattern (by decide)]
      exact .ok _
  | segmented => exact .ok _
  | ignore =>
      refine Only.map ((hreads.compile?_failures patterns).widen ?_) _
      exact fun failure hline => ⟨rfl, hline⟩

namespace CommandLine

/-- Patterns in which there is something that a run does not expect: the word `--` in place of a
pattern, or a line that is no ignore rule. -/
inductive Rejects [Ignore.Library] (engine : String) (arguments : List Argument) : Failure → Prop
  | nothing : .nothing ∈ arguments → Rejects engine arguments (.notAPattern "[]")
  | line {word : String} {failure : Failure} : engine = Engine.ignore.name →
      .text word ∈ arguments → Ignore.Breaks word failure → Rejects engine arguments failure

theorem Rejects.mono [Ignore.Library] {engine : String} {arguments more : List Argument}
    {failure : Failure} (h : Rejects engine arguments failure) (hmore : arguments ⊆ more) :
    Rejects engine more failure := by
  cases h with
  | nothing hnothing => exact .nothing (hmore hnothing)
  | line hengine hword hbreaks => exact .line hengine (hmore hword) hbreaks

variable {σ : Type}

theorem Argument.refused?_item {argument : Argument} {value : Value}
    (h : (argument.item : RuleItem σ).refused? = some value) :
    argument = .nothing ∧ value = .list [] := by
  cases argument with
  | text word => cases h
  | nothing =>
      cases h
      exact ⟨rfl, rfl⟩

theorem Argument.pattern?_item {argument : Argument} {word : String}
    (h : (argument.item : RuleItem σ).pattern? = some word) : argument = .text word := by
  cases argument with
  | text word =>
      cases h
      rfl
  | nothing => cases h

end CommandLine

open CommandLine

variable [Ignore.Library] {σ : Type}

theorem Rule.ofItems?_failures (hreads : Ignore.Library.ReadsByLine) (engine : Engine)
    (caseSensitive : Bool) (arguments : List Argument) :
    Only (ReportedOr (Rejects engine.name arguments))
      (Rule.ofItems? engine.name caseSensitive
        (arguments.map fun argument => (argument.item : RuleItem σ))) := by
  unfold Rule.ofItems?
  dsimp only
  split
  · rename_i value hvalue
    obtain ⟨item, hitem, hrefused⟩ := List.exists_of_findSome?_eq_some hvalue
    obtain ⟨argument, hargument, rfl⟩ := List.mem_map.1 hitem
    obtain ⟨rfl, rfl⟩ := Argument.refused?_item hrefused
    exact .error (.inr (.nothing hargument))
  · rw [Engine.ofName?_name]
    split
    · exact .ok _
    · refine Only.bind (.ok engine) ?_
      rintro _ ⟨⟩
      refine Only.bind ((Matcher.ofPatterns?_failures hreads engine _ _).widen ?_) fun _ _ => .ok _
      rintro failure ⟨hengine, line, hline, hbreaks⟩
      obtain ⟨item, hitem, hpattern⟩ := List.mem_filterMap.1 hline
      obtain ⟨argument, hargument, rfl⟩ := List.mem_map.1 hitem
      rw [Argument.pattern?_item hpattern] at hargument
      exact .line (congrArg Engine.name hengine) hargument hbreaks

/-! ## Selections -/

section

variable {steady : σ → Prop} {host : Host σ}

theorem checkDirectory_reported (hhost : host.Responds steady) (text : String) :
    Act.FailsOnly steady Reported (checkDirectory host text) := by
  refine (hhost.exists? _).bind fun exists' _ => ?_
  dsimp only
  split
  · exact .throw_bind (show Reported (.baseMissing _) from rfl) _
  refine (hhost.hasKind _ _ _).bind fun isDirectory _ => ?_
  split
  · exact .throw_bind (show Reported (.baseNotDirectory _) from rfl) _
  · exact .pure _

theorem IgnoreFile.linesOf_reported (hhost : host.Responds steady) (path : Path) :
    Act.FailsOnly steady Reported (linesOf host path) := by
  refine (hhost.read path).attempt_bind ?_ ?_
  · intro content _
    dsimp only
    split
    · exact .pure _
    · exact .pure _
  · intro failure _ hfailure
    dsimp only
    split
    · exact .pure _
    · exact .throw hfailure

namespace Selection

def Misreads (steady : σ → Prop) (host : Host σ) (file : Path) (failure : Failure) : Prop :=
  ∃ lines, Act.Answers steady (IgnoreFile.linesOf host file) (.ok (some lines)) ∧
    ∃ line ∈ lines, Ignore.Breaks line failure

theorem excludesFrom_failures (hreads : Ignore.Library.ReadsByLine)
    (hhost : host.Responds steady) (selection : Selection σ)
    (file : Path) :
    Act.FailsOnly steady (ReportedOr (Misreads steady host file))
      (selection.excludesFrom host file) := by
  refine Act.FailsOnly.bind ?_ ?_
  · refine (IgnoreFile.linesOf_reported hhost file).orCause.bind fun found hfound => ?_
    cases found with
    | none => exact .pure _
    | some lines =>
        refine Act.FailsOnly.bind (.ofExcept ?_) fun _ _ => .pure _
        refine (hreads.compile?_failures lines).widen ?_
        exact fun failure hline => ⟨lines, hfound, hline⟩
  · intro rules _
    cases rules with
    | none => exact .pure _
    | some rules => exact .pure _

/-! ### Rules of a selection -/

theorem compile_failures (hreads : Ignore.Library.ReadsByLine) (selection : Selection σ)
    (arguments : List Argument) :
    Only (ReportedOr (Rejects selection.engine.name arguments))
      (selection.compile (arguments.map (·.item))) :=
  Rule.ofItems?_failures hreads _ _ _

theorem includes_failures (hreads : Ignore.Library.ReadsByLine) (selection : Selection σ)
    (arguments : List Argument) :
    Only (ReportedOr (Rejects selection.engine.name arguments))
      (selection.includes (arguments.map (·.item))) :=
  (compile_failures hreads selection arguments).bind fun _ _ => .ok _

theorem excludes_failures (hreads : Ignore.Library.ReadsByLine) (selection : Selection σ)
    (arguments : List Argument) :
    Only (ReportedOr (Rejects selection.engine.name arguments))
      (selection.excludes (arguments.map (·.item))) :=
  (compile_failures hreads selection arguments).bind fun _ _ => .ok _

theorem prunes_failures (hreads : Ignore.Library.ReadsByLine) (selection : Selection σ)
    (arguments : List Argument) :
    Only (ReportedOr (Rejects selection.engine.name arguments))
      (selection.prunes (arguments.map (·.item))) :=
  (compile_failures hreads selection arguments).bind fun _ _ => .ok _

theorem engine_of_compile {selection changed : Selection σ} {items : List (RuleItem σ)}
    {change : List (Rule σ) → Selection σ}
    (h : (selection.compile items >>= fun rules => pure (change rules)) = .ok changed)
    (hchange : ∀ rules, (change rules).engine = selection.engine) :
    changed.engine = selection.engine := by
  cases hcompile : selection.compile items with
  | error failure =>
      rw [hcompile] at h
      cases h
  | ok rules =>
      rw [hcompile] at h
      cases h
      exact hchange rules

theorem engine_includes {selection changed : Selection σ} {items : List (RuleItem σ)}
    (h : selection.includes items = .ok changed) : changed.engine = selection.engine := by
  unfold includes at h
  exact engine_of_compile h fun _ => rfl

theorem engine_excludes {selection changed : Selection σ} {items : List (RuleItem σ)}
    (h : selection.excludes items = .ok changed) : changed.engine = selection.engine := by
  unfold excludes at h
  exact engine_of_compile h fun _ => rfl

theorem make_reported (hhost : host.Responds steady) (directory : String) (choice : Choice) :
    Act.FailsOnly steady Reported (make host directory choice none none) := by
  refine (checkDirectory_reported hhost directory).bind fun path _ => ?_
  refine (Act.FailsOnly.ofExcept (Engine.ofName?_reported _)).bind fun engine _ => ?_
  exact .bind (.pure _) fun _ _ => .pure _

theorem engine_of_make {directory : String} {choice : Choice} {selection : Selection σ}
    {state last : σ} (h : make host directory choice none none state = some (.ok selection, last)) :
    selection.engine.name = choice.engine := by
  obtain ⟨path, middle, -, hrest⟩ := Act.bind_eq_ok_iff.1 h
  cases hengine : Engine.ofName? choice.engine with
  | error failure =>
      rw [hengine] at hrest
      cases hrest
  | ok engine =>
      rw [hengine] at hrest
      cases hrest
      exact Engine.name_of_ofName? hengine

inductive Unbuildable (steady : σ → Prop) (host : Host σ) (directory engine : String)
    (arguments : List Argument) (ignoreFile : String) (failure : Failure) : Prop
  | patterns : Rejects engine arguments failure →
      Unbuildable steady host directory engine arguments ignoreFile failure
  | ignoreFile : ignoreFile ≠ "" →
      Misreads steady host ((Path.ofText directory).child ignoreFile) failure →
        Unbuildable steady host directory engine arguments ignoreFile failure

theorem build_failures (hreads : Ignore.Library.ReadsByLine)
    (hhost : host.Responds steady) (directory : String) (choice : Choice)
    (includes excludes prunes : List Argument) (ignoreFile : String) :
    Act.FailsOnly steady
      (ReportedOr (Unbuildable steady host directory choice.engine (includes ++ excludes ++ prunes)
        ignoreFile))
      (build host directory choice (includes.map (·.item)) (excludes.map (·.item))
        (prunes.map (·.item)) ignoreFile) := by
  refine (make_reported hhost directory choice).orCause.bind fun made hmade => ?_
  obtain ⟨_, _, -, hrun⟩ := hhost.exists_run hmade
  have hengine := engine_of_make hrun
  have hpatterns {selection : Selection σ} {arguments : List Argument}
      (hselection : selection.engine = made.engine)
      (hmore : arguments ⊆ includes ++ excludes ++ prunes) (failure : Failure)
      (h : Rejects selection.engine.name arguments failure) :
      Unbuildable steady host directory choice.engine (includes ++ excludes ++ prunes) ignoreFile
        failure := by
    rw [hselection, hengine] at h
    exact .patterns (h.mono hmore)
  refine .ofExcept_bind ((includes_failures hreads made includes).widen (hpatterns rfl (by simp))) ?_
  intro included hincluded
  have hincluded := engine_includes hincluded
  refine .ofExcept_bind ((excludes_failures hreads included excludes).widen
    (hpatterns hincluded (by simp))) ?_
  intro excluded hexcluded
  have hexcluded := (engine_excludes hexcluded).trans hincluded
  refine .ofExcept_bind ((prunes_failures hreads excluded prunes).widen
    (hpatterns hexcluded (by simp))) ?_
  intro pruned _
  split
  · exact .pure _
  · rename_i hfile
    refine (excludesFrom_failures hreads hhost pruned _).widen fun failure => .ignoreFile ?_
    rintro rfl
    exact hfile rfl

theorem ofOptions_failures (hreads : Ignore.Library.ReadsByLine)
    (hhost : host.Responds steady) (directory : String)
    (options : Options) :
    Act.FailsOnly steady
      (ReportedOr (Unbuildable steady host directory options.engine
        (options.includes ++ options.excludes ++ options.prunes) (textOf options.ignoreFile)))
      (ofOptions host directory options) := by
  refine (build_failures hreads hhost directory _ _ _ _ _).widen fun failure => ?_
  rintro (hrejects | ⟨hfile, hmisreads⟩)
  · refine .patterns ?_
    cases hrejects with
    | nothing hnothing => exact .nothing hnothing
    | line hengine hword hbreaks =>
        refine .line ?_ hword hbreaks
        dsimp only at hengine
        split at hengine
        · exact absurd hengine (by decide)
        · exact hengine
  · exact .ignoreFile hfile hmisreads

end Selection

end

end FileSelection
