import FileSelection.Ignore.Standard
import FileSelection.Proofs.FileSystem.Descent
import FileSelection.Proofs.FileSystem.Questions
import FileSelection.Proofs.Selection.FailedCalls

/-!
# Selections from settings

A selection can be made from settings at once, or by hand: with a keyword for each option that is
set, and a call for each kind of rules that is set.  Both ways lead to the same selection and fail
in the same cases, except that an empty name of an engine counts as not set for the one and is
refused by the other.
-/

namespace FileSelection.Selection

open Act

variable {σ : Type} {host : Host σ} {directory : String} {settings : Settings}
  {selection : Selection σ} {changes : List (Change σ)} {state last : σ} {failure : Failure}

/-! ## Making a selection by hand -/

/-- What can be said when a selection is made.  What is not said takes its default. -/
inductive Keyword where
  | basepath (text : String)
  | caseSensitive (flag : Bool)
  | engine (name : String)
  | strict (flag : Bool)
  | followLinks (flag : Bool)

def Choice.say (choice : Choice) : Keyword → Choice
  | .basepath text => { choice with basepath := text }
  | .caseSensitive flag => { choice with caseSensitive := flag }
  | .engine name => { choice with engine := name }
  | .strict flag => { choice with strict := flag }
  | .followLinks flag => { choice with followLinks := flag }

def keywordsOf (settings : Settings) : List Keyword :=
  (settings.basepath.map Keyword.basepath).toList ++
    (settings.caseSensitive.map Keyword.caseSensitive).toList ++
    (settings.engine.map Keyword.engine).toList ++
    (settings.strict.map Keyword.strict).toList ++
    (settings.followLinks.map Keyword.followLinks).toList

theorem foldl_say_keywordsOf (settings : Settings) :
    (keywordsOf settings).foldl Choice.say {} = {
      basepath := settings.basepath.getD ""
      caseSensitive := settings.caseSensitive.getD true
      engine := settings.engine.getD "glob"
      strict := settings.strict.getD false
      followLinks := settings.followLinks.getD true } := by
  unfold keywordsOf
  cases settings.basepath <;> cases settings.caseSensitive <;> cases settings.engine <;>
    cases settings.strict <;> cases settings.followLinks <;> rfl

def callsOf (directory : String) (settings : Settings) : List (Change σ) :=
  (settings.includes.map fun texts => Change.includes (texts.map .pattern)).toList ++
    (settings.excludes.map fun texts => Change.excludes (texts.map .pattern)).toList ++
    (settings.prunes.map fun texts => Change.prunes (texts.map .pattern)).toList ++
    ((settings.ignoreFile.filter (· ≠ "")).map fun file =>
      Change.excludesFrom ((Path.ofText directory).child file)).toList

def withoutEmptyEngine (settings : Settings) : Settings :=
  { settings with engine := settings.engine.filter (· ≠ "") }

theorem withoutEmptyEngine_eq (h : settings.engine ≠ some "") :
    withoutEmptyEngine settings = settings := by
  have hkept : settings.engine.filter (· ≠ "") = settings.engine := by
    cases hengine : settings.engine with
    | none => rfl
    | some name => simpa [Option.filter, hengine] using h
  rw [withoutEmptyEngine, hkept]

theorem ofName?_eq_error_iff {name : String} :
    Engine.ofName? name = .error failure ↔
      name ∉ Failure.engineNames ∧ failure = .unknownEngine name := by
  unfold Engine.ofName?
  split
  · simp [Failure.engineNames]
  · simp [Failure.engineNames]
  · simp [Failure.engineNames]
  · rename_i hglob hsegmented hignore
    simp only [Failure.engineNames, List.mem_cons, List.not_mem_nil, or_false, not_or,
      Except.error.injEq]
    exact ⟨fun h => ⟨⟨hglob, hsegmented, hignore⟩, h.symm⟩, fun h => h.2.symm⟩

section

variable [Ignore.Library]

def changeAll (host : Host σ) (selection : Selection σ) : List (Change σ) → Act σ (Selection σ)
  | [] => pure selection
  | change :: changes => do (← selection.change host change).changeAll host changes

def begin (host : Host σ) (directory : String) (settings : Settings) : Act σ (Selection σ) :=
  make host directory ((keywordsOf settings).foldl Choice.say {}) none none

def byHand (host : Host σ) (directory : String) (settings : Settings) : Act σ (Selection σ) := do
  (← begin host directory settings).changeAll host (callsOf directory settings)

theorem changeAll_append (first second : List (Change σ)) :
    selection.changeAll host (first ++ second) =
      selection.changeAll host first >>= fun changed => changed.changeAll host second := by
  induction first generalizing selection with
  | nil => exact (pure_bind _ _).symm
  | cons change first ih =>
      rw [List.cons_append, changeAll, changeAll, bind_assoc]
      exact bind_congr fun changed => ih

theorem changeAll_singleton (change : Change σ) :
    selection.changeAll host [change] = selection.change host change := bind_pure _

theorem addItems_nil (selection : Selection σ) (role : RuleSet.Role) :
    selection.addItems [] role = .ok selection := by
  have hcompile : selection.compile [] = .ok [] := rfl
  rw [addItems_eq, hcompile]
  exact congrArg Except.ok (extend_nil selection role)

theorem changeAll_patterns (texts : Option (List String)) (role : RuleSet.Role)
    (change : List (RuleItem σ) → Change σ)
    (hchange : ∀ items, selection.change host (change items) =
      Act.ofExcept (selection.addItems items role)) :
    selection.changeAll host (texts.map fun texts => change (texts.map .pattern)).toList =
      Act.ofExcept (selection.addItems ((texts.getD []).map .pattern) role) := by
  cases texts with
  | none =>
      rw [Option.getD_none, List.map_nil, addItems_nil]
      rfl
  | some texts => exact (changeAll_singleton _).trans (hchange _)

theorem changeAll_callsOf (selection : Selection σ) :
    selection.changeAll host (callsOf directory settings) = (do
      let selection ←
        Act.ofExcept (selection.includes ((settings.includes.getD []).map .pattern))
      let selection ←
        Act.ofExcept (selection.excludes ((settings.excludes.getD []).map .pattern))
      let selection ← Act.ofExcept (selection.prunes ((settings.prunes.getD []).map .pattern))
      if (settings.ignoreFile.getD "").isEmpty then return selection
      selection.excludesFrom host
        ((Path.ofText directory).child (settings.ignoreFile.getD ""))) := by
  rw [callsOf, changeAll_append, changeAll_append, changeAll_append,
    changeAll_patterns _ .includes .includes fun _ => rfl, bind_assoc, bind_assoc]
  refine bind_congr fun selection => ?_
  rw [changeAll_patterns _ .excludes .excludes fun _ => rfl]
  refine bind_congr fun selection => ?_
  rw [changeAll_patterns _ .prunes .prunes fun _ => rfl]
  refine bind_congr fun selection => ?_
  cases settings.ignoreFile with
  | none => rfl
  | some file =>
      by_cases hfile : file = ""
      · subst hfile
        rfl
      · have hkept : (some file).filter (· ≠ "") = some file := by simp [Option.filter, hfile]
        have hempty : file.isEmpty = false := by simpa using hfile
        simp only [hkept, Option.map_some, Option.toList_some, Option.getD_some, hempty]
        exact changeAll_singleton _

/-! ## Failures of making a selection by hand -/

inductive FailsIn (host : Host σ) : Selection σ → σ → List (Change σ) → Failure → σ → Prop
  | here {selection : Selection σ} {state last : σ} {change : Change σ} {changes : List (Change σ)}
      {failure : Failure} :
      FailsWith host selection state failure last change →
        FailsIn host selection state (change :: changes) failure last
  | later {selection changed : Selection σ} {state middle last : σ} {change : Change σ}
      {changes : List (Change σ)} {failure : Failure} :
      selection.change host change state = some (.ok changed, middle) →
        FailsIn host changed middle changes failure last →
          FailsIn host selection state (change :: changes) failure last

theorem changeAll_eq_error_iff :
    selection.changeAll host changes state = some (.error failure, last) ↔
      FailsIn host selection state changes failure last := by
  induction changes generalizing selection state with
  | nil => exact ⟨nofun, nofun⟩
  | cons change changes ih =>
      rw [changeAll, bind_eq_some_iff]
      constructor
      · rintro (⟨changed, middle, hchange, hrest⟩ | ⟨_, _, hchange, ⟨⟩⟩)
        · exact .later hchange (ih.1 hrest)
        · exact .here (change_eq_error_iff.1 hchange)
      · rintro (hfails | ⟨hchange, hrest⟩)
        · exact .inr ⟨failure, last, change_eq_error_iff.2 hfails, rfl⟩
        · exact .inl ⟨_, _, hchange, ih.2 hrest⟩

/-- Why no selection is made by hand: because of the base directory, of the name of the engine, or
of what is given to one of the calls. -/
inductive Unmade (host : Host σ) (directory : String) (settings : Settings) (state : σ) :
    Failure → σ → Prop
  | directory {failure : Failure} {last : σ} :
      checkDirectory host directory state = some (.error failure, last) →
        Unmade host directory settings state failure last
  | engine {path : Path} {name : String} {last : σ} :
      checkDirectory host directory state = some (.ok path, last) →
        settings.engine = some name → name ∉ Failure.engineNames →
          Unmade host directory settings state (.unknownEngine name) last
  | call {selection : Selection σ} {middle last : σ} {failure : Failure} :
      begin host directory settings state = some (.ok selection, middle) →
        FailsIn host selection middle (callsOf directory settings) failure last →
          Unmade host directory settings state failure last

theorem begin_eq (host : Host σ) (directory : String) (settings : Settings) :
    begin host directory settings = (do
      let path ← checkDirectory host directory
      let engine ← Act.ofExcept (Engine.ofName? (settings.engine.getD "glob"))
      pure ⟨path, engine, settings.caseSensitive.getD true, settings.strict.getD false,
        settings.followLinks.getD true, settings.basepath.getD "", .empty⟩) := by
  rw [begin, foldl_say_keywordsOf]
  rfl

theorem byHand_eq_error_iff :
    byHand host directory settings state = some (.error failure, last) ↔
      Unmade host directory settings state failure last := by
  rw [byHand, bind_eq_some_iff]
  constructor
  · rintro (⟨selection, middle, hbegin, hrest⟩ | ⟨_, _, hbegin, ⟨⟩⟩)
    · exact .call hbegin (changeAll_eq_error_iff.1 hrest)
    · rw [begin_eq, bind_eq_some_iff] at hbegin
      obtain ⟨path, middle, hdirectory, hrest⟩ | ⟨_, _, hdirectory, ⟨⟩⟩ := hbegin
      · obtain ⟨_, _, _, ⟨⟩⟩ | ⟨_, _, hengine, ⟨⟩⟩ := bind_eq_some_iff.1 hrest
        rw [ofExcept_apply, Option.some.injEq, Prod.mk.injEq, ofName?_eq_error_iff] at hengine
        obtain ⟨⟨hunknown, rfl⟩, rfl⟩ := hengine
        cases hset : settings.engine with
        | none => exact absurd (by simp [Failure.engineNames, hset]) hunknown
        | some name =>
            rw [hset] at hunknown
            exact .engine hdirectory hset hunknown
      · exact .directory hdirectory
  · rintro (hdirectory | ⟨hdirectory, hengine, hunknown⟩ | ⟨hbegin, hfails⟩)
    · refine .inr ⟨failure, last, ?_, rfl⟩
      rw [begin_eq]
      exact bind_of_error hdirectory
    · refine .inr ⟨_, last, ?_, rfl⟩
      rw [begin_eq, bind_of_ok hdirectory, hengine]
      refine bind_of_error ?_
      rw [ofExcept_apply, Option.getD_some, ofName?_eq_error_iff.2 ⟨hunknown, rfl⟩]
    · exact .inl ⟨_, _, hbegin, changeAll_eq_error_iff.2 hfails⟩

/-! ## Both ways -/

theorem ofSettings_eq_byHand (host : Host σ) (directory : String) (settings : Settings) :
    ofSettings host directory settings = byHand host directory (withoutEmptyEngine settings) := by
  have hengine : (if (settings.engine.getD "").isEmpty then "glob" else settings.engine.getD "") =
      (settings.engine.filter (· ≠ "")).getD "glob" := by
    cases settings.engine with
    | none => rfl
    | some name =>
        by_cases hname : name = ""
        · subst hname
          rfl
        · simp [Option.filter, hname]
  unfold ofSettings build byHand begin
  rw [foldl_say_keywordsOf]
  simp only [hengine, withoutEmptyEngine]
  refine bind_congr fun selection => ?_
  rw [changeAll_callsOf]

/-- Making a selection from settings is making it by hand from the settings without an empty name
for the engine.  So the two end alike from every state, in a selection or in a failure, unless the
name is set and empty. -/
theorem made_from_settings_as_by_hand (host : Host σ) (directory : String) (settings : Settings) :
    ofSettings host directory settings = byHand host directory (withoutEmptyEngine settings) ∧
      (settings.engine ≠ some "" →
        ofSettings host directory settings = byHand host directory settings) ∧
      ∀ state failure last,
        byHand host directory settings state = some (.error failure, last) ↔
          Unmade host directory settings state failure last := by
  have hsame := ofSettings_eq_byHand host directory settings
  refine ⟨hsame, fun hengine => ?_, fun state failure last => byHand_eq_error_iff⟩
  rw [hsame, withoutEmptyEngine_eq hengine]

end

theorem named_engine_makes_same_selection :
    ({ engine := some "ant" } : Settings).engine ≠ some "" ∧
      ofSettings (Session.host (τ := Unit)) "/" { engine := some "ant" } =
        byHand Session.host "/" { engine := some "ant" } :=
  ⟨by decide, (made_from_settings_as_by_hand _ _ _).2.1 (by decide)⟩

theorem checkDirectory_root {τ : Type} {session : Session τ} {entries : List (String × Node)}
    (hroot : session.files.root = .directory entries) :
    checkDirectory Session.host "/" session = some (.ok ⟨"/", []⟩, session) := by
  have hstatus := Session.host_status rfl (FileSystem.status_root hroot)
  have hpath : Path.ofText "/" = ⟨"/", []⟩ := by decide
  have hexists : Session.host.exists? ⟨"/", []⟩ session = some (.ok true, session) :=
    bind_of_ok (Host.status?_of_ok hstatus)
  have hdirectory : Session.host.isDirectory ⟨"/", []⟩ session = some (.ok true, session) :=
    Host.hasKind_of_ok .directory hstatus
  unfold checkDirectory
  rw [hpath, bind_of_ok hexists]
  simp only [Bool.not_true, Bool.false_eq_true, if_false]
  rw [bind_of_ok hdirectory]
  rfl

/-- An empty name for the engine is refused by hand, but counts as not set among settings. -/
theorem empty_engine_is_refused_by_hand_only :
    let session : Session Unit := .ofFiles ⟨.directory [], []⟩ ()
    byHand Session.host "/" { engine := some "" } session =
        some (.error (.unknownEngine ""), session) ∧
      ∃ selection, ofSettings Session.host "/" { engine := some "" } session =
        some (.ok selection, session) := by
  intro session
  have hdirectory : checkDirectory Session.host "/" session = some (.ok ⟨"/", []⟩, session) :=
    checkDirectory_root rfl
  refine ⟨byHand_eq_error_iff.2 (.engine hdirectory rfl (by decide)), ?_⟩
  rw [ofSettings_eq_byHand, byHand, begin_eq]
  exact ⟨_, bind_of_ok (bind_of_ok hdirectory)⟩

end FileSelection.Selection
