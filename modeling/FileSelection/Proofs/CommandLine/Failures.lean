import FileSelection.FileSystem.Listing
import FileSelection.Proofs.FileSystem.Canonical
import FileSelection.Proofs.FileSystem.Questions
import FileSelection.Proofs.Ignore.Standard
import FileSelection.Proofs.Selection.Failures

/-!
# Failures of the command line

A run that cannot make its selection reports why and ends with the status 1, except for a few
failures that it does not expect and that break it off.  Each of these has its own cause, in the
links around the directory, in the shape of a project file, in an ignore rule or in a pattern that
is not there.
-/

namespace FileSelection

open Failure

section

variable [Ignore.Library] {σ : Type} {steady : σ → Prop} {host : Host σ}

namespace CommandLine

def startOf (host : Host σ) (directory : String) : Act σ Path := do
  let path := Path.ofText directory
  if ← host.isDirectory path then pure path else host.workingDirectory

theorem prepare_eq (host : Host σ) (options : Options) (explicit : List Setting)
    (directory : String) : prepare host options explicit directory = (do
      let start ← startOf host directory
      let settings ← loadSettings host options start
      Selection.ofOptions host directory (options.withSettings? explicit settings)) := by
  unfold prepare startOf
  simp only [bind_assoc]
  congr 1
  funext isDirectory
  cases isDirectory <;> rfl

inductive Unloadable (steady : σ → Prop) (host : Host σ) (options : Options) (start : Path)
    (failure : Failure) : Prop
  | search : options.noSettings = false → textOf options.settingsFile = "" →
      Settings.Unfindable steady host start failure →
        Unloadable steady host options start failure
  | found {path : Path} : options.noSettings = false → textOf options.settingsFile = "" →
      Act.Answers steady (Settings.find host start) (.ok (some path)) →
      Settings.Spoils steady host path failure → Unloadable steady host options start failure
  | named : options.noSettings = false → textOf options.settingsFile ≠ "" →
      Settings.Spoils steady host (Path.ofText (textOf options.settingsFile)) failure →
        Unloadable steady host options start failure

theorem loadSettings_failures (hhost : host.Responds steady) (options : Options) (start : Path) :
    Act.FailsOnly steady (ReportedOr (Unloadable steady host options start))
      (loadSettings host options start) := by
  unfold loadSettings
  split
  · exact .pure _
  rename_i hopen
  rw [Bool.not_eq_true] at hopen
  dsimp only
  split
  · rename_i hfile
    have hfile := String.isEmpty_iff.1 hfile
    refine ((Settings.find_failures hhost start).widen fun _ => .search hopen hfile).bind ?_
    intro found hfound
    cases found with
    | none => exact .pure _
    | some path =>
        refine Act.FailsOnly.bind ?_ fun _ _ => .pure _
        exact (Settings.load_failures hhost path).widen fun _ => .found hopen hfile hfound
  · rename_i hfile
    rw [String.isEmpty_iff] at hfile
    refine Act.FailsOnly.bind ?_ fun _ _ => .pure _
    exact (Settings.load_failures hhost _).widen fun _ => .named hopen hfile

/-- What a run does not expect of its options, its settings and the files behind them. -/
inductive Unguarded (steady : σ → Prop) (host : Host σ) (options : Options)
    (explicit : List Setting) (directory : String) (failure : Failure) : Prop
  | settings {start : Path} : Act.Answers steady (startOf host directory) (.ok start) →
      Unloadable steady host options start failure →
        Unguarded steady host options explicit directory failure
  | rules {start : Path} {settings : Option Settings} {merged : Options} :
      Act.Answers steady (startOf host directory) (.ok start) →
      Act.Answers steady (loadSettings host options start) (.ok settings) →
      merged = options.withSettings? explicit settings →
      Selection.Unbuildable steady host directory merged.engine
        (merged.includes ++ merged.excludes ++ merged.prunes) (textOf merged.ignoreFile) failure →
        Unguarded steady host options explicit directory failure

theorem prepare_failures (hreads : Ignore.Library.ReadsByLine) (hhost : host.Responds steady)
    (options : Options) (explicit : List Setting) (directory : String) :
    Act.FailsOnly steady (ReportedOr (Unguarded steady host options explicit directory))
      (prepare host options explicit directory) := by
  have hstart : Act.FailsOnly steady Reported (startOf host directory) := by
    refine (hhost.hasKind _ _ _).bind fun isDirectory _ => ?_
    split
    · exact .pure _
    · exact hhost.workingDirectory
  rw [prepare_eq]
  refine hstart.orCause.bind fun start hstart => ?_
  refine ((loadSettings_failures hhost options start).widen fun _ => .settings hstart).bind ?_
  intro settings hsettings
  exact (Selection.ofOptions_failures hreads hhost directory _).widen fun _ =>
    .rules hstart hsettings rfl

theorem Unguarded.not_reported {options : Options} {explicit : List Setting} {directory : String}
    {failure : Failure} (h : Unguarded steady host options explicit directory failure) :
    ¬failure.Reported := by
  have hbreaks {line : String} (h : Ignore.Breaks line failure) : ¬failure.Reported := by
    cases h <;> nofun
  have hspoils {path : Path} (h : Settings.Spoils steady host path failure) :
      ¬failure.Reported := by
    obtain ⟨-, document, -, hmisshapen⟩ := h
    cases hmisshapen <;> nofun
  cases h with
  | settings _ hunloadable =>
      cases hunloadable with
      | search _ _ hunfindable =>
          cases hunfindable with
          | links hloops =>
              obtain ⟨-, found, text, rfl, -⟩ := hloops
              nofun
          | project _ _ hproject => exact hspoils hproject
      | found _ _ _ hfound => exact hspoils hfound
      | named _ _ hnamed => exact hspoils hnamed
  | rules _ _ _ hunbuildable =>
      cases hunbuildable with
      | patterns hrejects =>
          cases hrejects with
          | nothing => nofun
          | line _ _ hline => exact hbreaks hline
      | ignoreFile _ hmisreads =>
          obtain ⟨lines, -, line, -, hline⟩ := hmisreads
          exact hbreaks hline

def notedLines (options : Options) (notes : List Note) : List String :=
  if options.verbose then notes.reverse.map noteLine else []

theorem run_of_prepare {files : FileSystem} {words : List String} {options : Options}
    {explicit : List Setting} {directory : String} {failure : Failure} {notes : List Note}
    (hwords : Options.ofWords words = .ok (options, explicit)) (hversion : options.version = false)
    (hdirectory : options.directory = some directory) (hnamed : directory ≠ "")
    (hprepare : prepare Session.host options explicit directory
      (Session.ofFiles files ([] : List String)) = some (.error failure, ⟨files, notes, []⟩)) :
    run files words = some (
      if isReported failure then
        ⟨.ok 1, "", unlines (notedLines options notes ++ [s!"Error: {failure.message}"])⟩
      else ⟨.error failure, "", unlines (notedLines options notes)⟩) := by
  have hrun (print : String → Act (Session (List String)) Unit) :
      runOptions Session.host print options explicit (Session.ofFiles files []) =
        some (if isReported failure then .ok ⟨1, some failure.message, options.verbose⟩
          else .error failure, ⟨files, notes, []⟩) := by
    unfold runOptions
    simp only [hversion, hdirectory, Bool.false_eq_true, if_false]
    rw [Act.bind_of_ok (Act.attempt_eq_ok_iff.2 hprepare)]
    dsimp only
    split <;> rfl
  unfold run
  rw [hwords]
  dsimp only
  rw [hrun]
  cases hreported : isReported failure with
  | true => rfl
  | false =>
      simp only [Bool.false_eq_true, if_false, Option.toList_none, List.map_nil, List.append_nil]
      rfl

end CommandLine

end

open CommandLine

/-- Whatever the files hold, the selection of a run is made or there is a failure, and nothing is
printed.  A failure is reported, with the status 1 and one message, or it breaks the run off; then
something is behind it that a run does not expect. -/
theorem failed_preparation_is_reported_or_unguarded [Ignore.Library]
    (hreads : Ignore.Library.ReadsByLine) (files : FileSystem) {words : List String}
    {options : Options} {explicit : List Setting} {directory : String}
    (hwords : Options.ofWords words = .ok (options, explicit)) (hversion : options.version = false)
    (hdirectory : options.directory = some directory) (hnamed : directory ≠ "") :
    ∃ result notes,
      prepare Session.host options explicit directory
        (Session.ofFiles files ([] : List String)) = some (result, ⟨files, notes, []⟩) ∧
      ∀ failure, result = .error failure →
        isReported failure = true ∧
            run files words = some ⟨.ok 1, "",
              unlines (notedLines options notes ++ [s!"Error: {failure.message}"])⟩ ∨
          Unguarded (Session.Rests files ([] : List String)) Session.host options explicit directory
              failure ∧
            isReported failure = false ∧
            run files words = some ⟨.error failure, "", unlines (notedLines options notes)⟩ := by
  obtain ⟨result, hanswers, honly⟩ :=
    prepare_failures hreads (Session.host_responds files ([] : List String)) options explicit
      directory
  obtain ⟨⟨files', notes, record⟩, ⟨hfiles, hrecord⟩, hprepare⟩ :=
    hanswers _ (Session.rests_ofFiles files [])
  obtain rfl : files' = files := hfiles
  obtain rfl : record = [] := hrecord
  refine ⟨result, notes, hprepare, ?_⟩
  rintro failure rfl
  have hrun := run_of_prepare hwords hversion hdirectory hnamed hprepare
  obtain hreported | hunguarded := honly failure rfl
  · exact .inl ⟨hreported, hrun.trans (congrArg some (if_pos hreported))⟩
  · have hbreaks := hunguarded.not_reported
    exact .inr ⟨hunguarded, by simpa [Reported] using hbreaks,
      hrun.trans (congrArg some (if_neg hbreaks))⟩

section

variable [Ignore.Library] {options : Options} {explicit : List Setting} {directory : String}
  {start : Path} {failure : Failure} {session : Session (List String)}

theorem prepare_of_load (hopen : options.noSettings = false)
    (hnamed : textOf options.settingsFile ≠ "")
    (hstart : startOf Session.host directory session = some (.ok start, session))
    (hload : Settings.load Session.host (Path.ofText (textOf options.settingsFile)) session =
      some (.error failure, session)) :
    prepare Session.host options explicit directory session = some (.error failure, session) := by
  have hsettings : loadSettings Session.host options start session =
      some (.error failure, session) := by
    unfold loadSettings
    rw [hopen, if_neg Bool.false_ne_true, if_neg (by simpa using hnamed)]
    exact Act.bind_of_error hload
  rw [prepare_eq]
  exact (Act.bind_of_ok hstart).trans (Act.bind_of_error hsettings)

end

/-! ### A settings file that is missing -/

theorem FileSystem.locate_empty {name : String} (hname : Path.IsEntryName name)
    (hnoNul : name.toList.contains '\x00' = false) (hshort : ¬ nameLimit < name.utf8ByteSize) :
    FileSystem.empty.locate true (Path.ofText name) = .error (.system .noEntry name) := by
  rw [FileSystem.empty, locate_name hname hnoNul hshort true, follow]
  simp only [if_neg hname.notSelf, if_neg hname.notParent, if_neg hshort]
  rfl

theorem prepare_missingSettings [Ignore.Library] :
    prepare Session.host { directory := some "x", settingsFile := some (.text "y") } [] "x"
        (Session.ofFiles .empty ([] : List String)) =
      some (.error (.system .noEntry "y"), ⟨.empty, [], []⟩) := by
  let session : Session (List String) := Session.ofFiles .empty []
  have hstatus :
      FileSystem.empty.status true (Path.ofText "x") = .error (.system .noEntry "x") := by
    rw [FileSystem.status, FileSystem.locate_empty (by decide) (by decide) (by decide)]
    rfl
  have hread : FileSystem.empty.read (Path.ofText "y") = .error (.system .noEntry "y") := by
    rw [FileSystem.read, FileSystem.locate_empty (by decide) (by decide) (by decide)]
    rfl
  have hnone : Session.host.status? true (Path.ofText "x") session = some (.ok none, session) :=
    (Act.bind_of_ok (Act.attempt_eq_ok_iff.2 (Session.host_status rfl hstatus))).trans rfl
  have hdirectory : Session.host.isDirectory (Path.ofText "x") session =
      some (.ok false, session) := (Act.bind_of_ok hnone).trans rfl
  have hstart : startOf Session.host "x" session = some (.ok ⟨"/", []⟩, session) :=
    (Act.bind_of_ok hdirectory).trans rfl
  refine prepare_of_load rfl (by decide) hstart ?_
  exact Act.bind_of_error (Act.bind_of_error (Session.host_read rfl hread))

theorem missing_settings_file_is_reported :
    ∃ options explicit, Options.ofWords ["--config", "y", "x"] = .ok (options, explicit) ∧
      options.version = false ∧ options.directory = some "x" ∧
      run .empty ["--config", "y", "x"] =
        some ⟨.ok 1, "", "Error: [Errno 2] No such file or directory: 'y'\n"⟩ := by
  obtain ⟨options, explicit, hwords, hversion, hdirectory⟩ : ∃ options explicit,
      Options.ofWords ["--config", "y", "x"] = .ok (options, explicit) ∧
        options.version = false ∧ options.directory = some "x" := ⟨_, _, rfl, rfl, rfl⟩
  refine ⟨options, explicit, hwords, hversion, hdirectory, ?_⟩
  obtain ⟨result, notes, hprepare, hfailed⟩ := failed_preparation_is_reported_or_unguarded
    Ignore.Standard.readsByLine .empty hwords hversion hdirectory (by decide)
  cases hwords
  cases prepare_missingSettings.symm.trans hprepare
  obtain ⟨-, hrun⟩ | ⟨-, hreported, -⟩ := hfailed _ rfl
  · exact hrun.trans rfl
  · cases hreported

/-! ### A project file of the wrong shape -/

namespace FileSystem

def misshapenContent : ByteArray := "tool = 1\n".toUTF8

def misshapenProject : FileSystem :=
  ⟨.directory
    [("t", .directory [("a", .file .empty 0)]), ("pyproject.toml", .file misshapenContent 0)], []⟩

theorem status_misshapenProject :
    misshapenProject.status true (Path.ofText "t") = .ok ⟨.directory, 0, 0⟩ := by
  rw [status, misshapenProject, locate_name (by decide) (by decide) (by decide),
    follow_name_cons rfl (by decide) (by decide) (by decide) rfl (by decide), follow]
  rfl

theorem read_misshapenProject :
    misshapenProject.read (Path.ofText "pyproject.toml") = .ok misshapenContent := by
  rw [read, misshapenProject, locate_name (by decide) (by decide) (by decide),
    follow_name_cons rfl (by decide) (by decide) (by decide) rfl (by decide), follow]
  rfl

end FileSystem

def Settings.isOneTool : Except Failure Toml.Entries → Bool
  | .ok [(key, .int 1)] => key == "tool"
  | _ => false

theorem Settings.eq_of_isOneTool {document : Except Failure Toml.Entries}
    (h : isOneTool document = true) : document = .ok [("tool", .int 1)] := by
  unfold isOneTool at h
  split at h
  · rw [beq_iff_eq.1 h]
  · cases h

theorem Settings.readDocument_misshapenProject :
    readDocument Session.host (Path.ofText "pyproject.toml")
        (Session.ofFiles FileSystem.misshapenProject ([] : List String)) =
      some (.ok [("tool", .int 1)], ⟨FileSystem.misshapenProject, [], []⟩) := by
  let session : Session (List String) := Session.ofFiles FileSystem.misshapenProject []
  have hread : Session.host.read (Path.ofText "pyproject.toml") session =
      some (.ok FileSystem.misshapenContent, session) :=
    Session.host_read rfl FileSystem.read_misshapenProject
  have hdocument : Toml.document? (Text.unifyNewlines "tool = 1\n".toList) =
      .ok [("tool", .int 1)] :=
    eq_of_isOneTool (by decide +kernel)
  refine (Act.bind_of_ok hread).trans ?_
  rw [FileSystem.misshapenContent, Text.fromUTF8?_toUTF8]
  dsimp only
  rw [hdocument]
  rfl

theorem prepare_misshapenProject [Ignore.Library] :
    prepare Session.host { directory := some "t", settingsFile := some (.text "pyproject.toml") } []
        "t" (Session.ofFiles FileSystem.misshapenProject ([] : List String)) =
      some (.error .noTable, ⟨FileSystem.misshapenProject, [], []⟩) := by
  let session : Session (List String) := Session.ofFiles FileSystem.misshapenProject []
  have hstatus : Session.host.status true (Path.ofText "t") session =
      some (.ok ⟨.directory, 0, 0⟩, session) :=
    Session.host_status rfl FileSystem.status_misshapenProject
  have hstart : startOf Session.host "t" session = some (.ok (Path.ofText "t"), session) :=
    (Act.bind_of_ok (Host.hasKind_of_ok .directory hstatus)).trans rfl
  refine prepare_of_load rfl (by decide) hstart ?_
  exact (Act.bind_of_ok Settings.readDocument_misshapenProject).trans rfl

/-- A number in place of a table of a project file breaks a run off. -/
theorem misshapen_project_breaks_run_off :
    ∃ options explicit, Options.ofWords ["--config", "pyproject.toml", "t"] =
        .ok (options, explicit) ∧
      options.version = false ∧ options.directory = some "t" ∧
      ∀ [Ignore.Library], run .misshapenProject ["--config", "pyproject.toml", "t"] =
        some ⟨.error .noTable, "", ""⟩ :=
  ⟨_, _, rfl, rfl, rfl, run_of_prepare rfl rfl rfl (by decide) prepare_misshapenProject⟩

end FileSelection
