import FileSelection.CommandLine.Run
import FileSelection.Proofs.Failures

/-!
# Refusals of the system

The system can refuse to answer a question about a path.  A run of the command line reports every
refusal, and nothing else can go wrong with a question.
-/

namespace FileSelection

open Failure

variable [Ignore.Library] {α β σ : Type} {steady : σ → Prop} {cause cause' : Failure → Prop}

def Failure.Reported (failure : Failure) : Prop := CommandLine.isReported failure = true

def Failure.ReportedOr (cause : Failure → Prop) (failure : Failure) : Prop :=
  failure.Reported ∨ cause failure

namespace Failure.Only

variable {result : Except Failure α}

theorem orCause (h : Only Reported result) : Only (ReportedOr cause) result :=
  h.mono fun _ => .inl

theorem widen (h : Only (ReportedOr cause) result)
    (hcause : ∀ failure, cause failure → cause' failure) : Only (ReportedOr cause') result :=
  h.mono fun failure => Or.imp_right (hcause failure)

end Failure.Only

namespace Act.FailsOnly

variable {action : Act σ α}

theorem orCause (h : FailsOnly steady Reported action) :
    FailsOnly steady (ReportedOr cause) action :=
  h.mono fun _ => .inl

theorem widen (h : FailsOnly steady (ReportedOr cause) action)
    (hcause : ∀ failure, cause failure → cause' failure) :
    FailsOnly steady (ReportedOr cause') action :=
  h.mono fun failure => Or.imp_right (hcause failure)

end Act.FailsOnly

/-! ## File systems -/

namespace FileSystem

theorem locate_reported (fs : FileSystem) (through : Bool) (path : Path) :
    Only Reported (fs.locate through path) := by
  unfold locate
  dsimp only
  split
  · exact .error rfl
  split
  · exact .error rfl
  split
  · exact .ok _
  · exact .error rfl

theorem read_reported (fs : FileSystem) (path : Path) : Only Reported (fs.read path) := by
  refine (fs.locate_reported true path).bind fun location _ => ?_
  split
  · exact .ok _
  · exact .error rfl
  · exact .ok _

end FileSystem

/-! ## Hosts -/

/-- There are steady states, and from all of them each question to the host has one answer.  If that
is a failure, a run reports it. -/
structure Host.Responds (host : Host σ) (steady : σ → Prop) : Prop where
  exists_steady : ∃ state, steady state
  status : ∀ through path, Act.FailsOnly steady Reported (host.status through path)
  linkTarget : ∀ path, Act.FailsOnly steady Reported (host.linkTarget path)
  read : ∀ path, Act.FailsOnly steady Reported (host.read path)
  workingDirectory : Act.FailsOnly steady Reported host.workingDirectory
  note : ∀ note, Act.FailsOnly steady Reported (host.note note)

theorem Session.host_responds {τ : Type} (files : FileSystem) (record : τ) :
    (Session.host (τ := τ)).Responds (Session.Rests files record) where
  exists_steady := ⟨_, rests_ofFiles files record⟩
  status through path :=
    ⟨_, answers_ask (·.status through path), (files.locate_reported through path).map _⟩
  linkTarget path :=
    ⟨_, answers_ask (·.linkTarget path), (files.locate_reported false path).map _⟩
  read path := ⟨_, answers_ask (·.read path), files.read_reported path⟩
  workingDirectory :=
    ⟨.ok files.workingPath, answers_ask fun files => .ok files.workingPath, .ok _⟩
  note note := ⟨_, answers_note note, .ok ()⟩

namespace Host.Responds

variable {host : Host σ}

theorem exists_run {action : Act σ α} {result : Except Failure α} (h : host.Responds steady)
    (hanswers : Act.Answers steady action result) :
    ∃ state last, steady state ∧ action state = some (result, last) := by
  obtain ⟨state, hstate⟩ := h.exists_steady
  obtain ⟨last, -, hrun⟩ := hanswers state hstate
  exact ⟨state, last, hstate, hrun⟩

theorem status? (h : host.Responds steady) (follow : Bool) (path : Path) :
    Act.FailsOnly steady Reported (host.status? follow path) := by
  refine (h.status follow path).attempt_bind (fun status _ => .pure _) fun failure _ hfailure => ?_
  dsimp only
  split
  · exact .pure _
  · exact .throw hfailure

theorem hasKind (h : host.Responds steady) (follow : Bool) (kind : Kind) (path : Path) :
    Act.FailsOnly steady Reported (host.hasKind follow kind path) :=
  (h.status? follow path).bind fun _ _ => .pure _

theorem exists? (h : host.Responds steady) (path : Path) :
    Act.FailsOnly steady Reported (host.exists? path) :=
  (h.status? true path).bind fun _ _ => .pure _

end Host.Responds

end FileSelection
