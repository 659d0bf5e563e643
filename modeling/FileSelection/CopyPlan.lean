import FileSelection.Collection
import FileSelection.Keyed
import FileSelection.Timestamp

/-!
# Copy plans

A copy plan says for each of several sources where it is to be copied.  Sources keep the order in
which they have come in.
-/

namespace FileSelection

structure CopyPlan where
  targets : List (Path × Path)
  deriving DecidableEq, Repr

namespace CopyPlan

variable {σ : Type}

def empty : CopyPlan := ⟨[]⟩

def add (plan : CopyPlan) (source target : Path) : CopyPlan :=
  ⟨Keyed.put source target plan.targets⟩

def below (directory : Path) (entry : Entry) : Path :=
  directory.join (Path.ofText entry.relative)

def chooseTarget? (directory : Option Path) (transform : Option (Entry → Path)) :
    Except Failure (Entry → Path) :=
  match directory, transform with
  | some directory, none => .ok (below directory)
  | none, some transform => .ok transform
  | _, _ => .error .targetChoice

/-- Adds what a collection reports.  When the visit fails, what was reached before stays added. -/
def addCollection (host : Host σ) (plan : CopyPlan) (collection : Collection σ)
    (target : Entry → Path) : Act σ (CopyPlan × Option Failure) :=
  Act.gatheringAll plan
    ((collection.pairs .any false).forEach host collection fun entry =>
      Act.gather (·.add entry.path (target entry)))

def isStale (host : Host σ) (source target : Path) : Act σ Bool := do
  if !(← host.exists? source) then return false
  if !(← host.exists? target) then return true
  let sourceStatus ← host.status true source
  let targetStatus ← host.status true target
  return Timestamp.later sourceStatus.modified targetStatus.modified

def stale (host : Host σ) (plan : CopyPlan) : Act σ (List (Path × Path)) :=
  plan.targets.filterM fun (source, target) => isStale host source target

/-- The sources by their targets; of several sources of one target the last one counts. -/
def reversed (plan : CopyPlan) : List (Path × Path) :=
  plan.targets.foldl (fun found (source, target) => Keyed.put target source found) []

end CopyPlan

end FileSelection
