import FileSelection.FileSystem.Session
import FileSelection.Proofs.Act

/-!
# Questions to a session

A session answers what its file system answers, and stays as it is.
-/

namespace FileSelection

namespace Session

variable {τ : Type} {session : Session τ} {files : FileSystem} {path : Path}
  (hfiles : session.files = files)

include hfiles

theorem host_names {answer : Except Failure (List String)} (h : files.namesIn path = answer) :
    host.names path session = some (answer, session) := by
  subst hfiles h
  rfl

theorem host_status {follow : Bool} {answer : Except Failure Status}
    (h : files.status follow path = answer) :
    host.status follow path session = some (answer, session) := by
  subst hfiles h
  rfl

theorem host_read {answer : Except Failure ByteArray} (h : files.read path = answer) :
    host.read path session = some (answer, session) := by
  subst hfiles h
  rfl

end Session

namespace Host

variable {σ : Type} {host : Host σ} {state last : σ} {follow : Bool} {path : Path}
  {status : Status}

theorem status?_of_ok (h : host.status follow path state = some (.ok status, last)) :
    host.status? follow path state = some (.ok (some status), last) :=
  Act.bind_of_ok (Act.attempt_eq_ok_iff.2 h)

theorem hasKind_of_ok (kind : Kind)
    (h : host.status follow path state = some (.ok status, last)) :
    host.hasKind follow kind path state = some (.ok (status.kind == kind), last) :=
  Act.bind_of_ok (status?_of_ok h)

end Host

end FileSelection
