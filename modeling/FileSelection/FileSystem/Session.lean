import FileSelection.FileSystem.Edit

/-!
# Sessions

A session is a file system together with the notes taken on it and whatever else its user records.
Its host answers from the file system of the moment.
-/

namespace FileSelection

structure Session (τ : Type) where
  files : FileSystem
  /-- The latest note comes first. -/
  notes : List Note
  record : τ

namespace Session

variable {τ : Type}

def ofFiles (files : FileSystem) (record : τ) : Session τ := ⟨files, [], record⟩

def ask {α : Type} (question : FileSystem → Except Failure α) : Act (Session τ) α := fun session =>
  some (question session.files, session)

def change (edit : FileSystem → Except Failure FileSystem) : Act (Session τ) Unit := fun session =>
  match edit session.files with
  | .ok files => some (.ok (), { session with files })
  | .error failure => some (.error failure, session)

def host : Host (Session τ) where
  names path := ask (·.namesIn path)
  status through path := ask (·.status through path)
  linkTarget path := ask (·.linkTarget path)
  read path := ask (·.read path)
  workingDirectory := ask fun files => .ok files.workingPath
  note note := fun session => some (.ok (), { session with notes := note :: session.notes })

end Session

end FileSelection
