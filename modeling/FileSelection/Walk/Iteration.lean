import FileSelection.Walk.Basic

/-!
# Walking step by step

A suspended walk is a stack of tasks.  One step carries out the first task and puts the tasks that
follow from it in its place: the names of a directory are read when the directory is entered, and
whether a name is a directory is looked up when its turn comes.

A walk is either asked for its next entry or followed to its end.

The stack has no limit, so that a directory is entered however deep it lies.
-/

namespace FileSelection.Walk

variable {σ : Type}

inductive Task where
  | enter (directory : Path) (relative : String)
  | visit (entry : Entry)
  | descend (entry : Entry)
  | report (entry : Entry)
  deriving Repr

def start (directory : Path) (relative : String) : List Task := [.enter directory relative]

/-- Carries out a task: the entry that it reports, if any, and the tasks that take its place. -/
def perform (host : Host σ) (walk : Walk σ) (task : Task) :
    Act σ (Option Entry × List Task) :=
  match task with
  | .enter directory relative => do
      let names ← listNames host walk.strict directory
      return (none, names.map fun name => .visit (entryOf directory relative name))
  | .visit entry =>
      pure (none,
        if walk.bottomUp then [.descend entry, .report entry]
        else [.report entry, .descend entry])
  | .descend entry => do
      if ← walk.entersInto host entry then return (none, [.enter entry.path entry.relative])
      else return (none, [])
  | .report entry => do
      if ← walk.accept entry then return (some entry, []) else return (none, [])

/-! ## Asking for one entry after the other -/

/-- One step on the way to the next value that `pick` makes from a reported entry.  The answer holds
what is left to do after it; without a value, nothing is left. -/
def advance {α : Type} (host : Host σ) (walk : Walk σ) (pick : Entry → Act σ (Option α)) :
    List Task → Act σ (List Task ⊕ Option α × List Task)
  | [] => pure (.inr (none, []))
  | task :: rest => do
      let (found, tasks) ← walk.perform host task
      let value ← match found with
        | some entry => pick entry
        | none => pure none
      match value with
      | some value => return .inr (some value, tasks ++ rest)
      | none => return .inl (tasks ++ rest)

def next {α : Type} (host : Host σ) (walk : Walk σ) (pick : Entry → Act σ (Option α))
    (stack : List Task) : Act σ (Option α × List Task) :=
  Act.Step.loop (walk.advance host pick) stack

/-! ## Following a walk to its end -/

variable {β : Type}

/-- One step of a walk that hands every reported entry to `visit`. -/
def follow (host : Host σ) (walk : Walk σ) (visit : Entry → Act (β × σ) Unit) :
    List Task → Act (β × σ) (List Task ⊕ Unit)
  | [] => pure (.inr ())
  | task :: rest => do
      let (found, tasks) ← (walk.perform host task).beside
      match found with
      | some entry => visit entry
      | none => pure ()
      return .inl (tasks ++ rest)

def forEach (host : Host σ) (walk : Walk σ) (visit : Entry → Act (β × σ) Unit) (directory : Path)
    (relative : String) : Act (β × σ) Unit :=
  Act.Step.loop (walk.follow host visit) (start directory relative)

def entries (host : Host σ) (walk : Walk σ) (directory : Path) (relative : String) :
    Act σ (List Entry) :=
  (·.reverse) <$> Act.gathering []
    (walk.forEach host (fun entry => Act.gather (entry :: ·)) directory relative)

end FileSelection.Walk
