import FileSelection.PathList
import FileSelection.Walk.Iteration

/-!
# Collections and sequences

A collection is something that reports entries: a selection or a path list.  A sequence describes
the values that are made from the entries of a collection.  It holds no entries; whenever it is
read, it visits the collection as it then is.  Only the base path of a selection is fixed when the
sequence is made.

A sequence is read at once by `forEach`, or value by value by `Iteration.next`.
-/

namespace FileSelection

inductive Collection (σ : Type) where
  | selected (selection : Selection σ)
  | listed (list : PathList)

structure Sequence (σ α : Type) where
  /-- What the reported relative paths of a selection start with. -/
  basepath : String
  bottomUp : Bool
  /-- Entries that do not meet this rule are dropped. -/
  only : Option (Rule σ)
  /-- The value of an entry; an entry without a value is dropped. -/
  value : Entry → Act σ (Option α)

namespace Collection

variable {σ α β : Type}

def basepath : Collection σ → String
  | .selected selection => selection.basepath
  | .listed _ => ""

def visitAll (host : Host σ) (collection : Collection σ) (basepath : String) (bottomUp : Bool)
    (visit : Entry → Act (β × σ) Unit) : Act (β × σ) Unit :=
  match collection with
  | .selected selection =>
      (selection.walk host bottomUp).forEach host visit selection.directory basepath
  | .listed list => list.forEach host visit bottomUp

/-- Hands every entry to `visit` as soon as it is reached. -/
def forEach (host : Host σ) (collection : Collection σ) (bottomUp : Bool)
    (visit : Entry → Act (β × σ) Unit) : Act (β × σ) Unit :=
  collection.visitAll host collection.basepath bottomUp visit

def collect (collection : Collection σ) (value : Entry → Act σ (Option α)) (bottomUp : Bool)
    (only : Option (Rule σ)) : Sequence σ α :=
  ⟨collection.basepath, bottomUp, only, value⟩

def pairs (collection : Collection σ) (selected : Selected) (bottomUp : Bool) : Sequence σ Entry :=
  collection.collect (fun entry => pure (some entry)) bottomUp selected.rule?

def relatives (collection : Collection σ) (selected : Selected) (bottomUp : Bool) :
    Sequence σ String :=
  collection.collect (fun entry => pure (some entry.relative)) bottomUp selected.rule?

def handles (collection : Collection σ) (selected : Selected) (bottomUp : Bool) : Sequence σ Path :=
  collection.collect (fun entry => pure (some entry.path)) bottomUp selected.rule?

end Collection

namespace Sequence

variable {σ α β : Type}

def pick (host : Host σ) (sequence : Sequence σ α) (entry : Entry) : Act σ (Option α) := do
  let kept ← match sequence.only with
    | none => pure true
    | some rule => rule.holds host entry
  if kept then sequence.value entry else return none

def forEach (host : Host σ) (sequence : Sequence σ α) (collection : Collection σ)
    (visit : α → Act (β × σ) Unit) : Act (β × σ) Unit :=
  collection.visitAll host sequence.basepath sequence.bottomUp fun entry => do
    match ← (sequence.pick host entry).beside with
    | some value => visit value
    | none => pure ()

def toList (host : Host σ) (sequence : Sequence σ α) (collection : Collection σ) :
    Act σ (List α) :=
  (·.reverse) <$> Act.gathering []
    (sequence.forEach host collection fun value => Act.gather (value :: ·))

end Sequence

/-! ## Iterations -/

inductive Iteration.Position where
  | fresh
  | walking (tasks : List Walk.Task)
  | listing (members : List String)
  | over
  deriving Repr

structure Iteration (σ α : Type) where
  sequence : Sequence σ α
  position : Iteration.Position

namespace Iteration

variable {σ α : Type}

def start (sequence : Sequence σ α) : Iteration σ α := ⟨sequence, .fresh⟩

def closed (iteration : Iteration σ α) : Iteration σ α := { iteration with position := .over }

def nextListed (host : Host σ) (sequence : Sequence σ α) (list : PathList) :
    List String → Act σ (Option α × List String)
  | [] => pure (none, [])
  | relative :: rest => do
      let entry := list.entryOf relative
      let value ← if ← host.exists? entry.path then sequence.pick host entry else pure none
      match value with
      | some value => return (some value, rest)
      | none => nextListed host sequence list rest

def entered (iteration : Iteration σ α) (collection : Collection σ) : Position :=
  match iteration.position, collection with
  | .fresh, .selected selection =>
      .walking (Walk.start selection.directory iteration.sequence.basepath)
  | .fresh, .listed list => .listing (list.ordered iteration.sequence.bottomUp)
  | position, _ => position

def next (host : Host σ) (iteration : Iteration σ α) (collection : Collection σ) :
    Act σ (Option α × Iteration σ α) := do
  let sequence := iteration.sequence
  match iteration.entered collection, collection with
  | .walking tasks, .selected selection =>
      let walk := selection.walk host sequence.bottomUp
      let (value, tasks) ← walk.next host (sequence.pick host) tasks
      return (value, ⟨sequence, if value.isSome then .walking tasks else .over⟩)
  | .listing members, .listed list =>
      let (value, members) ← nextListed host sequence list members
      return (value, ⟨sequence, if value.isSome then .listing members else .over⟩)
  | _, _ => return (none, iteration.closed)

end Iteration

end FileSelection
