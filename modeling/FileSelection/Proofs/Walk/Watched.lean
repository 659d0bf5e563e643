import FileSelection.Proofs.Act
import FileSelection.Walk.Iteration

/-!
# Watched walks

A host can keep account of the directories whose names are asked for.  A walk that is watched so
takes the same steps; the account shows what it has listed.
-/

namespace FileSelection

section

variable {σ : Type}

/-- The host that keeps account of the directories whose names are asked for, the latest first. -/
def Host.watched (host : Host σ) : Host (List Path × σ) where
  names path := do
    Act.gather (path :: ·)
    (host.names path).beside
  status follow path := (host.status follow path).beside
  linkTarget path := (host.linkTarget path).beside
  read path := (host.read path).beside
  workingDirectory := host.workingDirectory.beside
  note note := (host.note note).beside

def Walk.watched (walk : Walk σ) : Walk (List Path × σ) where
  accept entry := (walk.accept entry).beside
  mayDescend entry := (walk.mayDescend entry).beside
  bottomUp := walk.bottomUp
  strict := walk.strict
  followLinks := walk.followLinks

def Walk.Task.listing : Task → List Path
  | .enter directory _ => [directory]
  | .visit _ | .descend _ | .report _ => []

variable (host : Host σ) (walk : Walk σ)

theorem Host.hasKind_watched (follow : Bool) (kind : Kind) (path : Path) :
    host.watched.hasKind follow kind path = (host.hasKind follow kind path).beside := by
  unfold hasKind status?
  rw [Act.beside_bind, Act.beside_bind, Act.beside_attempt]
  refine congrArg (· >>= _) (bind_congr fun result => ?_)
  cases result with
  | ok status => rfl
  | error failure =>
      simp only
      split
      · rfl
      · rfl

namespace Walk

theorem entersInto_watched (entry : Entry) :
    walk.watched.entersInto host.watched entry = (walk.entersInto host entry).beside := by
  have hdescendable : walk.watched.isDescendable host.watched entry.path =
      (walk.isDescendable host entry.path).beside := by
    have hdirectory := host.hasKind_watched true .directory entry.path
    have hlink := host.hasKind_watched false .link entry.path
    unfold isDescendable Host.isDirectory Host.isLink
    rw [hdirectory, hlink]
    cases hfollow : walk.followLinks with
    | true => simp [watched, hfollow]
    | false =>
        simp only [watched, hfollow, Bool.not_false, if_true]
        rw [Act.beside_bind]
        refine bind_congr fun isLink => ?_
        cases isLink with
        | true => rfl
        | false => rfl
  unfold entersInto
  rw [hdescendable, Act.beside_bind]
  refine bind_congr fun descendable => ?_
  cases descendable with
  | true => rfl
  | false => rfl

theorem listNames_watched (strict : Bool) (directory : Path) (listed : List Path) (state : σ) :
    listNames host.watched strict directory (listed, state) =
      (listNames host strict directory).beside (directory :: listed, state) := by
  unfold listNames
  rw [Act.beside_bind, Act.beside_attempt]
  show ((host.names directory).beside.attempt >>= _) (directory :: listed, state) = _
  refine congrFun (bind_congr fun result => ?_) _
  cases result with
  | ok names => rfl
  | error failure =>
      simp only
      split
      · rfl
      · rw [Act.beside_bind]
        rfl

theorem perform_watched (task : Task) (listed : List Path) (state : σ) :
    walk.watched.perform host.watched task (listed, state) =
      (walk.perform host task).beside (task.listing ++ listed, state) := by
  cases task with
  | enter directory relative =>
      unfold perform
      simp only
      rw [Act.bind_apply, listNames_watched, Act.beside_bind, Act.bind_apply]
      rfl
  | visit entry => rfl
  | descend entry =>
      unfold perform
      simp only
      rw [entersInto_watched, Act.beside_bind]
      refine congrFun (bind_congr fun enters => ?_) _
      cases enters with
      | true => rfl
      | false => rfl
  | report entry =>
      unfold perform
      simp only
      rw [Act.beside_bind]
      refine congrFun (bind_congr fun accepted => ?_) _
      cases accepted with
      | true => rfl
      | false => rfl

end Walk

end

end FileSelection
