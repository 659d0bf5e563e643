import FileSelection.FileSystem.Session
import FileSelection.Proofs.Act

/-!
# Sorts of failures

By which failures a computation can end at all.  The sort of a sequence follows from the sorts of
its parts, and so does that of an action which has one answer from all steady states.
-/

namespace FileSelection

variable {α β : Type}

/-- The result is a value, or a failure of this sort. -/
def Failure.Only (sort : Failure → Prop) (result : Except Failure α) : Prop :=
  ∀ failure, result = .error failure → sort failure

namespace Failure.Only

variable {sort sort' : Failure → Prop} {result : Except Failure α} {next : α → Except Failure β}

theorem ok (value : α) : Only sort (.ok value) := nofun

theorem error {failure : Failure} (h : sort failure) :
    Only sort (.error failure : Except Failure α) := by
  rintro _ ⟨⟩
  exact h

theorem mono (h : Only sort result) (hsort : ∀ failure, sort failure → sort' failure) :
    Only sort' result :=
  fun failure hresult => hsort failure (h failure hresult)

theorem bind (h : Only sort result)
    (hnext : ∀ value, result = .ok value → Only sort (next value)) : Only sort (result >>= next) := by
  cases result with
  | ok value => exact hnext value rfl
  | error failure => exact error (h failure rfl)

theorem map (h : Only sort result) (change : α → β) : Only sort (result.map change) := by
  cases result with
  | ok value => exact ok _
  | error failure => exact error (h failure rfl)

theorem mapM {convert : α → Except Failure β} {list : List α}
    (h : ∀ item ∈ list, Only sort (convert item)) : Only sort (list.mapM convert) := by
  induction list with
  | nil => exact ok _
  | cons item list ih =>
      rw [List.mapM_cons]
      refine (h item (by simp)).bind fun _ _ => ?_
      refine (ih fun later hlater => h later (by simp [hlater])).bind fun _ _ => ?_
      exact ok _

end Failure.Only

/-! ## Actions -/

namespace Act

variable {σ : Type} {steady : σ → Prop} {sort sort' : Failure → Prop} {action : Act σ α}

/-- From all steady states the action gives one and the same result, and if that is a failure, it is
of this sort. -/
def FailsOnly (steady : σ → Prop) (sort : Failure → Prop) (action : Act σ α) : Prop :=
  ∃ result, Answers steady action result ∧ Failure.Only sort result

namespace FailsOnly

theorem pure (value : α) : FailsOnly steady sort (Pure.pure value : Act σ α) :=
  ⟨_, .pure value, .ok value⟩

theorem ofExcept {result : Except Failure α} (h : Failure.Only sort result) :
    FailsOnly steady sort (Act.ofExcept result) :=
  ⟨result, .ofExcept result, h⟩

theorem throw {failure : Failure} (h : sort failure) :
    FailsOnly steady sort (throw failure : Act σ α) :=
  ofExcept (.error h)

theorem mono (h : FailsOnly steady sort action) (hsort : ∀ failure, sort failure → sort' failure) :
    FailsOnly steady sort' action := by
  obtain ⟨result, hanswers, honly⟩ := h
  exact ⟨result, hanswers, honly.mono hsort⟩

theorem answered (h : FailsOnly steady sort action) :
    FailsOnly steady (fun failure => sort failure ∧ Answers steady action (.error failure))
      action := by
  obtain ⟨result, hanswers, honly⟩ := h
  refine ⟨result, hanswers, ?_⟩
  rintro failure rfl
  exact ⟨honly failure rfl, hanswers⟩

theorem bind {next : α → Act σ β} (h : FailsOnly steady sort action)
    (hnext : ∀ value, Answers steady action (.ok value) → FailsOnly steady sort (next value)) :
    FailsOnly steady sort (action >>= next) := by
  obtain ⟨result, hanswers, honly⟩ := h
  cases result with
  | ok value =>
      obtain ⟨result, hrest, honly⟩ := hnext value hanswers
      exact ⟨result, hanswers.bind hrest, honly⟩
  | error failure => exact ⟨.error failure, hanswers.bind_error, .error (honly failure rfl)⟩

theorem throw_bind {failure : Failure} (h : sort failure) (next : α → Act σ β) :
    FailsOnly steady sort (MonadExcept.throw failure >>= next) :=
  ⟨.error failure, (Answers.ofExcept (.error failure)).bind_error, .error h⟩

theorem ofExcept_bind {result : Except Failure α} {next : α → Act σ β}
    (h : Failure.Only sort result)
    (hnext : ∀ value, result = .ok value → FailsOnly steady sort (next value)) :
    FailsOnly steady sort (Act.ofExcept result >>= next) := by
  cases result with
  | ok value =>
      rw [Act.ofExcept, pure_bind]
      exact hnext value rfl
  | error failure => exact throw_bind (h failure rfl) next

theorem attempt_bind {next : Except Failure α → Act σ β} (h : FailsOnly steady sort action)
    (hok : ∀ value, Answers steady action (.ok value) → FailsOnly steady sort' (next (.ok value)))
    (herror : ∀ failure, Answers steady action (.error failure) → sort failure →
      FailsOnly steady sort' (next (.error failure))) :
    FailsOnly steady sort' (action.attempt >>= next) := by
  obtain ⟨result, hanswers, honly⟩ := h
  have hrest : FailsOnly steady sort' (next result) := by
    cases result with
    | ok value => exact hok value hanswers
    | error failure => exact herror failure hanswers (honly failure rfl)
  obtain ⟨final, hfinal, hsort⟩ := hrest
  exact ⟨final, hanswers.attempt.bind hfinal, hsort⟩

end FailsOnly

end Act

/-! ## Sessions -/

namespace Session

variable {τ : Type} {files : FileSystem} {record : τ}

def Rests (files : FileSystem) (record : τ) (session : Session τ) : Prop :=
  session.files = files ∧ session.record = record

theorem rests_ofFiles (files : FileSystem) (record : τ) : Rests files record (ofFiles files record) :=
  ⟨rfl, rfl⟩

theorem answers_ask (question : FileSystem → Except Failure α) :
    Act.Answers (Rests files record) (ask question) (question files) := by
  rintro session ⟨rfl, rfl⟩
  exact ⟨session, ⟨rfl, rfl⟩, rfl⟩

section

variable {path : Path}

theorem answers_status {through : Bool} {answer : Except Failure Status}
    (h : files.status through path = answer) :
    Act.Answers (Rests files record) (host.status through path) answer :=
  h ▸ answers_ask (·.status through path)

theorem answers_linkTarget {answer : Except Failure String} (h : files.linkTarget path = answer) :
    Act.Answers (Rests files record) (host.linkTarget path) answer :=
  h ▸ answers_ask (·.linkTarget path)

theorem answers_read {answer : Except Failure ByteArray} (h : files.read path = answer) :
    Act.Answers (Rests files record) (host.read path) answer :=
  h ▸ answers_ask (·.read path)

end

theorem answers_note (note : Note) :
    Act.Answers (Rests files record) (host.note note) (.ok ()) := by
  rintro session ⟨rfl, rfl⟩
  exact ⟨{ session with notes := note :: session.notes }, ⟨rfl, rfl⟩, rfl⟩

end Session

end FileSelection
