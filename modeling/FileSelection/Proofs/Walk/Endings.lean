import FileSelection.Proofs.FileSystem.Links
import FileSelection.Proofs.Walk.Containment

/-!
# Walks that end

A walk keeps no account of the directories in which it has been, so that links can lead it back to
them.  Still it ends: with each directory that it goes into its path grows by a name, and a path
that is too long or leads through too many links is not followed by the system.
-/

namespace FileSelection

open FileSelection.Path FileSelection.FileSystem Act

namespace Walk

section

variable {σ : Type} (host : Host σ) (walk : Walk σ) (steady : σ → Prop)

/-- From whatever steady states tasks are carried out, nothing is left after so many steps. -/
inductive EndsWithin : Nat → List Task → Prop
  | done {steps : Nat} : EndsWithin steps []
  | step {steps : Nat} {task : Task} {rest : List Task} :
      (walk.perform host task).Halts steady →
        (∀ state found tasks last, steady state →
          walk.perform host task state = some (.ok (found, tasks), last) →
            EndsWithin steps (tasks ++ rest)) →
          EndsWithin (steps + 1) (task :: rest)

/-- The values to which a walk goes on one after the other, and the tasks that are left then.
Between two values the state can become any other steady one. -/
inductive Yields {α : Type} (pick : Entry → Act σ (Option α)) :
    List Task → List α → List Task → Prop
  | nil {stack : List Task} : Yields pick stack [] stack
  | cons {stack middle rest : List Task} {value : α} {values : List α} {state last : σ} :
      steady state → walk.next host pick stack state = some (.ok (some value, middle), last) →
        Yields pick middle values rest → Yields pick stack (value :: values) rest

end

section

variable {σ : Type} {host : Host σ} {walk : Walk σ} {steady : σ → Prop} {steps more : Nat}
  {stack others : List Task}

/-! ## Numbers of steps -/

theorem EndsWithin.mono (h : walk.EndsWithin host steady steps stack) (hle : steps ≤ more) :
    walk.EndsWithin host steady more stack := by
  induction h generalizing more with
  | done => exact .done
  | step hhalts _ ih =>
      obtain ⟨fewer, rfl⟩ : ∃ fewer, more = fewer + 1 := ⟨more - 1, by omega⟩
      refine .step hhalts fun state found tasks last hstate hperform => ?_
      exact ih state found tasks last hstate hperform (by omega)

theorem EndsWithin.append (h : walk.EndsWithin host steady steps stack)
    (hothers : walk.EndsWithin host steady more others) :
    walk.EndsWithin host steady (steps + more) (stack ++ others) := by
  induction h with
  | done => exact hothers.mono (by omega)
  | @step steps task rest hhalts _ ih =>
      rw [Nat.add_right_comm]
      refine .step hhalts fun state found tasks last hstate hperform => ?_
      have hrest := ih state found tasks last hstate hperform
      rwa [List.append_assoc] at hrest

theorem exists_endsWithin_of_forall {tasks : List Task}
    (h : ∀ task ∈ tasks, ∃ steps, walk.EndsWithin host steady steps [task]) :
    ∃ steps, walk.EndsWithin host steady steps tasks := by
  induction tasks with
  | nil => exact ⟨0, .done⟩
  | cons task tasks ih =>
      obtain ⟨⟨first, hfirst⟩, htasks⟩ := List.forall_mem_cons.1 h
      obtain ⟨rest, hrest⟩ := ih htasks
      exact ⟨_, hfirst.append hrest⟩

theorem exists_endsWithin_step {task : Task} (hhalts : (walk.perform host task).Halts steady)
    (htasks : ∃ steps, ∀ state found tasks last, steady state →
      walk.perform host task state = some (.ok (found, tasks), last) →
        walk.EndsWithin host steady steps tasks) :
    ∃ steps, walk.EndsWithin host steady steps [task] := by
  obtain ⟨steps, hsteps⟩ := htasks
  refine ⟨steps + 1, .step hhalts fun state found tasks last hstate hperform => ?_⟩
  rw [List.append_nil]
  exact hsteps state found tasks last hstate hperform

/-! ## Loops over tasks -/

variable {α β : Type} {pick : Entry → Act σ (Option α)} {visit : Entry → Act (β × σ) Unit}
  {state last : σ}

theorem EndsWithin.advance_halts (h : walk.EndsWithin host steady steps stack)
    (hpick : ∀ entry, (pick entry).Halts steady) : (walk.advance host pick stack).Halts steady := by
  cases h with
  | done => exact .pure _
  | step hhalts _ =>
      refine hhalts.bind fun (found, tasks) => ?_
      cases found with
      | none => exact .pure _
      | some entry =>
          refine (hpick entry).bind fun value => ?_
          cases value with
          | none | some _ => exact .pure _

theorem EndsWithin.of_advance {answer : List Task ⊕ Option α × List Task}
    (h : walk.EndsWithin host steady steps stack) (hstate : steady state)
    (hadvance : walk.advance host pick stack state = some (.ok answer, last)) :
    ∀ rest, answer = .inl rest ∨ (∃ value, answer = .inr (some value, rest)) →
      ∃ fewer, fewer < steps ∧ walk.EndsWithin host steady fewer rest := by
  cases h with
  | done =>
      cases hadvance
      simp
  | @step steps task rest hhalts hrest =>
      obtain ⟨⟨found, tasks⟩, middle, hperform, hleft⟩ := bind_eq_ok_iff.1 hadvance
      have hfewer := hrest state found tasks middle hstate hperform
      have hanswer : answer = .inl (tasks ++ rest) ∨
          ∃ value, answer = .inr (some value, tasks ++ rest) := by
        cases found with
        | none =>
            cases hleft
            exact .inl rfl
        | some entry =>
            obtain ⟨value, after, -, hleft⟩ := bind_eq_ok_iff.1 hleft
            cases value with
            | none =>
                cases hleft
                exact .inl rfl
            | some value =>
                cases hleft
                exact .inr ⟨value, rfl⟩
      intro following hfollowing
      obtain rfl : following = tasks ++ rest := by
        obtain rfl | ⟨value, rfl⟩ := hanswer
        · simpa [eq_comm] using hfollowing
        · simpa [eq_comm] using hfollowing
      exact ⟨steps, Nat.lt_succ_self steps, hfewer⟩

theorem EndsWithin.next_halts (h : walk.EndsWithin host steady steps stack)
    (hpick : ∀ entry, (pick entry).Halts steady) : (walk.next host pick stack).Halts steady :=
  Halts.loop (fun _ _ hstack => hstack.advance_halts hpick)
    (fun _ _ _ following _ hstack hstate hadvance =>
      hstack.of_advance hstate hadvance following (.inl rfl)) h

theorem EndsWithin.of_next {value : α} {rest : List Task}
    (h : walk.EndsWithin host steady steps stack) (hpick : ∀ entry, (pick entry).Halts steady)
    (hstate : steady state)
    (hnext : walk.next host pick stack state = some (.ok (some value, rest), last)) :
    ∃ fewer, fewer < steps ∧ walk.EndsWithin host steady fewer rest := by
  rw [next, loop_eq_some_iff] at hnext
  generalize houtcome : (Except.ok (some value, rest), last) = outcome at hnext
  induction hnext generalizing steps with
  | value hstep =>
      cases houtcome
      exact h.of_advance hstate hstep rest (.inr ⟨value, rfl⟩)
  | failure => cases houtcome
  | next hstep _ ih =>
      obtain ⟨fewer, hlt, hfewer⟩ := h.of_advance hstate hstep _ (.inl rfl)
      obtain ⟨left, hleft, hrest⟩ :=
        ih hfewer ((h.advance_halts hpick).stays hstate hstep) houtcome
      exact ⟨left, hleft.trans hlt, hrest⟩

theorem EndsWithin.of_yields {values : List α} {rest : List Task}
    (h : walk.EndsWithin host steady steps stack) (hpick : ∀ entry, (pick entry).Halts steady)
    (hyields : Yields host walk steady pick stack values rest) :
    values.length ≤ steps ∧ (walk.next host pick rest).Halts steady := by
  induction hyields generalizing steps with
  | nil => exact ⟨Nat.zero_le steps, h.next_halts hpick⟩
  | cons hstate hnext _ ih =>
      obtain ⟨fewer, hlt, hfewer⟩ := h.of_next hpick hstate hnext
      obtain ⟨hlength, hhalts⟩ := ih hfewer
      exact ⟨by simp only [List.length_cons]; omega, hhalts⟩

theorem EndsWithin.follow_halts (h : walk.EndsWithin host steady steps stack)
    (hvisit : ∀ entry, (visit entry).Halts fun pair => steady pair.2) :
    Halts (fun pair => steady pair.2) (Step.loop (walk.follow host visit) stack) := by
  have hstep (steps : Nat) (stack : List Task) (hstack : walk.EndsWithin host steady steps stack) :
      Halts (fun pair => steady pair.2) (walk.follow host visit stack) := by
    cases hstack with
    | done => exact .pure _
    | step hhalts _ =>
        refine hhalts.beside.bind fun (found, tasks) => ?_
        cases found with
        | none => exact .pure _
        | some entry => exact (hvisit entry).bind fun _ => .pure _
  refine Halts.loop hstep (fun steps stack pair following last hstack hstate hfollow => ?_) h
  cases hstack with
  | done => cases hfollow
  | @step steps task rest hhalts hrest =>
      obtain ⟨⟨found, tasks⟩, ⟨gathered, middle⟩, hbeside, hleft⟩ := bind_eq_ok_iff.1 hfollow
      obtain ⟨hperform, -⟩ := beside_eq_some_iff.1 hbeside
      have hfewer := hrest pair.2 found tasks middle hstate hperform
      cases found with
      | none =>
          cases hleft
          exact ⟨steps, Nat.lt_succ_self steps, hfewer⟩
      | some entry =>
          obtain ⟨_, _, -, heq⟩ := bind_eq_ok_iff.1 hleft
          cases heq
          exact ⟨steps, Nat.lt_succ_self steps, hfewer⟩

end

/-! ## Single tasks -/

section

variable {σ : Type} {fs : FileSystem} {host : Host σ} {walk : Walk σ} {steady : σ → Prop}
  {path : Path} {relative : String} {entry : Entry}

theorem listNames_of_refused {failure : Failure} (hshown : fs.IsShownBy host steady) (strict : Bool)
    (h : fs.namesIn path = .error failure) :
    Answers steady (listNames host strict path) (.error failure) ∨
      Answers steady (listNames host strict path) (.ok []) := by
  have hnames := (hshown.names path).attempt
  rw [h] at hnames
  unfold listNames
  cases hraise : strict || !failure.isSystem with
  | true =>
      refine .inl (hnames.bind ?_)
      simp only [hraise, if_true]
      exact .ofExcept (.error failure)
  | false =>
      refine .inr (hnames.bind ?_)
      simp only [hraise, Bool.false_eq_true, if_false]
      exact (hshown.note _).bind (.pure [])

theorem perform_enter_answers (walk : Walk σ) (hshown : fs.IsShownBy host steady) (path : Path)
    (relative : String) :
    ∃ names : List String, (∀ name ∈ names, ∃ found, fs.namesIn path = .ok found ∧ name ∈ found) ∧
      (Answers steady (walk.perform host (.enter path relative))
          (.ok (none, names.map fun name => .visit (entryOf path relative name))) ∨
        ∃ failure, Answers steady (walk.perform host (.enter path relative)) (.error failure)) := by
  cases hfound : fs.namesIn path with
  | ok found =>
      refine ⟨sortNames found, fun name hname => ⟨found, rfl, List.mem_mergeSort.1 hname⟩, .inl ?_⟩
      exact (hshown.listNames hfound walk.strict).bind (.pure _)
  | error failure =>
      refine ⟨[], by simp, ?_⟩
      obtain hfails | hnone := listNames_of_refused hshown walk.strict hfound
      · exact .inr ⟨failure, hfails.bind_error⟩
      · exact .inl (hnone.bind (.pure _))

theorem hasKind_halts (hshown : fs.IsShownBy host steady) (follow : Bool) (kind : Kind)
    (path : Path) : (host.hasKind follow kind path).Halts steady := by
  refine Halts.bind ?_ fun _ => .pure _
  refine (hshown.status follow path).attempt.halts.bind fun status => ?_
  cases status with
  | ok status => exact .pure _
  | error failure =>
      simp only
      split
      · exact .pure _
      · exact .throw _

theorem isDescendable_halts (hshown : fs.IsShownBy host steady) (path : Path) :
    (walk.isDescendable host path).Halts steady := by
  unfold isDescendable
  cases walk.followLinks with
  | true => exact hasKind_halts hshown true .directory path
  | false =>
      refine (hasKind_halts hshown false .link path).bind fun isLink => ?_
      cases isLink with
      | true => exact .pure _
      | false => exact hasKind_halts hshown true .directory path

theorem admits_of_isDescendable {state last : σ} (hshown : fs.IsShownBy host steady)
    (hstate : steady state)
    (h : walk.isDescendable host path state = some (.ok true, last)) : fs.Admits path := by
  have hdirectory {before after : σ} (hbefore : steady before)
      (h : host.hasKind true .directory path before = some (.ok true, after)) :
      fs.Admits path := by
    obtain ⟨-, hkind⟩ := hshown.kind_of_hasKind hbefore h
    obtain ⟨status, hstatus, -⟩ := hkind.1 rfl
    obtain ⟨place, hplace, -⟩ := status_eq_ok_iff.1 hstatus
    exact admits_of_locate hplace
  unfold isDescendable at h
  cases hfollow : walk.followLinks with
  | true =>
      rw [hfollow] at h
      exact hdirectory hstate h
  | false =>
      rw [hfollow] at h
      obtain ⟨isLink, middle, hisLink, hrest⟩ := bind_eq_ok_iff.1 h
      cases isLink with
      | true => cases hrest
      | false =>
          have hmiddle := (hasKind_halts hshown false .link path).stays hstate hisLink
          exact hdirectory hmiddle hrest

variable (hshown : fs.IsShownBy host steady) (haccept : ∀ entry, (walk.accept entry).Halts steady)
  (hdescend : ∀ entry, (walk.mayDescend entry).Halts steady)

include hshown haccept hdescend

theorem perform_halts (task : Task) : (walk.perform host task).Halts steady := by
  cases task with
  | enter path relative =>
      obtain ⟨names, -, hanswers | ⟨failure, hfails⟩⟩ :=
        perform_enter_answers walk hshown path relative
      · exact hanswers.halts
      · exact hfails.halts
  | visit entry => exact .pure _
  | descend entry =>
      refine Halts.bind ?_ fun enters => ?_
      · refine (isDescendable_halts hshown entry.path).bind fun descendable => ?_
        cases descendable with
        | true => exact hdescend entry
        | false => exact .pure _
      · cases enters with
        | true | false => exact .pure _
  | report entry =>
      refine (haccept entry).bind fun accepted => ?_
      cases accepted with
      | true | false => exact .pure _

/-! ## Whole walks -/

theorem exists_endsWithin_visit
    (h : ∃ steps, walk.EndsWithin host steady steps [.enter entry.path entry.relative]) :
    ∃ steps, walk.EndsWithin host steady steps [.visit entry] := by
  have hhalts : ∀ task, (walk.perform host task).Halts steady :=
    perform_halts hshown haccept hdescend
  have hreport : ∃ steps, walk.EndsWithin host steady steps [.report entry] := by
    refine exists_endsWithin_step (hhalts _) ⟨0, fun state found tasks last _ hperform => ?_⟩
    obtain ⟨accepted, middle, -, hrest⟩ := bind_eq_ok_iff.1 hperform
    cases accepted with
    | true | false =>
        cases hrest
        exact .done
  have hdescent : ∃ steps, walk.EndsWithin host steady steps [.descend entry] := by
    obtain ⟨steps, hsteps⟩ := h
    refine exists_endsWithin_step (hhalts _) ⟨steps, fun state found tasks last _ hperform => ?_⟩
    obtain ⟨enters, middle, -, hrest⟩ := bind_eq_ok_iff.1 hperform
    cases enters with
    | true =>
        cases hrest
        exact hsteps
    | false =>
        cases hrest
        exact .done
  have hboth : ∃ steps, walk.EndsWithin host steady steps
      (if walk.bottomUp then [.descend entry, .report entry]
        else [.report entry, .descend entry]) := by
    refine exists_endsWithin_of_forall fun task htask => ?_
    obtain rfl | rfl : task = .descend entry ∨ task = .report entry := by
      cases hbottomUp : walk.bottomUp with
      | true => simpa [hbottomUp] using htask
      | false => simpa [hbottomUp, or_comm] using htask
    · exact hdescent
    · exact hreport
  obtain ⟨steps, hsteps⟩ := hboth
  refine exists_endsWithin_step (hhalts _) ⟨steps, fun state found tasks last _ hperform => ?_⟩
  cases hperform
  exact hsteps

theorem exists_endsWithin_enter (htidy : fs.rootLocation.IsTidy) (path : Path)
    (relative : String) : ∃ steps, walk.EndsWithin host steady steps [.enter path relative] := by
  induction hleft : pathLimit + 2 - path.names.length using Nat.strongRecOn
    generalizing path relative with
  | _ left ih =>
      obtain ⟨names, hnames, hanswers⟩ := perform_enter_answers walk hshown path relative
      have hvisits : ∃ steps, walk.EndsWithin host steady steps
          (names.map fun name => .visit (entryOf path relative name)) := by
        refine exists_endsWithin_of_forall (List.forall_mem_map.2 fun name hname => ?_)
        obtain ⟨found, hfound, hname⟩ := hnames name hname
        have hentry := isEntryName_of_namesIn htidy hfound name hname
        have hlonger : (path.child name).names.length = path.names.length + 1 := by
          rw [child_eq_below hentry.toIsName hentry.notSelf]
          exact List.length_append
        have hshort : path.names.length ≤ pathLimit + 1 :=
          (length_names_le path).trans (Nat.succ_le_succ (admits_of_namesIn hfound).size)
        refine exists_endsWithin_visit hshown haccept hdescend ?_
        exact ih _ (by omega) (path.child name) _ rfl
      obtain ⟨steps, hsteps⟩ := hvisits
      refine exists_endsWithin_step (perform_halts hshown haccept hdescend _) ⟨steps, ?_⟩
      intro state found tasks last hstate hperform
      obtain hanswers | ⟨failure, hfails⟩ := hanswers
      · obtain ⟨after, -, hdone⟩ := hanswers state hstate
        rw [hdone] at hperform
        cases hperform
        exact hsteps
      · obtain ⟨after, -, hdone⟩ := hfails state hstate
        rw [hdone] at hperform
        cases hperform

omit haccept hdescend in
theorem listing_of_perform {task : Task} {found : Option Entry} {tasks : List Task}
    {state last : σ} (hstate : steady state)
    (h : walk.perform host task state = some (.ok (found, tasks), last)) :
    ∀ following ∈ tasks, ∀ path ∈ following.listing, fs.Admits path := by
  cases task with
  | enter directory relative =>
      obtain ⟨names, middle, -, hrest⟩ := bind_eq_ok_iff.1 h
      cases hrest
      simp [Task.listing]
  | visit entry =>
      cases h
      split
      · simp [Task.listing]
      · simp [Task.listing]
  | report entry =>
      obtain ⟨accepted, middle, -, hrest⟩ := bind_eq_ok_iff.1 h
      cases accepted with
      | true | false =>
          cases hrest
          simp
  | descend entry =>
      obtain ⟨enters, middle, henters, hrest⟩ := bind_eq_ok_iff.1 h
      cases enters with
      | false =>
          cases hrest
          simp
      | true =>
          cases hrest
          obtain ⟨descendable, between, hdescendable, henters⟩ := bind_eq_ok_iff.1 henters
          cases descendable with
          | false => cases henters
          | true => simpa [Task.listing] using admits_of_isDescendable hshown hstate hdescendable

omit hshown haccept hdescend in
theorem perform_of_follow_watched {task : Task} {rest : List Task} {reported : List Entry}
    {listed : List Path} {state : σ} {after : List Entry × List Path × σ}
    {result : Except Failure (List Task ⊕ Unit)}
    (h : walk.watched.follow host.watched (fun entry => Act.gather (entry :: ·)) (task :: rest)
      (reported, listed, state) = some (result, after)) :
    ∃ outcome last, walk.perform host task state = some (outcome, last) ∧
      after.2 = (task.listing ++ listed, last) ∧
        ∀ following, result = .ok (.inl following) →
          ∃ found tasks, outcome = .ok (found, tasks) ∧ following = tasks ++ rest := by
  obtain ⟨⟨found, tasks⟩, ⟨listed', last⟩, hwatched, hrest⟩ |
      ⟨failure, ⟨listed', last⟩, hwatched, heq⟩ := beside_bind_eq_some_iff.1 h
  · rw [perform_watched] at hwatched
    obtain ⟨hperform, rfl⟩ := beside_eq_some_iff.1 hwatched
    refine ⟨.ok (found, tasks), last, hperform, ?_⟩
    cases found with
    | none | some _ =>
        cases hrest
        exact ⟨rfl, by simp⟩
  · rw [perform_watched] at hwatched
    obtain ⟨hperform, rfl⟩ := beside_eq_some_iff.1 hwatched
    cases heq
    exact ⟨.error failure, last, hperform, rfl, by simp⟩

theorem admits_of_passes {stack : List Task} {before after : List Entry × List Path × σ}
    {directory : Path}
    (h : Passes (walk.watched.follow host.watched fun entry => Act.gather (entry :: ·)) stack
      before after)
    (hsteady : steady before.2.2)
    (hlisted : ∀ path ∈ before.2.1, path = directory ∨ fs.Admits path)
    (hstack : ∀ task ∈ stack, ∀ path ∈ task.listing, path = directory ∨ fs.Admits path) :
    ∀ path ∈ after.2.1, path = directory ∨ fs.Admits path := by
  have hlisting {task : Task} {rest : List Task} {before after : List Entry × List Path × σ}
      {result : Except Failure (List Task ⊕ Unit)}
      (hstep : walk.watched.follow host.watched (fun entry => Act.gather (entry :: ·))
        (task :: rest) before = some (result, after))
      (hlisted : ∀ path ∈ before.2.1, path = directory ∨ fs.Admits path)
      (htask : ∀ path ∈ task.listing, path = directory ∨ fs.Admits path) :
      ∀ path ∈ after.2.1, path = directory ∨ fs.Admits path := by
    obtain ⟨_, _, -, hafter, -⟩ := perform_of_follow_watched hstep
    rw [hafter]
    exact List.forall_mem_append.2 ⟨htask, hlisted⟩
  induction h with
  | here => exact hlisted
  | @last stack before after result hstep =>
      cases stack with
      | nil =>
          cases hstep
          exact hlisted
      | cons task rest => exact hlisting hstep hlisted (hstack task List.mem_cons_self)
  | @next stack following before middle after hstep _ ih =>
      cases stack with
      | nil => cases hstep
      | cons task rest =>
          obtain ⟨htask, hrest⟩ := List.forall_mem_cons.1 hstack
          obtain ⟨outcome, last, hperform, hmiddle, hfollowing⟩ := perform_of_follow_watched hstep
          obtain ⟨found, tasks, rfl, rfl⟩ := hfollowing following rfl
          refine ih ?_ (hlisting hstep hlisted htask) (List.forall_mem_append.2 ⟨?_, hrest⟩)
          · rw [hmiddle]
            exact (perform_halts hshown haccept hdescend task).stays hsteady hperform
          · intro task' htask' path hpath
            exact .inr (listing_of_perform hshown hsteady hperform task' htask' path hpath)

end

end Walk

/-- As long as the file system does not change, every walk ends, whatever links there are and
whatever the walk decides: followed to its end or asked for one value after the other, of which
there are only so many.  It goes into nothing that the system does not follow: no path that is too
long, and none that leads through too many links. -/
theorem walks_end {σ : Type} {fs : FileSystem} {host : Host σ} {walk : Walk σ} {steady : σ → Prop}
    (hshown : fs.IsShownBy host steady) (htidy : fs.rootLocation.IsTidy)
    (haccept : ∀ entry, (walk.accept entry).Halts steady)
    (hdescend : ∀ entry, (walk.mayDescend entry).Halts steady)
    (directory : Path) (relative : String) :
    (∀ {β : Type} (visit : Entry → Act (β × σ) Unit),
      (∀ entry, (visit entry).Halts fun pair => steady pair.2) →
        (walk.forEach host visit directory relative).Halts fun pair => steady pair.2) ∧
    (∃ steps, ∀ {α : Type} (pick : Entry → Act σ (Option α)),
      (∀ entry, (pick entry).Halts steady) →
        ∀ values rest,
          Walk.Yields host walk steady pick (Walk.start directory relative) values rest →
            values.length ≤ steps ∧ (walk.next host pick rest).Halts steady) ∧
    ∀ state reported listed last, steady state →
      Passes (walk.watched.follow host.watched fun entry => Act.gather (entry :: ·))
        (Walk.start directory relative) ([], [], state) (reported, listed, last) →
          ∀ path ∈ listed, path = directory ∨ path.text.utf8ByteSize ≤ pathLimit ∧
            ∀ links, fs.PassesLinks path links → links ≤ linkLimit := by
  obtain ⟨steps, hsteps⟩ :=
    Walk.exists_endsWithin_enter hshown haccept hdescend htidy directory relative
  refine ⟨fun visit hvisit => hsteps.follow_halts hvisit,
    ⟨steps, fun pick hpick values rest hyields => hsteps.of_yields hpick hyields⟩, ?_⟩
  intro state reported listed last hstate hpasses path hpath
  have hbase : ∀ task ∈ Walk.start directory relative, ∀ path ∈ task.listing,
      path = directory ∨ fs.Admits path := by
    simp [Walk.start, Walk.Task.listing]
  obtain hpath | hadmits := Walk.admits_of_passes hshown haccept hdescend hpasses hstate
    (by simp) hbase path hpath
  · exact .inl hpath
  · exact .inr ⟨hadmits.size, hadmits.links⟩

def linkedWalk : Walk (Session Unit) :=
  { unlinkedSelection with followLinks := true }.walk Session.host false

theorem linked_walk_ends :
    ∃ result last,
      linkedWalk.forEach Session.host (fun entry => Act.gather (entry :: ·)) ⟨"/", []⟩ ""
          ([], Session.ofFiles .backLink ()) = some (result, last) := by
  have haccept : ∀ entry,
      (linkedWalk.accept entry).Halts fun session => session.files = .backLink :=
    fun entry session hsession => ⟨.ok true, session, hsession, rfl⟩
  have hdescend : ∀ entry,
      (linkedWalk.mayDescend entry).Halts fun session => session.files = .backLink :=
    fun entry session hsession => ⟨.ok true, session, hsession, rfl⟩
  have hends := (walks_end (Session.isShownBy_host .backLink) FileSystem.isTidy_backLink haccept
    hdescend ⟨"/", []⟩ "").1 (fun entry => Act.gather (entry :: ·))
    fun entry pair hpair => ⟨.ok (), (entry :: pair.1, pair.2), hpair, rfl⟩
  obtain ⟨result, last, -, hlast⟩ := hends ([], Session.ofFiles .backLink ()) rfl
  exact ⟨result, last, hlast⟩

end FileSelection
