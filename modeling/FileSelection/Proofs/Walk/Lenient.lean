import FileSelection.Proofs.FileSystem.Descent
import FileSelection.Proofs.FileSystem.Questions
import FileSelection.Proofs.Text.Split
import FileSelection.Proofs.Walk.Steps

/-!
# What a lenient walk fails with

A lenient walk without rules passes over directories that cannot be listed and over paths at which
nothing is found.  Only a path that is too long for the system, which the questions about its kind
do not pass over, makes it fail.
-/

namespace FileSelection

open FileSelection.Path

/-! ## Systems -/

/-- The system refuses to examine a path for no other reasons than these, and takes every note. -/
structure Host.IsOrdinary {σ : Type} (host : Host σ) : Prop where
  status : ∀ {follow path state failure last},
    host.status follow path state = some (.error failure, last) → failure.isSystem = true →
      ∃ error ∈ [SystemError.noEntry, .notDirectory, .linkLoop, .nameTooLong],
        failure = .system error path.text
  note : ∀ note state, ∃ last, host.note note state = some (.ok (), last)

inductive Path.Refused (path : Path) : Failure → Prop
  | nul : Refused path .nulInPath
  | system {error : SystemError} : error ≠ .isDirectory → Refused path (.system error path.text)

def Host.Examines {σ : Type} (host : Host σ) : Prop :=
  ∀ follow path state, ∃ answer last, host.status follow path state = some (answer, last) ∧
    ∀ failure, answer = .error failure → path.Refused failure

namespace FileSystem

theorem follow_ne_isDirectory {root location : Location} {through : Bool} {links : Nat}
    {names : List String} : follow root through links location names ≠ .error .isDirectory := by
  fun_induction follow root through links location names <;> simp_all

theorem locate_eq_error {fs : FileSystem} {through : Bool} {path : Path} {failure : Failure}
    (h : fs.locate through path = .error failure) :
    failure = .nulInPath ∨ ∃ error, error ≠ .isDirectory ∧ failure = .system error path.text := by
  unfold locate at h
  simp only at h
  split at h
  · cases h
    exact .inl rfl
  · split at h
    · cases h
      exact .inr ⟨.nameTooLong, by decide, rfl⟩
    · split at h
      · cases h
      · rename_i error hfound
        cases h
        refine .inr ⟨error, ?_, rfl⟩
        rintro rfl
        split at hfound
        · exact follow_ne_isDirectory hfound
        · cases hstart : fs.workingLocation with
          | ok start =>
              rw [hstart] at hfound
              exact follow_ne_isDirectory hfound
          | error cause =>
              rw [hstart] at hfound
              cases hfound
              exact follow_ne_isDirectory hstart

end FileSystem

theorem Session.examines_host {τ : Type} : (Session.host : Host (Session τ)).Examines := by
  intro follow path session
  refine ⟨session.files.status follow path, session, rfl, ?_⟩
  intro failure hfailure
  unfold FileSystem.status at hfailure
  cases hlocated : session.files.locate follow path with
  | ok location =>
      rw [hlocated] at hfailure
      cases hfailure
  | error located =>
      rw [hlocated] at hfailure
      cases hfailure
      obtain rfl | ⟨error, hdirectory, rfl⟩ := FileSystem.locate_eq_error hlocated
      · exact .nul
      · exact .system hdirectory

theorem Session.isOrdinary_host {τ : Type} : (Session.host : Host (Session τ)).IsOrdinary where
  status {follow path session failure last} h hsystem := by
    obtain ⟨answer, _, hstatus, hrefused⟩ := examines_host follow path session
    cases hstatus.symm.trans h
    obtain _ | @⟨error, hne⟩ := hrefused failure rfl
    · cases hsystem
    · cases error with
      | isDirectory => exact absurd rfl hne
      | noEntry | notDirectory | linkLoop | nameTooLong => simp
  note note session := ⟨_, rfl⟩

namespace Host

variable {σ : Type} {host : Host σ} {follow : Bool} {path : Path} {state last : σ}
  {failure : Failure}

theorem IsOrdinary.status?_eq_error (hhost : host.IsOrdinary)
    (h : host.status? follow path state = some (.error failure, last))
    (hsystem : failure.isSystem = true) :
    host.status follow path state = some (.error failure, last) ∧
      failure = .system .nameTooLong path.text := by
  obtain ⟨result, middle, hattempt, h⟩ | ⟨_, _, hattempt, -⟩ := Act.bind_eq_some_iff.1 h
  · rw [Act.attempt_eq_ok_iff] at hattempt
    cases result with
    | ok status => cases h
    | error refusal =>
        simp only at h
        split at h
        · cases h
        · rename_i hpresent
          cases h
          refine ⟨hattempt, ?_⟩
          obtain ⟨error, herror, rfl⟩ := hhost.status hattempt hsystem
          simp only [List.mem_cons, List.not_mem_nil, or_false] at herror
          obtain rfl | rfl | rfl | rfl := herror
          · exact absurd rfl hpresent
          · exact absurd rfl hpresent
          · exact absurd rfl hpresent
          · rfl
  · unfold Act.attempt at hattempt
    split at hattempt <;> cases hattempt

theorem status?_of_absent {middle : σ}
    (h : host.status follow path state = some (.error failure, middle))
    (habsent : meansAbsent failure = true) :
    host.status? follow path state = some (.ok none, middle) := by
  unfold status?
  rw [Act.bind_of_ok (Act.attempt_eq_ok_iff.2 h)]
  simp only [habsent, if_true]
  rfl

theorem status?_of_present {middle : σ}
    (h : host.status follow path state = some (.error failure, middle))
    (hpresent : meansAbsent failure = false) :
    host.status? follow path state = some (.error failure, middle) := by
  unfold status?
  rw [Act.bind_of_ok (Act.attempt_eq_ok_iff.2 h)]
  simp only [hpresent, Bool.false_eq_true, if_false]
  rfl

theorem hasKind_of_absent {middle : σ} (kind : Kind)
    (h : host.status follow path state = some (.error failure, middle))
    (habsent : meansAbsent failure = true) :
    host.hasKind follow kind path state = some (.ok false, middle) := by
  unfold hasKind
  rw [Act.bind_of_ok (status?_of_absent h habsent)]
  rfl

theorem IsOrdinary.hasKind_eq_error {kind : Kind} (hhost : host.IsOrdinary)
    (h : host.hasKind follow kind path state = some (.error failure, last))
    (hsystem : failure.isSystem = true) :
    host.status follow path state = some (.error failure, last) ∧
      failure = .system .nameTooLong path.text := by
  obtain ⟨_, _, -, h⟩ | ⟨_, _, hstatus, heq⟩ := Act.bind_eq_some_iff.1 h
  · cases h
  · cases heq
    exact hhost.status?_eq_error hstatus hsystem

end Host

namespace Walk

variable {σ : Type} {host : Host σ} {walk : Walk σ} {state last : σ} {failure : Failure}

def unconditional (bottomUp followLinks : Bool) : Walk σ :=
  ⟨fun _ => pure true, fun _ => pure true, bottomUp, false, followLinks⟩

def Takes (host : Host σ) (walk : Walk σ) (task : Task) (found : Option Entry)
    (tasks : List Task) : Prop :=
  ∃ before after, walk.perform host task before = some (.ok (found, tasks), after)

/-- The walk comes to an entry whose path is too long to be examined, and fails with that. -/
def StopsAtLongPath (host : Host σ) (walk : Walk σ) (stack : List Task) (failure : Failure)
    (last : σ) : Prop :=
  ∃ entries entry rest follow before,
    Course (walk.Takes host) stack entries (.descend entry :: rest) ∧
      host.status follow entry.path before = some (.error failure, last) ∧
      failure = .system .nameTooLong entry.path.text

theorem StopsAtLongPath.step {task : Task} {found : Option Entry} {tasks rest : List Task}
    (hstep : walk.Takes host task found tasks)
    (h : walk.StopsAtLongPath host (tasks ++ rest) failure last) :
    walk.StopsAtLongPath host (task :: rest) failure last := by
  obtain ⟨entries, entry, waiting, follow, before, hcourse, hlong⟩ := h
  exact ⟨_, entry, waiting, follow, before, .step hstep hcourse, hlong⟩

/-! ## Single tasks -/

theorem isDescendable_eq_error {path : Path} (hhost : host.IsOrdinary)
    (h : walk.isDescendable host path state = some (.error failure, last))
    (hsystem : failure.isSystem = true) :
    ∃ follow before, host.status follow path before = some (.error failure, last) ∧
      failure = .system .nameTooLong path.text := by
  unfold isDescendable at h
  cases hfollow : walk.followLinks with
  | true =>
      rw [hfollow] at h
      exact ⟨true, state, hhost.hasKind_eq_error h hsystem⟩
  | false =>
      rw [hfollow] at h
      obtain ⟨isLink, middle, -, h⟩ | ⟨_, _, hisLink, heq⟩ := Act.bind_eq_some_iff.1 h
      · cases isLink with
        | true => cases h
        | false => exact ⟨true, middle, hhost.hasKind_eq_error h hsystem⟩
      · cases heq
        exact ⟨false, state, hhost.hasKind_eq_error hisLink hsystem⟩

theorem listNames_of_error {directory : Path} {middle : σ} (hhost : host.IsOrdinary)
    (h : host.names directory state = some (.error failure, middle))
    (hsystem : failure.isSystem = true) :
    ∃ last, listNames host false directory state = some (.ok [], last) := by
  obtain ⟨last, hnote⟩ := hhost.note (.cannotList directory failure) middle
  refine ⟨last, ?_⟩
  unfold listNames
  rw [Act.bind_of_ok (Act.attempt_eq_ok_iff.2 h)]
  simp only [hsystem, Bool.not_true, Bool.or_false, Bool.false_eq_true, if_false]
  rw [Act.bind_of_ok hnote]
  rfl

theorem listNames_ne_system_error {directory : Path} (hhost : host.IsOrdinary)
    (hsystem : failure.isSystem = true) :
    listNames host false directory state ≠ some (.error failure, last) := by
  intro h
  obtain ⟨result, middle, hnames, hrest⟩ | ⟨_, _, hattempt, -⟩ := Act.bind_eq_some_iff.1 h
  · rw [Act.attempt_eq_ok_iff] at hnames
    cases result with
    | ok names => cases hrest
    | error refusal =>
        cases hrefusal : refusal.isSystem with
        | true =>
            obtain ⟨after, hlist⟩ := listNames_of_error hhost hnames hrefusal
            rw [h] at hlist
            cases hlist
        | false =>
            simp only [hrefusal, Bool.not_false, Bool.or_true, if_true] at hrest
            cases hrest
            rw [hsystem] at hrefusal
            cases hrefusal
  · unfold Act.attempt at hattempt
    split at hattempt <;> cases hattempt

variable {bottomUp followLinks : Bool}

theorem perform_eq_error {task : Task} (hhost : host.IsOrdinary)
    (h : (unconditional bottomUp followLinks).perform host task state =
      some (.error failure, last)) (hsystem : failure.isSystem = true) :
    ∃ entry follow before, task = .descend entry ∧
      host.status follow entry.path before = some (.error failure, last) ∧
      failure = .system .nameTooLong entry.path.text := by
  cases task with
  | enter directory relative =>
      obtain ⟨_, _, -, h⟩ | ⟨_, _, hnames, heq⟩ := Act.bind_eq_some_iff.1 h
      · cases h
      · cases heq
        exact absurd hnames (listNames_ne_system_error hhost hsystem)
  | visit entry => cases h
  | descend entry =>
      obtain ⟨enters, _, -, h⟩ | ⟨_, _, henters, heq⟩ := Act.bind_eq_some_iff.1 h
      · cases enters <;> cases h
      · cases heq
        obtain ⟨descendable, _, -, h⟩ | ⟨_, _, hdescendable, heq⟩ :=
          Act.bind_eq_some_iff.1 henters
        · cases descendable <;> cases h
        · cases heq
          obtain ⟨follow, before, hlong⟩ := isDescendable_eq_error hhost hdescendable hsystem
          exact ⟨entry, follow, before, rfl, hlong⟩
  | report entry =>
      obtain ⟨accepted, _, haccept, h⟩ | ⟨_, _, haccept, -⟩ := Act.bind_eq_some_iff.1 h
      · cases accepted <;> cases h
      · cases haccept

theorem stopsAtLongPath_of_perform {task : Task} {rest : List Task} (hhost : host.IsOrdinary)
    (h : (unconditional bottomUp followLinks).perform host task state =
      some (.error failure, last)) (hsystem : failure.isSystem = true) :
    (unconditional bottomUp followLinks).StopsAtLongPath host (task :: rest) failure last := by
  obtain ⟨entry, follow, before, rfl, hlong⟩ := perform_eq_error hhost h hsystem
  exact ⟨[], entry, rest, follow, before, .refl, hlong⟩

theorem perform_enter_of_error {directory : Path} {relative : String} {middle : σ}
    (hhost : host.IsOrdinary) (h : host.names directory state = some (.error failure, middle))
    (hsystem : failure.isSystem = true) :
    ∃ last, (unconditional bottomUp followLinks).perform host (.enter directory relative) state =
      some (.ok (none, []), last) := by
  obtain ⟨last, hnames⟩ := listNames_of_error hhost h hsystem
  exact ⟨last, Act.bind_of_ok hnames⟩

theorem perform_descend_of_absent {entry : Entry}
    (h : ∀ follow before, ∃ failure after,
      host.status follow entry.path before = some (.error failure, after) ∧
        Host.meansAbsent failure = true) :
    ∃ last, (unconditional bottomUp followLinks).perform host (.descend entry) state =
      some (.ok (none, []), last) := by
  have hdescendable : ∃ last, (unconditional bottomUp followLinks).isDescendable host entry.path
      state = some (.ok false, last) := by
    cases followLinks with
    | true =>
        obtain ⟨failure, after, hstatus, habsent⟩ := h true state
        exact ⟨after, Host.hasKind_of_absent .directory hstatus habsent⟩
    | false =>
        obtain ⟨failure, middle, hlink, habsent⟩ := h false state
        obtain ⟨failure', after, hstatus, habsent'⟩ := h true middle
        refine ⟨after, ?_⟩
        have hisLink := Host.hasKind_of_absent .link hlink habsent
        exact (Act.bind_of_ok hisLink).trans (Host.hasKind_of_absent .directory hstatus habsent')
  obtain ⟨last, hdescendable⟩ := hdescendable
  have henters : (unconditional bottomUp followLinks).entersInto host entry state =
      some (.ok false, last) := Act.bind_of_ok hdescendable
  exact ⟨last, Act.bind_of_ok henters⟩

/-! ## Whole walks -/

theorem advance_of_perform {α : Type} {pick : Entry → Act σ (Option α)} {task : Task}
    {tasks rest : List Task} (h : walk.perform host task state = some (.ok (none, tasks), last)) :
    walk.advance host pick (task :: rest) state = some (.ok (.inl (tasks ++ rest)), last) :=
  Act.bind_of_ok h

def CarriesOut {ρ α : Type} (host : Host σ) (walk : Walk σ) (part : ρ → σ)
    (step : Act.Step ρ (List Task) α) : Prop :=
  ∀ stack state result last, step stack state = some (result, last) →
    (∃ value, result = .ok (.inr value)) ∨
    ∃ task rest, stack = task :: rest ∧
      ((∃ failure, result = .error failure ∧
        walk.perform host task (part state) = some (.error failure, part last)) ∨
      ∃ found tasks, result = .ok (.inl (tasks ++ rest)) ∧
        walk.perform host task (part state) = some (.ok (found, tasks), part last))

theorem carriesOut_advance :
    walk.CarriesOut host id (walk.advance host fun entry => pure (some entry)) := by
  intro stack state result last h
  cases stack with
  | nil =>
      cases h
      exact .inl ⟨_, rfl⟩
  | cons task rest =>
      obtain ⟨⟨found, tasks⟩, middle, hperform, hrest⟩ | ⟨failure, middle, hperform, heq⟩ :=
        Act.bind_eq_some_iff.1 h
      · cases found with
        | none =>
            cases hrest
            exact .inr ⟨task, rest, rfl, .inr ⟨none, tasks, rfl, hperform⟩⟩
        | some entry =>
            cases hrest
            exact .inl ⟨_, rfl⟩
      · cases heq
        exact .inr ⟨task, rest, rfl, .inl ⟨failure, rfl, hperform⟩⟩

theorem carriesOut_follow :
    walk.CarriesOut host Prod.snd
      (walk.follow host fun entry => Act.gather ((entry :: ·) : List Entry → List Entry)) := by
  rintro stack ⟨gathered, state⟩ result ⟨gathered', last⟩ h
  cases stack with
  | nil =>
      cases h
      exact .inl ⟨_, rfl⟩
  | cons task rest =>
      obtain ⟨⟨found, tasks⟩, middle, hdone, hrest⟩ | ⟨failure, middle, hdone, heq⟩ :=
        Act.beside_bind_eq_some_iff.1 h
      · cases found with
        | none =>
            cases hrest
            exact .inr ⟨task, rest, rfl, .inr ⟨none, tasks, rfl, hdone⟩⟩
        | some entry =>
            cases hrest
            exact .inr ⟨task, rest, rfl, .inr ⟨some entry, tasks, rfl, hdone⟩⟩
      · cases heq
        exact .inr ⟨task, rest, rfl, .inl ⟨failure, rfl, hdone⟩⟩

theorem stopsAtLongPath_of_loop {ρ α : Type} {part : ρ → σ} {step : Act.Step ρ (List Task) α}
    {stack : List Task} {before after : ρ} (hhost : host.IsOrdinary)
    (hstep : (unconditional bottomUp followLinks).CarriesOut host part step)
    (h : step.loop stack before = some (.error failure, after))
    (hsystem : failure.isSystem = true) :
    (unconditional bottomUp followLinks).StopsAtLongPath host stack failure (part after) := by
  rw [Act.loop_eq_some_iff] at h
  generalize houtcome : (Except.error failure, after) = outcome at h
  induction h with
  | value => cases houtcome
  | failure hfails =>
      cases houtcome
      obtain ⟨_, heq⟩ | ⟨task, rest, rfl, ⟨_, heq, hperform⟩ | ⟨_, _, heq, -⟩⟩ :=
        hstep _ _ _ _ hfails
      · cases heq
      · cases heq
        exact stopsAtLongPath_of_perform hhost hperform hsystem
      · cases heq
  | next hnext _ ih =>
      obtain ⟨_, heq⟩ | ⟨task, rest, rfl, ⟨_, heq, -⟩ | ⟨_, _, heq, hperform⟩⟩ :=
        hstep _ _ _ _ hnext
      · cases heq
      · cases heq
      · cases heq
        exact (ih houtcome).step ⟨_, _, hperform⟩

theorem entries_eq_error {directory : Path} {relative : String} (hhost : host.IsOrdinary)
    (h : (unconditional bottomUp followLinks).entries host directory relative state =
      some (.error failure, last)) (hsystem : failure.isSystem = true) :
    (unconditional bottomUp followLinks).StopsAtLongPath host (start directory relative) failure
      last := by
  rw [entries, map_eq_pure_bind] at h
  obtain ⟨_, _, -, h⟩ | ⟨_, _, hgathering, heq⟩ := Act.bind_eq_some_iff.1 h
  · cases h
  · cases heq
    unfold Act.gathering at hgathering
    split at hgathering
    · rename_i result gathered last hloop
      cases result with
      | ok _ => cases hgathering
      | error cause =>
          cases hgathering
          exact stopsAtLongPath_of_loop hhost carriesOut_follow hloop hsystem
    · cases hgathering

theorem unconditional_of_no_rules {selection : Selection σ} (hrules : selection.rules = .empty)
    (hlenient : selection.strict = false) (bottomUp : Bool) :
    selection.walk host bottomUp = unconditional bottomUp selection.followLinks := by
  unfold Selection.walk unconditional Selection.accepts Selection.mayDescend
  rw [hrules, hlenient]
  rfl

/-- A lenient walk without rules fails only at an entry whose path is too long to be examined,
whether it is asked for its next entry at any time or followed to its end.  A directory that cannot
be listed and an entry at which nothing is found only lose their contents, and the walk goes on with
what is left.  The walk of a selection without rules is such a walk. -/
theorem lenient_walk_fails_only_at_long_path (hhost : host.IsOrdinary)
    (bottomUp followLinks : Bool) :
    (∀ stack state failure last,
      (unconditional bottomUp followLinks).next host (fun entry => pure (some entry)) stack state =
          some (.error failure, last) → failure.isSystem = true →
        (unconditional bottomUp followLinks).StopsAtLongPath host stack failure last) ∧
    (∀ directory relative state failure last,
      (unconditional bottomUp followLinks).entries host directory relative state =
          some (.error failure, last) → failure.isSystem = true →
        (unconditional bottomUp followLinks).StopsAtLongPath host (start directory relative)
          failure last) ∧
    (∀ directory relative rest state failure middle,
      host.names directory state = some (.error failure, middle) → failure.isSystem = true →
        ∃ last, (unconditional bottomUp followLinks).advance host (fun entry => pure (some entry))
          (.enter directory relative :: rest) state = some (.ok (.inl rest), last)) ∧
    (∀ entry rest state,
      (∀ follow before, ∃ failure after,
        host.status follow entry.path before = some (.error failure, after) ∧
          Host.meansAbsent failure = true) →
        ∃ last, (unconditional bottomUp followLinks).advance host (fun entry => pure (some entry))
          (.descend entry :: rest) state = some (.ok (.inl rest), last)) ∧
    ∀ selection : Selection σ, selection.rules = .empty → selection.strict = false →
      selection.followLinks = followLinks →
        selection.walk host bottomUp = unconditional bottomUp followLinks := by
  refine ⟨fun stack state failure last => stopsAtLongPath_of_loop hhost carriesOut_advance,
    fun directory relative state failure last => entries_eq_error hhost, ?_, ?_, ?_⟩
  · intro directory relative rest state failure middle hnames hsystem
    obtain ⟨last, hperform⟩ := perform_enter_of_error hhost hnames hsystem
    exact ⟨last, advance_of_perform hperform⟩
  · intro entry rest state habsent
    obtain ⟨last, hperform⟩ := perform_descend_of_absent habsent
    exact ⟨last, advance_of_perform hperform⟩
  · rintro selection hrules hlenient rfl
    exact unconditional_of_no_rules hrules hlenient bottomUp

end Walk

/-! ## A link with a long target -/

namespace FileSystem

def longName : String := String.ofList (List.replicate 256 'x')

def longLink : FileSystem where
  root := .directory [("a", .link longName), ("b", .file .empty 0)]
  working := []

theorem utf8ByteSize_longName : longName.utf8ByteSize = 256 := by decide +kernel

theorem longName_ne {name : String} (h : name.utf8ByteSize < 256) : longName ≠ name := by
  rintro rfl
  rw [utf8ByteSize_longName] at h
  exact absurd h (by decide)

theorem toList_longName : longName.toList = List.replicate 256 'x' := String.toList_ofList

theorem not_mem_longName {c : Char} (h : c ≠ 'x') : c ∉ longName.toList := by
  rw [toList_longName]
  exact fun hmem => h (List.eq_of_mem_replicate hmem)

theorem isName_longName : IsName longName where
  nonempty := longName_ne (by decide)
  noSlash := not_mem_longName (by decide)

theorem steps_longName : steps longName = [longName] := by
  have hunmarked : ¬ ['/'] <:+: longName.toList :=
    fun h => isName_longName.noSlash (h.subset (List.mem_singleton_self '/'))
  unfold steps
  rw [Text.splitAt_of_unmarked hunmarked, toList_longName]
  rfl

theorem namesIn_longLink : longLink.namesIn ⟨"/", []⟩ = .ok ["a", "b"] := by
  have htext : Path.text ⟨"/", []⟩ = "/" := by decide
  have hsteps : steps "/" = ["."] := by decide
  unfold namesIn locate
  simp only [htext, hsteps]
  simp [longLink, rootLocation, follow, Path.isAbsolute]
  decide

theorem status_longLink :
    longLink.status true ⟨"/", ["a"]⟩ = .error (.system .nameTooLong "/a") := by
  have htext : Path.text ⟨"/", ["a"]⟩ = "/a" := by decide
  have hsteps : steps "/a" = ["a"] := by decide
  have hlookup : [("a", Node.link longName), ("b", .file .empty 0)].lookup "a" =
      some (.link longName) := rfl
  have hshort : "/a".utf8ByteSize = 2 ∧ "a".utf8ByteSize = 1 := by decide
  have hdot : longName ≠ "." := longName_ne (by decide)
  have hdots : longName ≠ ".." := longName_ne (by decide)
  unfold status locate
  simp only [htext, hsteps]
  simp [longLink, rootLocation, follow, Path.isAbsolute, hlookup, hshort, hdot, hdots, nameLimit,
    pathLimit, linkLimit, steps_longName, utf8ByteSize_longName]
  rfl

end FileSystem

namespace Walk

theorem perform_longLink {session : Session Unit} (hfiles : session.files = .longLink) :
    (unconditional false true).perform Session.host (.descend ⟨⟨"/", ["a"]⟩, "a"⟩) session =
      some (.error (.system .nameTooLong "/a"), session) := by
  have hstatus : Session.host.status true ⟨"/", ["a"]⟩ session =
      some (.error (.system .nameTooLong "/a"), session) :=
    Session.host_status hfiles FileSystem.status_longLink
  have hdirectory : Session.host.isDirectory ⟨"/", ["a"]⟩ session =
      some (.error (.system .nameTooLong "/a"), session) :=
    Act.bind_of_error (Host.status?_of_present hstatus rfl)
  have henters : (unconditional false true).entersInto Session.host ⟨⟨"/", ["a"]⟩, "a"⟩ session =
      some (.error (.system .nameTooLong "/a"), session) := Act.bind_of_error hdirectory
  exact Act.bind_of_error henters

theorem entries_longLink :
    (unconditional false true).entries Session.host ⟨"/", []⟩ "" (Session.ofFiles .longLink ()) =
      some (.error (.system .nameTooLong "/a"), Session.ofFiles .longLink ()) := by
  generalize hsession : Session.ofFiles FileSystem.longLink () = session
  have hfiles : session.files = .longLink := by rw [← hsession]; rfl
  have hnames : Session.host.names ⟨"/", []⟩ session = some (.ok ["a", "b"], session) :=
    Session.host_names hfiles FileSystem.namesIn_longLink
  have henter : (unconditional false true).perform Session.host (.enter ⟨"/", []⟩ "") session =
      some (.ok (none, [.visit ⟨⟨"/", ["a"]⟩, "a"⟩, .visit ⟨⟨"/", ["b"]⟩, "b"⟩]), session) :=
    perform_enter_of_sorted "" hnames (by decide)
  have hfails := perform_longLink hfiles
  have hloop : (unconditional false true).forEach Session.host
      (fun entry => Act.gather (entry :: ·)) ⟨"/", []⟩ "" ([], session) =
        some (.error (.system .nameTooLong "/a"), [⟨⟨"/", ["a"]⟩, "a"⟩], session) :=
    Act.loop_eq_some_iff.2 <|
      .next (Act.bind_of_ok (Act.beside_eq_some_iff.2 ⟨henter, rfl⟩)) <| .next rfl <| .next rfl <|
        .failure (Act.bind_of_error (Act.beside_eq_some_iff.2 ⟨hfails, rfl⟩))
  have hgathering : Act.gathering [] ((unconditional false true).forEach Session.host
      (fun entry => Act.gather (entry :: ·)) ⟨"/", []⟩ "") session =
        some (.error (.system .nameTooLong "/a"), session) := by
    unfold Act.gathering
    rw [hloop]
    rfl
  rw [entries, map_eq_pure_bind]
  exact Act.bind_of_error hgathering

theorem lenient_walk_fails_at_long_link :
    ∃ last, (unconditional false true).entries Session.host ⟨"/", []⟩ ""
        (Session.ofFiles .longLink ()) = some (.error (.system .nameTooLong "/a"), last) ∧
      (unconditional false true).StopsAtLongPath Session.host (start ⟨"/", []⟩ "")
        (.system .nameTooLong "/a") last :=
  ⟨_, entries_longLink,
    (lenient_walk_fails_only_at_long_path Session.isOrdinary_host false true).2.1 _ _ _ _ _
      entries_longLink rfl⟩

/-- It does happen that a lenient walk without rules fails with a failure of the system. -/
theorem lenient_walk_can_fail :
    ¬ ∀ (files : FileSystem) (directory : Path) (failure : Failure) (last : Session Unit),
      (unconditional false true).entries Session.host directory "" (Session.ofFiles files ()) =
          some (.error failure, last) → failure.isSystem = false := by
  intro h
  exact absurd (h _ _ _ _ entries_longLink) (by decide)

end Walk

end FileSelection
