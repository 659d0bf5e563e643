import FileSelection.Proofs.Walk.Selection

/-!
# Strict and lenient walks

A strict walk through a scene takes the steps of the lenient one until a directory is entered that
cannot be listed.  There it fails, and what it has reported by then is what the lenient walk has
reported by then.
-/

namespace FileSelection

open FileSelection.Path

namespace Walk

/-- The walk reports the entries one after the other and then ends with the result. -/
def Reports {σ : Type} (host : Host σ) (walk : Walk σ) (directory : Path) (relative : String)
    (state : σ) (entries : List Entry) (result : Except Failure Unit) : Prop :=
  ∃ last, walk.forEach host (fun entry => Act.gather (entry :: ·)) directory relative ([], state) =
    some (result, entries.reverse, last)

def strictly {σ : Type} (walk : Walk σ) : Walk σ := { walk with strict := true }

/-! ## Courses to the end -/

section

variable {possible : Task → Option Entry → List Task → Prop} {stack : List Task}
  {entries : List Entry}

def Meets (possible : Task → Option Entry → List Task → Prop) (stack : List Task) (task : Task) :
    Prop :=
  ∃ before rest later, Course possible stack before (task :: rest) ∧
    Course possible (task :: rest) later []

theorem Course.meets {task : Task} (h : Course possible stack entries []) (htask : task ∈ stack) :
    Meets possible stack task := by
  generalize hlast : [] = last at h
  induction h with
  | refl =>
      subst hlast
      cases htask
  | @step first tasks rest _ _ _ hpossible hrest ih =>
      subst hlast
      obtain rfl | hlater := List.mem_cons.1 htask
      · exact ⟨[], rest, _, .refl, .step hpossible hrest⟩
      · obtain ⟨before, rest, later, hbefore, hmore⟩ := ih (List.mem_append_right _ hlater) rfl
        exact ⟨_, rest, later, .step hpossible hbefore, hmore⟩

theorem Meets.next {task : Task} (h : Meets possible stack task) :
    ∃ found tasks, possible task found tasks ∧
      ∀ following ∈ tasks, Meets possible stack following := by
  obtain ⟨before, rest, later, hbefore, hmore⟩ := h
  cases hmore with
  | @step _ tasks _ _ found entries hpossible hrest =>
      refine ⟨found, tasks, hpossible, fun following hfollowing => ?_⟩
      obtain ⟨others, rest, later, hothers, hmore⟩ :=
        hrest.meets (List.mem_append_left _ hfollowing)
      exact ⟨_, rest, later, hbefore.trans (.step hpossible hothers), hmore⟩

theorem Course.keeps_or_leaves (sort : Task → Prop) (h : Course possible stack entries []) :
    Course (fun task found tasks => sort task ∧ possible task found tasks) stack entries [] ∨
      ∃ before task rest later,
        Course (fun task found tasks => sort task ∧ possible task found tasks) stack before
          (task :: rest) ∧
        ¬ sort task ∧ Course possible (task :: rest) later [] ∧ entries = before ++ later := by
  generalize hlast : [] = last at h
  induction h with
  | refl => exact .inl .refl
  | @step task tasks rest _ found others hpossible hrest ih =>
      subst hlast
      by_cases htask : sort task
      · obtain hkeeps | ⟨before, other, waiting, later, hbefore, hother, hmore, rfl⟩ := ih rfl
        · exact .inl (.step ⟨htask, hpossible⟩ hkeeps)
        · refine .inr ⟨_, other, waiting, later, .step ⟨htask, hpossible⟩ hbefore, hother, hmore,
            ?_⟩
          rw [List.append_assoc]
      · exact .inr ⟨[], task, rest, _, .refl, htask, .step hpossible hrest, rfl⟩

/-- Bottom-up, nothing on the way to a directory has been reported when the directory is entered,
since whatever might be found in it would be reported before. -/
theorem Course.not_reported_above {directory entered : Path} {basepath : String}
    {names above : List String} {rest : List Task}
    (h : Course (Replaces true) (start directory basepath) entries
      (.enter entered (relativeOf basepath names) :: rest))
    (hnames : ∀ name ∈ names, IsName name) (hne : above ≠ []) (habove : above <+: names) :
    ∀ entry ∈ entries, entry.relative ≠ relativeOf basepath above := by
  intro entry hentry hrelative
  have hfound : IsListing ["x"] := ⟨by decide, by simpa using ⟨by decide, by decide⟩⟩
  have hsorted : sortNames ["x"] = ["x"] := by simp [sortNames]
  generalize hfile : entryOf entered (relativeOf basepath names) "x" = file
  have henter : Replaces true (.enter entered (relativeOf basepath names)) none [.visit file] := by
    have hreplaces : Replaces true (.enter entered (relativeOf basepath names)) none _ :=
      .enter hfound
    rw [hsorted] at hreplaces
    simpa [hfile] using hreplaces
  have hvisit : Replaces true (.visit file) none [.descend file, .report file] := .visit
  have hskip : Replaces true (.descend file) none [] := .skip
  have hreport : Replaces true (.report file) (some file) [] := .report
  have hbelow : Course (Replaces true) (.enter entered (relativeOf basepath names) :: rest)
      [file] rest :=
    (Course.of_step rest henter).trans <| (Course.of_step rest hvisit).trans <|
      (Course.of_step (.report file :: rest) hskip).trans (Course.of_step rest hreport)
  have hascends := (h.trans hbelow).namesBelow_ascends
  rw [List.map_append, List.map_append, List.pairwise_append] at hascends
  have hvalid : ∀ name ∈ names ++ ["x"], IsName name := by
    simpa [or_imp, forall_and] using ⟨hnames, hfound.2 "x" (by simp)⟩
  have hnamesOfFile : namesBelow basepath file.relative = names ++ ["x"] := by
    have hread : namesBelow basepath (relativeOf basepath (names ++ ["x"])) = names ++ ["x"] :=
      namesBelow_relativeOf (by simp) hvalid
    rw [relativeOf_append_singleton] at hread
    rw [← hfile]
    exact hread
  have hitself : namesBelow basepath entry.relative = above := by
    rw [hrelative]
    exact namesBelow_relativeOf hne fun name hname => hnames name (habove.subset hname)
  have hprecedes : Precedes true above (names ++ ["x"]) :=
    hascends.2.2 above (by simpa using ⟨entry, hentry, hitself⟩) _ (by simp [hnamesOfFile])
  obtain ⟨hlonger, -⟩ | ⟨-, hapart⟩ := hprecedes
  · exact absurd (hlonger.trans habove).length_le (by simp)
  · exact hapart (habove.trans (List.prefix_append _ _))

end

end Walk

namespace Scene

variable {scene : Scene} {names : List String}

def CanList (scene : Scene) (directory : Path) : Prop := ∃ found, scene.names directory = .ok found

def Lists (scene : Scene) : Walk.Task → Prop
  | .enter directory _ => scene.CanList directory
  | .visit _ | .descend _ | .report _ => True

/-- The steps of a walk up to a directory that cannot be listed. -/
def PerformsListing {σ : Type} (scene : Scene) (host : Host σ) (walk : Walk σ) (steady : σ → Prop)
    (task : Walk.Task) (found : Option Entry) (tasks : List Walk.Task) : Prop :=
  scene.Lists task ∧ Performs host walk steady task found tasks

def Places (scene : Scene) : Walk.Task → Prop
  | .enter directory relative => ∃ names, scene.Enters names ∧ directory = scene.pathAt names ∧
      relative = relativeOf scene.basepath names
  | .visit entry | .descend entry | .report entry =>
      ∃ names, scene.Visits names ∧ entry = scene.entryAt names

theorem places_start : ∀ task ∈ Walk.start scene.directory scene.basepath, scene.Places task :=
  List.forall_mem_singleton.2 ⟨[], .inl rfl, rfl, rfl⟩

theorem Enters.valid (h : scene.Enters names) : ∀ name ∈ names, IsName name := by
  obtain rfl | ⟨hvisits, -⟩ := h
  · simp
  · exact hvisits.valid

section

variable {σ : Type} {host : Host σ} {walk : Walk σ} {steady : σ → Prop} {state : σ}
  {task : Walk.Task} {found found' : Option Entry} {tasks tasks' : List Walk.Task}

theorem Performs.unique (hstate : steady state) (h : Performs host walk steady task found tasks)
    (h' : Performs host walk steady task found' tasks') : found = found' ∧ tasks = tasks' := by
  simpa using Act.Answers.unique hstate h h'

/-! ## Places of tasks -/

section

variable (hshows : scene.Shows host walk steady) (hcalm : scene.IsCalm) (hstate : steady state)

include hshows hcalm hstate

theorem Shows.places_of_performs (hplaces : scene.Places task)
    (h : Performs host walk steady task found tasks) :
    ∀ following ∈ tasks, scene.Places following := by
  cases task with
  | enter directory relative =>
      obtain ⟨names, henters, rfl, rfl⟩ := hplaces
      obtain ⟨-, rfl⟩ := h.unique hstate (hshows.performs_enter hcalm henters)
      rw [List.forall_mem_map]
      intro name hname
      exact ⟨_, visits_append_singleton.2 ⟨henters, List.mem_mergeSort.1 hname⟩, rfl⟩
  | visit entry =>
      obtain ⟨-, rfl⟩ := h.unique hstate (.pure _)
      cases walk.bottomUp with
      | true => simpa [Places] using hplaces
      | false => simpa [Places] using hplaces
  | descend entry =>
      obtain ⟨names, hvisits, rfl⟩ := hplaces
      obtain ⟨-, rfl⟩ := h.unique hstate (hshows.performs_descend hcalm hvisits)
      cases henters : scene.entersInto (scene.entryAt names) with
      | true => simpa using ⟨names, .inr ⟨hvisits, henters⟩, rfl, rfl⟩
      | false => simp
  | report entry =>
      obtain ⟨-, rfl⟩ := h.unique hstate (hshows.performs_report entry)
      simp

theorem Shows.places_course {stack following : List Walk.Task} {entries : List Entry}
    (h : Walk.Course (Performs host walk steady) stack entries following)
    (hplaces : ∀ task ∈ stack, scene.Places task) : ∀ task ∈ following, scene.Places task := by
  induction h with
  | refl => exact hplaces
  | step hperforms _ ih =>
      obtain ⟨hfirst, hrest⟩ := List.forall_mem_cons.1 hplaces
      have hnext := hshows.places_of_performs hcalm hstate hfirst hperforms
      exact ih (List.forall_mem_append.2 ⟨hnext, hrest⟩)

theorem Shows.meets_enter {entries : List Entry}
    (h : Walk.Course (scene.PerformsListing host walk steady)
      (Walk.start scene.directory scene.basepath) entries []) (henters : scene.Enters names) :
    Walk.Meets (scene.PerformsListing host walk steady)
      (Walk.start scene.directory scene.basepath)
      (.enter (scene.pathAt names) (relativeOf scene.basepath names)) := by
  induction names using List.reverseRecOn with
  | nil => exact h.meets List.mem_cons_self
  | append_singleton names name ih =>
      obtain heq | ⟨hvisits, hinto⟩ := henters
      · simp at heq
      · obtain ⟨habove, hname⟩ := visits_append_singleton.1 hvisits
        obtain ⟨_, _, ⟨-, hperforms⟩, hvisit⟩ := (ih habove).next
        obtain ⟨-, rfl⟩ := hperforms.unique hstate (hshows.performs_enter hcalm habove)
        obtain ⟨_, _, ⟨-, hperforms⟩, hdescend⟩ :=
          (hvisit _ (List.mem_map_of_mem (List.mem_mergeSort.2 hname))).next
        obtain ⟨-, rfl⟩ := hperforms.unique hstate (.pure _)
        have hmember : Walk.Task.descend (scene.entryAt (names ++ [name])) ∈
            if walk.bottomUp then
              [.descend (scene.entryAt (names ++ [name])),
                .report (scene.entryAt (names ++ [name]))]
            else
              [.report (scene.entryAt (names ++ [name])),
                .descend (scene.entryAt (names ++ [name]))] := by
          cases walk.bottomUp with
          | true => simp
          | false => simp
        obtain ⟨_, _, ⟨-, hperforms⟩, henter⟩ := (hdescend _ hmember).next
        obtain ⟨-, rfl⟩ := hperforms.unique hstate (hshows.performs_descend hcalm hvisits)
        exact henter _ (by simp [hinto])

end

/-! ## Steps of a strict walk -/

section

variable (hshows : scene.Shows host walk steady)

include hshows

theorem Shows.performs_enter_listed {directory : Path} {relative : String} {names : List String}
    (strict : Bool) (hnames : scene.names directory = .ok names) :
    Performs host { walk with strict } steady (.enter directory relative) none
      ((Walk.sortNames names).map fun name => .visit (Walk.entryOf directory relative name)) := by
  have hanswers := hshows.names directory
  rw [hnames] at hanswers
  exact .bind (.bind hanswers.attempt (.pure (Walk.sortNames names))) (.pure _)

theorem Shows.performs_strictly (hstate : steady state)
    (h : scene.PerformsListing host walk steady task found tasks) :
    Performs host walk.strictly steady task found tasks := by
  obtain ⟨hlists, hperforms⟩ := h
  cases task with
  | enter directory relative =>
      obtain ⟨names, hnames⟩ := hlists
      have hlenient : Performs host walk steady (.enter directory relative) none _ :=
        hshows.performs_enter_listed walk.strict hnames
      obtain ⟨rfl, rfl⟩ := hperforms.unique hstate hlenient
      exact hshows.performs_enter_listed true hnames
  | visit entry => exact hperforms
  | descend entry => exact hperforms
  | report entry => exact hperforms

theorem Shows.fails_strictly {directory : Path} {relative : String} {failure : Failure}
    (hnames : scene.names directory = .error failure) :
    Act.Answers steady (walk.strictly.perform host (.enter directory relative))
      (.error failure) := by
  have hanswers := hshows.names directory
  rw [hnames] at hanswers
  refine .bind_error (.bind hanswers.attempt ?_)
  exact .ofExcept (.error failure)

end

end

/-! ## The two walks -/

section

variable {σ : Type} {host : Host σ} {walk : Walk σ} {steady : σ → Prop} {state : σ}

theorem reports_of_course {directory : Path} {relative : String} {entries : List Entry}
    (h : Walk.Course (Performs host walk steady) (Walk.start directory relative) entries [])
    (hstate : steady state) : walk.Reports host directory relative state entries (.ok ()) := by
  obtain ⟨after, -, hloop⟩ := loop_of_course h hstate
  rw [List.append_nil] at hloop
  exact ⟨after, hloop⟩

theorem reports_of_failure {directory : Path} {relative : String} {entries : List Entry}
    {task : Walk.Task} {rest : List Walk.Task} {failure : Failure}
    (h : Walk.Course (Performs host walk steady) (Walk.start directory relative) entries
      (task :: rest))
    (hfails : Act.Answers steady (walk.perform host task) (.error failure))
    (hstate : steady state) :
    walk.Reports host directory relative state entries (.error failure) := by
  obtain ⟨middle, hmiddle, hloop⟩ := loop_course h hstate
  obtain ⟨last, -, hperform⟩ := hfails middle hmiddle
  have hbeside : (walk.perform host task).beside (entries.reverse, middle) =
      some (.error failure, entries.reverse, last) :=
    Act.beside_eq_some_iff.2 ⟨hperform, rfl⟩
  have hstep : walk.follow host (fun entry => Act.gather (entry :: ·)) (task :: rest)
      (entries.reverse, middle) = some (.error failure, entries.reverse, last) :=
    Act.bind_of_error hbeside
  rw [List.append_nil] at hloop
  exact ⟨last, hloop.trans (Act.loop_of_failure hstep)⟩

variable (hshows : scene.Shows host walk steady) (hcalm : scene.IsCalm) (hstate : steady state)

include hshows hstate

theorem Shows.course_strictly {stack following : List Walk.Task} {entries : List Entry}
    (h : Walk.Course (scene.PerformsListing host walk steady) stack entries following) :
    Walk.Course (Performs host walk.strictly steady) stack entries following :=
  h.mono fun hperforms => hshows.performs_strictly hstate hperforms

section

include hcalm

theorem Shows.canList_of_course {entries : List Entry}
    (h : Walk.Course (scene.PerformsListing host walk steady)
      (Walk.start scene.directory scene.basepath) entries []) (henters : scene.Enters names) :
    scene.CanList (scene.pathAt names) := by
  obtain ⟨_, _, ⟨hlists, -⟩, -⟩ := (hshows.meets_enter hcalm hstate h henters).next
  exact hlists

theorem Shows.exists_unlistable {task : Walk.Task} {rest : List Walk.Task} {entries : List Entry}
    (h : Walk.Course (scene.PerformsListing host walk steady)
      (Walk.start scene.directory scene.basepath) entries (task :: rest))
    (hlists : ¬ scene.Lists task) :
    ∃ names failure, scene.Enters names ∧ scene.names (scene.pathAt names) = .error failure ∧
      task = .enter (scene.pathAt names) (relativeOf scene.basepath names) := by
  have hplaces : scene.Places task :=
    hshows.places_course hcalm hstate (h.mono And.right) places_start task List.mem_cons_self
  cases task with
  | enter directory relative =>
      obtain ⟨names, henters, rfl, rfl⟩ := hplaces
      cases hnames : scene.names (scene.pathAt names) with
      | ok found => exact absurd ⟨found, hnames⟩ hlists
      | error failure => exact ⟨names, failure, henters, hnames, rfl⟩
  | visit _ | descend _ | report _ => exact absurd trivial hlists

end

theorem Shows.not_mem_of_above {above : List String} {rest : List Walk.Task}
    {entries : List Entry} (hbottomUp : walk.bottomUp = true)
    (h : Walk.Course (Performs host walk steady) (Walk.start scene.directory scene.basepath)
      entries (.enter (scene.pathAt names) (relativeOf scene.basepath names) :: rest))
    (henters : scene.Enters names) (hne : above ≠ []) (habove : above <+: names) :
    scene.entryAt above ∉ entries := by
  have hcourse := h.mono (hshows.replaces_of_performs hstate)
  rw [hbottomUp] at hcourse
  have hrelative : (scene.entryAt above).relative = relativeOf scene.basepath above := by
    have hvalid : ∀ name ∈ above, IsName name :=
      fun name hname => henters.valid name (habove.subset hname)
    rw [relativeOf_eq_joinRelative hne hvalid]
    rfl
  intro hmem
  exact hcourse.not_reported_above henters.valid hne habove _ hmem hrelative

end

/-- A strict walk reports what the lenient one does, as long as no directory is entered that cannot
be listed.  Otherwise it reports what the lenient one has reported when it enters the first such
directory, and fails with the failure of that directory.  Bottom-up, neither the directory nor one
above it is then among the reported ones. -/
theorem strict_walk_stops_at_first_unlistable {σ : Type} {host : Host σ} {walk : Walk σ}
    {steady : σ → Prop} (hshows : scene.Shows host walk steady) (hcalm : scene.IsCalm)
    (hfinite : {names | scene.Visits names}.Finite) (state : σ) (hstate : steady state) :
    ∃ entries,
      walk.Reports host scene.directory scene.basepath state entries (.ok ()) ∧
      (((∀ names, scene.Enters names → scene.CanList (scene.pathAt names)) ∧
        walk.strictly.Reports host scene.directory scene.basepath state entries (.ok ())) ∨
      ∃ names failure before rest later,
        scene.Enters names ∧ scene.names (scene.pathAt names) = .error failure ∧
        failure.isSystem = true ∧ entries = before ++ later ∧
        Walk.Course (scene.PerformsListing host walk steady)
          (Walk.start scene.directory scene.basepath) before
          (.enter (scene.pathAt names) (relativeOf scene.basepath names) :: rest) ∧
        Walk.Course (Performs host walk steady)
          (.enter (scene.pathAt names) (relativeOf scene.basepath names) :: rest) later [] ∧
        walk.strictly.Reports host scene.directory scene.basepath state before (.error failure) ∧
        (walk.bottomUp = true → ∀ above, above ≠ [] → above <+: names →
          scene.entryAt above ∉ before)) := by
  obtain ⟨entries, hcourse, -⟩ := hshows.course hcalm hfinite
  refine ⟨entries, reports_of_course hcourse hstate, ?_⟩
  obtain hlisted | ⟨before, task, rest, later, hbefore, hlists, hlater, rfl⟩ :=
    hcourse.keeps_or_leaves scene.Lists
  · have hstrict := hshows.course_strictly hstate hlisted
    exact .inl ⟨fun names henters => hshows.canList_of_course hcalm hstate hlisted henters,
      reports_of_course hstrict hstate⟩
  · obtain ⟨names, failure, henters, hnames, rfl⟩ :=
      hshows.exists_unlistable hcalm hstate hbefore hlists
    have hsystem := hcalm.listing names failure henters hnames
    have hstrict := hshows.course_strictly hstate hbefore
    have hreports := reports_of_failure hstrict (hshows.fails_strictly hnames) hstate
    refine .inr ⟨names, failure, before, rest, later, henters, hnames, hsystem, rfl, hbefore,
      hlater, hreports, fun hbottomUp above hne habove => ?_⟩
    exact hshows.not_mem_of_above hstate hbottomUp (hbefore.mono And.right) henters hne habove

/-! ## A directory that is lost -/

def lostDirectory : Scene where
  names path :=
    if path.names = [] then .ok ["b", "a"]
    else if path.names = ["a"] then .ok ["d", "c"]
    else .error (.system .noEntry path.text)
  status _ path :=
    .ok ⟨if path.names = ["a"] ∨ path.names = ["a", "d"] then .directory else .file, 0, 0⟩
  accepts _ := true
  mayDescend _ := true
  followLinks := true
  directory := ⟨"/", []⟩
  basepath := ""
  tidy := by
    intro path found h
    split at h
    · cases h
      exact ⟨by decide, by simpa using ⟨⟨by decide, by decide⟩, by decide, by decide⟩⟩
    · split at h
      · cases h
        exact ⟨by decide, by simpa using ⟨⟨by decide, by decide⟩, by decide, by decide⟩⟩
      · cases h

theorem isCalm_lostDirectory : lostDirectory.IsCalm where
  listing names failure _ h := by
    unfold lostDirectory at h
    simp only at h
    split at h
    · cases h
    · split at h
      · cases h
      · cases h
        rfl
  link names _ _ failure h := by cases h
  directory names _ _ failure h := by cases h

theorem visits_lostDirectory (h : lostDirectory.Visits names) :
    names = ["b"] ∨ names = ["a"] ∨ names = ["a", "d"] ∨ names = ["a", "c"] := by
  induction names using List.reverseRecOn with
  | nil => exact absurd rfl h.nonempty
  | append_singleton above name ih =>
      obtain ⟨rfl | ⟨habove, henters⟩, hname⟩ := visits_append_singleton.1 h
      · have hlisting : lostDirectory.listing (lostDirectory.pathAt []) = ["b", "a"] := rfl
        rw [hlisting] at hname
        simpa using hname
      · obtain rfl | rfl | rfl | rfl := ih habove
        · exact absurd henters (by decide)
        · have hlisting : lostDirectory.listing (lostDirectory.pathAt ["a"]) = ["d", "c"] := by
            decide
          rw [hlisting] at hname
          simpa using hname
        · have hlisting : lostDirectory.listing (lostDirectory.pathAt ["a", "d"]) = [] := by decide
          rw [hlisting] at hname
          cases hname
        · exact absurd henters (by decide)

theorem finite_lostDirectory : {names | lostDirectory.Visits names}.Finite :=
  (Set.toFinite {["b"], ["a"], ["a", "d"], ["a", "c"]}).subset fun _ h => visits_lostDirectory h

theorem enters_lostDirectory : lostDirectory.Enters ["a", "d"] := by
  have habove : lostDirectory.Visits ["a"] := visits_append_singleton.2 ⟨.inl rfl, by decide⟩
  have hvisits : lostDirectory.Visits ["a", "d"] :=
    visits_append_singleton.2 ⟨.inr ⟨habove, by decide⟩, by decide⟩
  exact .inr ⟨hvisits, by decide⟩

theorem names_lostDirectory : lostDirectory.names (lostDirectory.pathAt ["a", "d"]) =
    .error (.system .noEntry "/a/d") := by decide

theorem unlistable_lostDirectory {failure : Failure} (henters : lostDirectory.Enters names)
    (h : lostDirectory.names (lostDirectory.pathAt names) = .error failure) :
    names = ["a", "d"] ∧ failure = .system .noEntry "/a/d" := by
  obtain rfl | ⟨hvisits, hinto⟩ := henters
  · cases h
  · obtain rfl | rfl | rfl | rfl := visits_lostDirectory hvisits
    · exact absurd hinto (by decide)
    · have hnames : lostDirectory.names (lostDirectory.pathAt ["a"]) = .ok ["d", "c"] := by decide
      rw [hnames] at h
      cases h
    · rw [names_lostDirectory] at h
      cases h
      exact ⟨rfl, rfl⟩
    · exact absurd hinto (by decide)

theorem strict_walk_stops_at_lost_directory :
    ∃ entries before,
      Walk.Reports lostDirectory.host { lostDirectory.walk with bottomUp := true } ⟨"/", []⟩ "" ()
        entries (.ok ()) ∧
      Walk.Reports lostDirectory.host
        { lostDirectory.walk with bottomUp := true, strict := true } ⟨"/", []⟩ "" () before
        (.error (.system .noEntry "/a/d")) ∧
      before <+: entries ∧
      ⟨⟨"/", ["a", "d"]⟩, "a/d"⟩ ∉ before ∧ ⟨⟨"/", ["a"]⟩, "a"⟩ ∉ before := by
  obtain ⟨entries, hlenient, ⟨hlists, -⟩ |
      ⟨names, failure, before, rest, later, henters, hnames, -, rfl, -, -, hstrict, habove⟩⟩ :=
    strict_walk_stops_at_first_unlistable ((shows_host_walk lostDirectory).turned true)
      isCalm_lostDirectory finite_lostDirectory () trivial
  · obtain ⟨found, hfound⟩ := hlists ["a", "d"] enters_lostDirectory
    rw [names_lostDirectory] at hfound
    cases hfound
  · obtain ⟨rfl, rfl⟩ := unlistable_lostDirectory henters hnames
    refine ⟨before ++ later, before, hlenient, hstrict, List.prefix_append _ _, ?_, ?_⟩
    · exact habove rfl ["a", "d"] (by simp) List.prefix_rfl
    · exact habove rfl ["a"] (by simp) (by simp)

end Scene

end FileSelection
