import FileSelection.Collection
import FileSelection.Proofs.Act
import FileSelection.Proofs.Path.Names

/-!
# What a walk can do

One step of a walk replaces a task by others, whatever the file system answers.  A course is a
number of such steps, between which everything but the tasks may change.
-/

namespace FileSelection

open FileSelection.Path

def IsListing (names : List String) : Prop := names.Nodup ∧ ∀ name ∈ names, IsName name

def Host.IsTidyAt {σ : Type} (host : Host σ) (state : σ) : Prop :=
  ∀ {path names last}, host.names path state = some (.ok names, last) → IsListing names

def Host.IsTidy {σ : Type} (host : Host σ) : Prop := ∀ state, host.IsTidyAt state

def Records {σ : Type} (visit : Entry → Act (List String × σ) Unit) : Prop :=
  ∀ {entry seen state result seen' last},
    visit entry (seen, state) = some (result, seen', last) →
      seen' = seen ∨ seen' = seen ++ [entry.relative]

namespace Walk

/-! ## Steps -/

/-- The tasks that can take the place of a task, with the entry that is reported meanwhile. -/
inductive Replaces (bottomUp : Bool) : Task → Option Entry → List Task → Prop
  | enter {directory : Path} {relative : String} {names : List String} :
      IsListing names → Replaces bottomUp (.enter directory relative) none
          ((sortNames names).map fun name => .visit (entryOf directory relative name))
  | visit {entry : Entry} :
      Replaces bottomUp (.visit entry) none
        (if bottomUp then [.descend entry, .report entry] else [.report entry, .descend entry])
  | descend {entry : Entry} :
      Replaces bottomUp (.descend entry) none [.enter entry.path entry.relative]
  | skip {entry : Entry} : Replaces bottomUp (.descend entry) none []
  | report {entry : Entry} : Replaces bottomUp (.report entry) (some entry) []
  | drop {entry : Entry} : Replaces bottomUp (.report entry) none []

section

variable {σ : Type} {host : Host σ} {walk : Walk σ} {state last : σ}

theorem listNames_eq_ok {strict : Bool} {directory : Path} {names : List String}
    (hhost : host.IsTidyAt state)
    (h : listNames host strict directory state = some (.ok names, last)) :
    ∃ found, names = sortNames found ∧ IsListing found := by
  obtain ⟨result, middle, hnames, h⟩ := Act.bind_eq_ok_iff.1 h
  rw [Act.attempt_eq_ok_iff] at hnames
  cases result with
  | ok found =>
      cases h
      exact ⟨found, rfl, hhost hnames⟩
  | error failure =>
      simp only at h
      split at h
      · cases h
      · obtain ⟨_, _, -, h⟩ := Act.bind_eq_ok_iff.1 h
        cases h
        exact ⟨[], by simp [sortNames], .nil, by simp⟩

theorem perform_enter_of_sorted {directory : Path} {names : List String} (relative : String)
    (h : host.names directory state = some (.ok names, last))
    (hsorted : names.Pairwise fun a b => !decide (b < a)) :
    walk.perform host (.enter directory relative) state =
      some (.ok (none, names.map fun name => .visit (entryOf directory relative name)), last) := by
  have hlisted : listNames host walk.strict directory state = some (.ok names, last) := by
    rw [listNames, Act.bind_of_ok (Act.attempt_eq_ok_iff.2 h)]
    show some (Except.ok (sortNames names), last) = _
    rw [sortNames, List.mergeSort_of_pairwise hsorted]
  exact Act.bind_of_ok hlisted

theorem replaces_of_perform {task : Task} {found : Option Entry} {tasks : List Task}
    (hhost : host.IsTidyAt state)
    (h : walk.perform host task state = some (.ok (found, tasks), last)) :
    Replaces walk.bottomUp task found tasks := by
  cases task with
  | enter directory relative =>
      obtain ⟨names, middle, hnames, h⟩ := Act.bind_eq_ok_iff.1 h
      obtain ⟨found, rfl, htidy⟩ := listNames_eq_ok hhost hnames
      cases h
      exact .enter htidy
  | visit entry =>
      cases h
      exact .visit
  | descend entry =>
      obtain ⟨enters, middle, -, h⟩ := Act.bind_eq_ok_iff.1 h
      cases enters with
      | true =>
          cases h
          exact .descend
      | false =>
          cases h
          exact .skip
  | report entry =>
      obtain ⟨accepted, middle, -, h⟩ := Act.bind_eq_ok_iff.1 h
      cases accepted with
      | true =>
          cases h
          exact .report
      | false =>
          cases h
          exact .drop

end

/-! ## Courses -/

/-- A number of steps that are possible: the tasks before, the reported entries and the tasks
after. -/
inductive Course (possible : Task → Option Entry → List Task → Prop) :
    List Task → List Entry → List Task → Prop
  | refl {stack : List Task} : Course possible stack [] stack
  | step {task : Task} {tasks rest stack : List Task} {found : Option Entry}
      {entries : List Entry} :
      possible task found tasks → Course possible (tasks ++ rest) entries stack →
        Course possible (task :: rest) (found.toList ++ entries) stack

section

variable {possible : Task → Option Entry → List Task → Prop} {first middle last : List Task}
  {entries others : List Entry}

theorem Course.trans (h : Course possible first entries middle)
    (h' : Course possible middle others last) :
    Course possible first (entries ++ others) last := by
  induction h with
  | refl => exact h'
  | step hpossible _ ih =>
      rw [List.append_assoc]
      exact .step hpossible (ih h')

theorem Course.of_step {task : Task} {tasks : List Task} {found : Option Entry}
    (rest : List Task) (h : possible task found tasks) :
    Course possible (task :: rest) found.toList (tasks ++ rest) := by
  simpa using Course.step h .refl

theorem Course.before (h : Course possible first entries last) (waiting : List Task) :
    Course possible (first ++ waiting) entries (last ++ waiting) := by
  induction h with
  | refl => exact .refl
  | step hpossible _ ih =>
      rw [List.append_assoc] at ih
      exact .step hpossible ih

theorem Course.mono {weaker : Task → Option Entry → List Task → Prop}
    (h : Course possible first entries last)
    (hweaker : ∀ {task found tasks}, possible task found tasks → weaker task found tasks) :
    Course weaker first entries last := by
  induction h with
  | refl => exact .refl
  | step hpossible _ ih => exact .step (hweaker hpossible) ih

end

/-! ## Courses to the end -/

def Ends (possible : Task → Option Entry → List Task → Prop) (tasks : List Task)
    (described : Entry → Prop) : Prop :=
  ∃ entries, Course possible tasks entries [] ∧ ∀ entry, entry ∈ entries ↔ described entry

section

variable {possible : Task → Option Entry → List Task → Prop} {tasks : List Task}
  {described : Entry → Prop}

theorem Ends.congr {same : Entry → Prop} (h : Ends possible tasks described)
    (hsame : ∀ entry, described entry ↔ same entry) : Ends possible tasks same := by
  obtain ⟨entries, hcourse, hentries⟩ := h
  exact ⟨entries, hcourse, fun entry => (hentries entry).trans (hsame entry)⟩

theorem Ends.nil : Ends possible [] fun _ => False :=
  ⟨[], .refl, by simp⟩

theorem Ends.append {others : List Task} {beside : Entry → Prop}
    (h : Ends possible tasks described) (hothers : Ends possible others beside) :
    Ends possible (tasks ++ others) fun entry => described entry ∨ beside entry := by
  obtain ⟨entries, hcourse, hentries⟩ := h
  obtain ⟨more, hmore, hbeside⟩ := hothers
  refine ⟨entries ++ more, (hcourse.before others).trans hmore, fun entry => ?_⟩
  rw [List.mem_append, hentries, hbeside]

theorem Ends.step {task : Task} {found : Option Entry} (hpossible : possible task found tasks)
    (h : Ends possible tasks described) :
    Ends possible [task] fun entry => entry ∈ found ∨ described entry := by
  obtain ⟨entries, hcourse, hentries⟩ := h
  have hwhole := (Course.of_step [] hpossible).trans (by simpa using hcourse)
  exact ⟨_, hwhole, fun entry => by simp [hentries]⟩

theorem Ends.map {task : String → Task} {describedBy : String → Entry → Prop}
    {names : List String} (h : ∀ name ∈ names, Ends possible [task name] (describedBy name)) :
    Ends possible (names.map task) fun entry => ∃ name ∈ names, describedBy name entry := by
  induction names with
  | nil => exact Ends.nil.congr (by simp)
  | cons name names ih =>
      have hfirst := h name List.mem_cons_self
      have hrest := ih fun other hother => h other (List.mem_cons_of_mem _ hother)
      exact (hfirst.append hrest).congr (by simp)

end

section

variable {σ α β : Type} {host : Host σ} {walk : Walk σ} (hhost : host.IsTidy)

include hhost

theorem advance_course {pick : Entry → Act σ (Option α)} {stack : List Task} {state last : σ}
    {answer : List Task ⊕ Option α × List Task}
    (h : walk.advance host pick stack state = some (.ok answer, last)) :
    match answer with
    | .inl following => ∃ entries, Course (Replaces walk.bottomUp) stack entries following
    | .inr (some value, following) =>
        ∃ entry, Course (Replaces walk.bottomUp) stack [entry] following ∧
          ∃ before after, pick entry before = some (.ok (some value), after)
    | .inr (none, _) => True := by
  cases stack with
  | nil =>
      cases h
      trivial
  | cons task rest =>
      obtain ⟨⟨found, tasks⟩, middle, hperform, h⟩ := Act.bind_eq_ok_iff.1 h
      have hcourse := Course.of_step rest (replaces_of_perform (hhost _) hperform)
      cases found with
      | none =>
          cases h
          exact ⟨_, hcourse⟩
      | some entry =>
          obtain ⟨value, after, hpick, h⟩ := Act.bind_eq_ok_iff.1 h
          cases value with
          | none =>
              cases h
              exact ⟨_, hcourse⟩
          | some value =>
              cases h
              exact ⟨entry, hcourse, middle, _, hpick⟩

theorem next_course {pick : Entry → Act σ (Option α)} {stack following : List Task}
    {state last : σ} {value : α}
    (h : walk.next host pick stack state = some (.ok (some value, following), last)) :
    ∃ entries entry, Course (Replaces walk.bottomUp) stack (entries ++ [entry]) following ∧
      ∃ before after, pick entry before = some (.ok (some value), after) := by
  rw [next, Act.loop_eq_some_iff] at h
  generalize houtcome : (Except.ok (some value, following), last) = outcome at h
  induction h with
  | value hstep =>
      cases houtcome
      obtain ⟨entry, hcourse, hpick⟩ := advance_course hhost hstep
      exact ⟨[], entry, hcourse, hpick⟩
  | failure => cases houtcome
  | next hstep _ ih =>
      obtain ⟨entries, hcourse⟩ := advance_course hhost hstep
      obtain ⟨others, entry, hrest, hpick⟩ := ih houtcome
      exact ⟨entries ++ others, entry, by simpa using hcourse.trans hrest, hpick⟩

variable {visit : Entry → Act (List String × σ) Unit} (hvisit : Records visit)

include hvisit

theorem follow_course {stack : List Task} {seen seen' : List String} {state last : σ}
    {result : Except Failure (List Task ⊕ Unit)}
    (h : walk.follow host visit stack (seen, state) = some (result, seen', last)) :
    ∃ entries following added, Course (Replaces walk.bottomUp) stack entries following ∧
      added.Sublist (entries.map Entry.relative) ∧ seen' = seen ++ added ∧
        ∀ next, result = .ok (.inl next) → next = following := by
  cases stack with
  | nil =>
      cases h
      exact ⟨[], [], [], .refl, .slnil, by simp, by simp⟩
  | cons task rest =>
      obtain ⟨⟨found, tasks⟩, middle, hdone, h⟩ | ⟨failure, middle, -, heq⟩ :=
        Act.beside_bind_eq_some_iff.1 h
      · have hcourse := Course.of_step rest (replaces_of_perform (hhost _) hdone)
        cases found with
        | none =>
            cases h
            exact ⟨[], _, [], hcourse, .slnil, by simp, by simp⟩
        | some entry =>
            obtain ⟨_, ⟨seen₂, after⟩, hseen, h⟩ | ⟨failure, ⟨seen₂, after⟩, hseen, heq⟩ :=
              Act.bind_eq_some_iff.1 h
            · cases h
              obtain rfl | rfl := hvisit hseen
              · exact ⟨_, _, [], hcourse, by simp, by simp, by simp⟩
              · exact ⟨_, _, _, hcourse, .refl _, rfl, by simp⟩
            · cases heq
              obtain rfl | rfl := hvisit hseen
              · exact ⟨_, _, [], hcourse, by simp, by simp, by simp⟩
              · exact ⟨_, _, _, hcourse, .refl _, rfl, by simp⟩
      · cases heq
        exact ⟨[], _, [], .refl, .slnil, by simp, by simp⟩

theorem loop_follow_course {stack : List Task} {seen seen' : List String} {state last : σ}
    {result : Except Failure Unit}
    (h : Act.Step.loop (walk.follow host visit) stack (seen, state) = some (result, seen', last)) :
    ∃ entries following added, Course (Replaces walk.bottomUp) stack entries following ∧
      added.Sublist (entries.map Entry.relative) ∧ seen' = seen ++ added := by
  rw [Act.loop_eq_some_iff] at h
  generalize houtcome : (result, seen', last) = outcome at h
  generalize hstate : (seen, state) = pair at h
  induction h generalizing seen state with
  | value hstep =>
      cases hstate
      cases houtcome
      obtain ⟨entries, following, added, hcourse, hadded, hseen, -⟩ :=
        follow_course hhost hvisit hstep
      exact ⟨entries, following, added, hcourse, hadded, hseen⟩
  | failure hstep =>
      cases hstate
      cases houtcome
      obtain ⟨entries, following, added, hcourse, hadded, hseen, -⟩ :=
        follow_course hhost hvisit hstep
      exact ⟨entries, following, added, hcourse, hadded, hseen⟩
  | @next _ _ _ middle _ hstep _ ih =>
      obtain ⟨seen₁, middle⟩ := middle
      cases hstate
      obtain ⟨entries, following, added, hcourse, hadded, rfl, hnext⟩ :=
        follow_course hhost hvisit hstep
      obtain rfl := hnext _ rfl
      obtain ⟨others, last, more, hrest, hmore, rfl⟩ := ih houtcome rfl
      exact ⟨entries ++ others, last, added ++ more, hcourse.trans hrest, by
        simpa using hadded.append hmore, by simp⟩

end

end Walk

end FileSelection
