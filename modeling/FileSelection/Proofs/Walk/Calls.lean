import FileSelection.Proofs.FileSystem.Descent
import FileSelection.Proofs.Recording
import FileSelection.Proofs.Walk.Steps

/-!
# The calls of a walk

A walk calls on the system and on its own two decisions.  A recorded walk takes the same steps and
notes every call with what comes of it, so that the calls of a step are those that its task makes.
-/

namespace FileSelection

open FileSelection.Path Act

/-- A call that a walk makes, with what comes of it. -/
inductive Walk.Call where
  | list (directory : Path) (names : Except Failure (List String))
  | examine (follow : Bool) (path : Path) (status : Except Failure Status)
  | accept (entry : Entry) (answer : Except Failure Bool)
  | mayDescend (entry : Entry) (answer : Except Failure Bool)

section

variable {σ : Type}

def Host.recorded (host : Host σ) : Host (List Walk.Call × σ) where
  names path := (host.names path).recording (.list path)
  status follow path := (host.status follow path).recording (.examine follow path)
  linkTarget path := (host.linkTarget path).beside
  read path := (host.read path).beside
  workingDirectory := host.workingDirectory.beside
  note note := (host.note note).beside

/-- The decisions are noted, and not what they ask the system in turn. -/
def Walk.recorded (walk : Walk σ) : Walk (List Walk.Call × σ) where
  accept entry := (walk.accept entry).recording (.accept entry)
  mayDescend entry := (walk.mayDescend entry).recording (.mayDescend entry)
  bottomUp := walk.bottomUp
  strict := walk.strict
  followLinks := walk.followLinks

def Host.ListsEntries (host : Host σ) : Prop :=
  ∀ {path state names last}, host.names path state = some (.ok names, last) →
    names.Nodup ∧ ∀ name ∈ names, IsEntryName name

end

namespace Walk

/-! ## The calls of a step -/

def Examines (path : Path) (calls : List Call) : Prop :=
  calls ≠ [] ∧ ∀ call ∈ calls, ∃ follow status, call = .examine follow path status

inductive ShowsDirectory (path : Path) : Bool → List Call → Prop
  | followed {status : Status} : status.kind = .directory →
      ShowsDirectory path true [.examine true path (.ok status)]
  | direct {itself : Except Failure Status} {status : Status} :
      (∀ found, itself = .ok found → found.kind ≠ .link) → status.kind = .directory →
        ShowsDirectory path false [.examine false path itself, .examine true path (.ok status)]

inductive Enquires (followLinks : Bool) (entry : Entry) : Except Failure Bool → List Call → Prop
  | examined {result : Except Failure Bool} {calls : List Call} :
      result ≠ .ok true → Examines entry.path calls → Enquires followLinks entry result calls
  | asked {answer : Except Failure Bool} {calls : List Call} :
      ShowsDirectory entry.path followLinks calls →
        Enquires followLinks entry answer (calls ++ [.mayDescend entry answer])

/-- The calls that a task makes, and what comes of the task: a failure, or the entry that is
reported and the tasks that take its place. -/
inductive Makes (bottomUp followLinks : Bool) :
    Task → List Call → Except Failure (Option Entry × List Task) → Prop
  | enter {directory : Path} {relative : String} {names : List String} :
      names.Nodup → (∀ name ∈ names, IsEntryName name) →
        Makes bottomUp followLinks (.enter directory relative) [.list directory (.ok names)]
          (.ok (none, (sortNames names).map fun name => .visit (entryOf directory relative name)))
  | lose {directory : Path} {relative : String} {failure : Failure} :
      Makes bottomUp followLinks (.enter directory relative) [.list directory (.error failure)]
        (.ok (none, []))
  | refuse {directory : Path} {relative : String} {failure failure' : Failure} :
      Makes bottomUp followLinks (.enter directory relative) [.list directory (.error failure)]
        (.error failure')
  | visit {entry : Entry} :
      Makes bottomUp followLinks (.visit entry) [] (.ok (none,
        if bottomUp then [.descend entry, .report entry] else [.report entry, .descend entry]))
  | descend {entry : Entry} {result : Except Failure Bool} {calls : List Call} :
      Enquires followLinks entry result calls →
        Makes bottomUp followLinks (.descend entry) calls (result.map fun enters =>
          (none, if enters then [.enter entry.path entry.relative] else []))
  | report {entry : Entry} {answer : Except Failure Bool} :
      Makes bottomUp followLinks (.report entry) [.accept entry answer]
        (answer.map fun accepted => (if accepted then some entry else none, []))

theorem ShowsDirectory.examines {path : Path} {followLinks : Bool} {calls : List Call}
    (h : ShowsDirectory path followLinks calls) : Examines path calls := by
  cases h with
  | followed _ => exact ⟨by simp, by simp⟩
  | direct _ _ => exact ⟨by simp, by simp⟩

section

variable {σ : Type} (host : Host σ) (walk : Walk σ)

theorem recounts_hasKind (follow : Bool) (kind : Kind) (path : Path) :
    Recounts (fun result added => ∃ status, added = [Call.examine follow path status] ∧
        ∀ found, result = .ok found →
          (found = true ↔ ∃ known, status = .ok known ∧ known.kind = kind))
      (host.hasKind follow kind path) (host.recorded.hasKind follow kind path) := by
  have hexamined :=
    (Recounts.recording (Call.examine follow path) (host.status follow path)).attempt
  have hstatus : Recounts (fun result added => ∃ status, added = [Call.examine follow path status] ∧
      ∀ known?, result = .ok known? → ∀ known, known? = some known ↔ status = .ok known)
      (host.status? follow path) (host.recorded.status? follow path) := by
    refine hexamined.bind (fun status => ?_) (by rintro failure added ⟨_, ⟨⟩, -⟩)
    cases status with
    | ok known =>
        refine .pure ?_
        rintro _ ⟨_, ⟨⟩, rfl, -⟩
        exact ⟨.ok known, rfl, by simp [eq_comm]⟩
    | error failure =>
        simp only
        split
        · refine .pure ?_
          rintro _ ⟨_, ⟨⟩, rfl, -⟩
          exact ⟨.error failure, rfl, by simp⟩
        · refine .throw ?_
          rintro _ ⟨_, ⟨⟩, rfl, -⟩
          exact ⟨.error failure, rfl, by simp⟩
  refine hstatus.bind (fun known? => .pure ?_) ?_
  · rintro _ ⟨status, rfl, hknown⟩
    refine ⟨status, rfl, ?_⟩
    rintro _ ⟨⟩
    simp only [← hknown _ rfl]
    cases known? with
    | none => simp
    | some known => simp
  · rintro failure _ ⟨status, rfl, -⟩
    exact ⟨status, rfl, by simp⟩

theorem recounts_isDescendable (path : Path) :
    Recounts (fun result added => Examines path added ∧
        (result = .ok true → ShowsDirectory path walk.followLinks added))
      (walk.isDescendable host path) (walk.recorded.isDescendable host.recorded path) := by
  have hdirectory := recounts_hasKind host true .directory path
  unfold isDescendable
  show Recounts _ (if !walk.followLinks then _ else _) (if !walk.followLinks then _ else _)
  cases walk.followLinks with
  | true =>
      refine hdirectory.mono ?_
      rintro result _ ⟨status, rfl, hstatus⟩
      refine ⟨⟨by simp, by simp⟩, ?_⟩
      rintro rfl
      obtain ⟨known, rfl, hkind⟩ := (hstatus true rfl).1 rfl
      exact .followed hkind
  | false =>
      refine (recounts_hasKind host false .link path).bind (fun isLink => ?_) ?_
      · cases isLink with
        | true =>
            refine .pure ?_
            rintro _ ⟨itself, rfl, -⟩
            exact ⟨⟨by simp, by simp⟩, by simp⟩
        | false =>
            refine hdirectory.mono ?_
            rintro result _ ⟨status, rfl, hstatus⟩ _ ⟨itself, rfl, hitself⟩
            refine ⟨⟨by simp, by simp⟩, ?_⟩
            rintro rfl
            obtain ⟨known, rfl, hkind⟩ := (hstatus true rfl).1 rfl
            refine .direct (fun found hfound hlink => ?_) hkind
            exact absurd ((hitself false rfl).2 ⟨found, hfound, hlink⟩) (by simp)
      · rintro failure _ ⟨itself, rfl, -⟩
        exact ⟨⟨by simp, by simp⟩, by simp⟩

theorem recounts_listNames (hhost : host.ListsEntries) (strict : Bool) (directory : Path) :
    Recounts (fun result added => ∃ listed, added = [Call.list directory listed] ∧
        match listed, result with
        | .ok found, .ok names =>
            names = sortNames found ∧ found.Nodup ∧ ∀ name ∈ found, IsEntryName name
        | .ok _, .error _ => False
        | .error _, .ok names => names = []
        | .error _, .error _ => True)
      (listNames host strict directory) (listNames host.recorded strict directory) := by
  have hlisted := (Recounts.recording (Call.list directory) (host.names directory)).attempt
  refine hlisted.bind (fun listed => ?_) (by rintro failure added ⟨_, ⟨⟩, -⟩)
  cases listed with
  | ok found =>
      refine .pure ?_
      rintro _ ⟨_, ⟨⟩, rfl, state, last, hnames⟩
      exact ⟨.ok found, rfl, rfl, hhost hnames⟩
  | error failure =>
      simp only
      split
      · refine .throw ?_
        rintro _ ⟨_, ⟨⟩, rfl, -⟩
        exact ⟨.error failure, rfl, trivial⟩
      · refine (Recounts.beside (host.note _)).bind (fun _ => .pure ?_) ?_
        · rintro _ ⟨rfl, -⟩ _ ⟨_, ⟨⟩, rfl, -⟩
          exact ⟨.error failure, rfl, rfl⟩
        · rintro _ _ ⟨rfl, -⟩ _ ⟨_, ⟨⟩, rfl, -⟩
          exact ⟨.error failure, rfl, trivial⟩

theorem recounts_entersInto (entry : Entry) :
    Recounts (Enquires walk.followLinks entry) (walk.entersInto host entry)
      (walk.recorded.entersInto host.recorded entry) := by
  refine (recounts_isDescendable host walk entry.path).bind (fun descendable => ?_) ?_
  · cases descendable with
    | true =>
        refine (Recounts.recording _ (walk.mayDescend entry)).mono ?_
        rintro result _ ⟨rfl, -⟩ added ⟨-, hshows⟩
        exact .asked (hshows rfl)
    | false =>
        refine .pure ?_
        rintro added ⟨hexamines, -⟩
        exact .examined (by simp) (by simpa using hexamines)
  · rintro failure added ⟨hexamines, -⟩
    exact .examined (by simp) hexamines

theorem recounts_perform (hhost : host.ListsEntries) (task : Task) :
    Recounts (fun result added => Makes walk.bottomUp walk.followLinks task added result)
      (walk.perform host task) (walk.recorded.perform host.recorded task) := by
  cases task with
  | enter directory relative =>
      refine (recounts_listNames host hhost walk.strict directory).bind (fun names => .pure ?_) ?_
      · rintro _ ⟨listed, rfl, hnames⟩
        cases listed with
        | ok found =>
            obtain ⟨rfl, hnodup, hentries⟩ := hnames
            exact .enter hnodup hentries
        | error failure =>
            obtain rfl : names = [] := hnames
            exact .lose
      · rintro failure _ ⟨listed, rfl, hnames⟩
        cases listed with
        | ok found => exact hnames.elim
        | error cause => exact .refuse
  | visit entry => exact .pure .visit
  | descend entry =>
      refine (recounts_entersInto host walk entry).bind (fun enters => ?_) fun _ _ => .descend
      cases enters with
      | true =>
          refine .pure fun added hadded => ?_
          rw [List.append_nil]
          exact .descend hadded
      | false =>
          refine .pure fun added hadded => ?_
          rw [List.append_nil]
          exact .descend hadded
  | report entry =>
      have haccept := Recounts.recording (Call.accept entry) (walk.accept entry)
      refine haccept.bind (fun accepted => ?_) ?_
      · cases accepted with
        | true =>
            refine .pure ?_
            rintro _ ⟨rfl, -⟩
            exact .report
        | false =>
            refine .pure ?_
            rintro _ ⟨rfl, -⟩
            exact .report
      · rintro failure _ ⟨rfl, -⟩
        exact .report

end

/-! ## The calls of many steps -/

/-- The calls of a number of steps, and what they end with: the tasks that are left or a failure. -/
inductive Trace (bottomUp followLinks : Bool) :
    List Task → List Call → Except Failure (List Task) → Prop
  | pause {stack : List Task} : Trace bottomUp followLinks stack [] (.ok stack)
  | fail {task : Task} {rest : List Task} {calls : List Call} {failure : Failure} :
      Makes bottomUp followLinks task calls (.error failure) →
        Trace bottomUp followLinks (task :: rest) calls (.error failure)
  | step {task : Task} {tasks rest : List Task} {calls more : List Call} {found : Option Entry}
      {outcome : Except Failure (List Task)} :
      Makes bottomUp followLinks task calls (.ok (found, tasks)) →
        Trace bottomUp followLinks (tasks ++ rest) more outcome →
          Trace bottomUp followLinks (task :: rest) (calls ++ more) outcome

section

variable {bottomUp followLinks : Bool} {stack middle : List Task} {calls more : List Call}

theorem Trace.of_step {task : Task} {tasks : List Task} {found : Option Entry} (rest : List Task)
    (h : Makes bottomUp followLinks task calls (.ok (found, tasks))) :
    Trace bottomUp followLinks (task :: rest) calls (.ok (tasks ++ rest)) := by
  simpa using Trace.step h .pause

theorem Trace.trans {first : Except Failure (List Task)} {outcome : Except Failure (List Task)}
    (h : Trace bottomUp followLinks stack calls first) (hfirst : first = .ok middle)
    (hrest : Trace bottomUp followLinks middle more outcome) :
    Trace bottomUp followLinks stack (calls ++ more) outcome := by
  induction h with
  | pause =>
      cases hfirst
      exact hrest
  | fail => cases hfirst
  | step hmakes _ ih =>
      rw [List.append_assoc]
      exact .step hmakes (ih hfirst)

variable {σ α : Type}

def Draws (bottomUp followLinks : Bool) (pick : Entry → Act σ (Option α)) (stack : List Task) :
    Account Call (Option α × List Task)
  | .ok (some value, following), calls => Trace bottomUp followLinks stack calls (.ok following) ∧
      ∃ earlier entry, calls = earlier ++ [.accept entry (.ok true)] ∧
        ∃ before after, pick entry before = some (.ok (some value), after)
  | .ok (none, _), calls => Trace bottomUp followLinks stack calls (.ok [])
  | .error _, calls => ∃ outcome, Trace bottomUp followLinks stack calls outcome

theorem Draws.after {pick : Entry → Act σ (Option α)}
    {result : Except Failure (Option α × List Task)}
    (h : Trace bottomUp followLinks stack calls (.ok middle))
    (hdraws : Draws bottomUp followLinks pick middle result more) :
    Draws bottomUp followLinks pick stack result (calls ++ more) := by
  match result, hdraws with
  | .ok (some value, following), ⟨hrest, earlier, entry, heq, hpick⟩ =>
      exact ⟨h.trans rfl hrest, calls ++ earlier, entry, by rw [heq, List.append_assoc], hpick⟩
  | .ok (none, _), hrest => exact h.trans rfl hrest
  | .error _, ⟨outcome, hrest⟩ => exact ⟨outcome, h.trans rfl hrest⟩

theorem Draws.trace {pick : Entry → Act σ (Option α)}
    {result : Except Failure (Option α × List Task)}
    (h : Draws bottomUp followLinks pick stack result calls) :
    ∃ outcome, Trace bottomUp followLinks stack calls outcome := by
  match result, h with
  | .ok (some _, _), ⟨htrace, _⟩ => exact ⟨_, htrace⟩
  | .ok (none, _), htrace => exact ⟨_, htrace⟩
  | .error _, htrace => exact htrace

theorem Makes.accept_of_found {task : Task} {tasks : List Task} {entry : Entry}
    (h : Makes bottomUp followLinks task calls (.ok (some entry, tasks))) :
    calls = [.accept entry (.ok true)] := by
  generalize hresult : Except.ok (some entry, tasks) = result at h
  cases h with
  | enter | lose | refuse | visit => cases hresult
  | @descend _ answer =>
      cases answer with
      | ok _ | error _ => cases hresult
  | @report _ answer =>
      cases answer with
      | error _ => cases hresult
      | ok accepted =>
          cases accepted with
          | true =>
              cases hresult
              rfl
          | false => cases hresult

variable (host : Host σ) (walk : Walk σ)

theorem recounts_advance (hhost : host.ListsEntries) (pick : Entry → Act σ (Option α))
    (stack : List Task) :
    Recounts (StepAccount (Draws walk.bottomUp walk.followLinks pick) stack)
      (walk.advance host pick stack)
      (walk.recorded.advance host.recorded (fun entry => (pick entry).beside) stack) := by
  cases stack with
  | nil => exact .pure .pause
  | cons task rest =>
      refine (recounts_perform host walk hhost task).bind (fun (found, tasks) => ?_)
        fun failure _ hmakes => ⟨_, .fail hmakes⟩
      cases found with
      | none =>
          refine .pure fun calls hmakes result more hdraws => ?_
          rw [List.append_nil]
          exact hdraws.after (.of_step rest hmakes)
      | some entry =>
          refine (Recounts.beside (pick entry)).bind (fun value => ?_) ?_
          · cases value with
            | some value =>
                refine .pure ?_
                rintro _ ⟨rfl, state, last, hpick⟩ calls hmakes
                refine ⟨by simpa using Trace.of_step rest hmakes, [], entry, ?_, state, last, hpick⟩
                simpa using hmakes.accept_of_found
            | none =>
                refine .pure ?_
                rintro _ ⟨rfl, -⟩ calls hmakes result more hdraws
                simpa using hdraws.after (.of_step rest hmakes)
          · rintro failure _ ⟨rfl, -⟩ calls hmakes
            exact ⟨_, by simpa using Trace.of_step rest hmakes⟩

theorem recounts_next (hhost : host.ListsEntries) (pick : Entry → Act σ (Option α))
    (stack : List Task) :
    Recounts (Draws walk.bottomUp walk.followLinks pick stack) (walk.next host pick stack)
      (walk.recorded.next host.recorded (fun entry => (pick entry).beside) stack) :=
  .loop (recounts_advance host walk hhost pick) stack

theorem trace_of_passes (hhost : host.ListsEntries) {pick : Entry → Act σ (Option α)}
    {state last : σ}
    (h : Passes (walk.recorded.advance host.recorded fun entry => (pick entry).beside) stack
      ([], state) (calls, last)) :
    ∃ outcome, Trace walk.bottomUp walk.followLinks stack calls outcome := by
  obtain ⟨added, hadded, rfl⟩ := h.of_recorded (recounts_advance host walk hhost pick) .nulInPath
    (fun _ => ⟨_, .pause⟩) fun _ _ _ hdraws => hdraws.trace
  exact hadded

end

end Walk

end FileSelection
