import FileSelection.Proofs.Walk.CallOrder
import FileSelection.Proofs.Walk.Lenient

/-!
# The entries that a walk reports

Whatever happens to the file system meanwhile, each entry that a walk reports is the one to which
names lead from its base, and no two entries have the same names.
-/

namespace FileSelection

open FileSelection.Path

namespace Walk

variable {σ : Type} {host : Host σ} {walk : Walk σ} {base : Path} {basepath : String}
  {stack following : List Task} {entries : List Entry}

/-! ## Followed walks -/

inductive Follows (host : Host σ) (walk : Walk σ) :
    List Task → List Entry → Except Failure (List Task ⊕ Unit) → Prop
  | over : Follows host walk [] [] (.ok (.inr ()))
  | fail {task : Task} {rest : List Task} {failure : Failure} :
      Follows host walk (task :: rest) [] (.error failure)
  | step {task : Task} {tasks rest : List Task} {found : Option Entry} :
      walk.Takes host task found tasks →
        Follows host walk (task :: rest) found.toList (.ok (.inl (tasks ++ rest)))

theorem follows_of_follow {gathered gathered' : List Entry} {state last : σ}
    {result : Except Failure (List Task ⊕ Unit)}
    (h : walk.follow host (fun entry => Act.gather (entry :: ·)) stack (gathered, state) =
      some (result, gathered', last)) :
    ∃ entries, walk.Follows host stack entries result ∧ gathered' = entries ++ gathered := by
  cases stack with
  | nil =>
      cases h
      exact ⟨[], .over, rfl⟩
  | cons task rest =>
      obtain ⟨⟨found, tasks⟩, middle, hdone, hrest⟩ | ⟨failure, middle, -, heq⟩ :=
        Act.beside_bind_eq_some_iff.1 h
      · refine ⟨found.toList, ?_⟩
        cases found with
        | none | some entry =>
            cases hrest
            exact ⟨.step ⟨state, _, hdone⟩, rfl⟩
      · cases heq
        exact ⟨[], .fail, rfl⟩

theorem course_of_loop {gathered gathered' : List Entry} {state last : σ}
    {result : Except Failure Unit}
    (h : Act.Step.loop (walk.follow host fun entry => Act.gather (entry :: ·)) stack
      (gathered, state) = some (result, gathered', last)) :
    ∃ entries following, Course (walk.Takes host) stack entries following ∧
      gathered' = entries.reverse ++ gathered ∧ (result = .ok () → following = []) := by
  rw [Act.loop_eq_some_iff] at h
  generalize houtcome : (result, gathered', last) = outcome at h
  generalize hstate : (gathered, state) = pair at h
  induction h generalizing gathered state with
  | value hstep =>
      cases hstate
      cases houtcome
      obtain ⟨_, hfollows, rfl⟩ := follows_of_follow hstep
      cases hfollows
      exact ⟨[], [], .refl, rfl, fun _ => rfl⟩
  | failure hstep =>
      cases hstate
      cases houtcome
      obtain ⟨_, hfollows, rfl⟩ := follows_of_follow hstep
      cases hfollows
      exact ⟨[], _, .refl, rfl, nofun⟩
  | @next _ _ _ middle _ hstep _ ih =>
      obtain ⟨gathered₁, middle⟩ := middle
      cases hstate
      obtain ⟨_, hfollows, rfl⟩ := follows_of_follow hstep
      obtain ⟨entries, following, hcourse, rfl, hend⟩ := ih houtcome rfl
      cases hfollows with
      | @step task tasks rest found htakes =>
          refine ⟨_, following, .step htakes hcourse, ?_, hend⟩
          cases found with
          | none | some entry => simp

/-! ## Entries below the base -/

/-- Names of entries lead from the base to what the task is about; only the base itself has none. -/
def Task.LiesBelow (base : Path) (basepath : String) (task : Task) : Prop :=
  ∃ names, (∀ name ∈ names, IsEntryName name) ∧ (task.isEnter = false → names ≠ []) ∧
    task.entry = entryBelow base basepath names

def LiesBelow (base : Path) (basepath : String) (entry : Entry) : Prop :=
  ∃ names, (∀ name ∈ names, IsEntryName name) ∧ names ≠ [] ∧
    entry = entryBelow base basepath names

theorem Takes.replaces {task : Task} {found : Option Entry} {tasks : List Task}
    (hhost : host.ListsEntries) (h : walk.Takes host task found tasks) :
    Replaces walk.bottomUp task found tasks := by
  obtain ⟨before, after, hperform⟩ := h
  refine replaces_of_perform (fun hnames => ?_) hperform
  obtain ⟨hnodup, hvalid⟩ := hhost hnames
  exact ⟨hnodup, fun name hname => (hvalid name hname).toIsName⟩

theorem Takes.liesBelow {task : Task} {found : Option Entry} {tasks : List Task}
    (hhost : host.ListsEntries) (h : walk.Takes host task found tasks)
    (htask : task.LiesBelow base basepath) :
    (∀ entry ∈ found, LiesBelow base basepath entry) ∧
      ∀ other ∈ tasks, other.LiesBelow base basepath := by
  obtain ⟨before, after, hperform⟩ := h
  obtain ⟨calls, hmakes, -⟩ := (recounts_perform host walk hhost task).ends hperform []
  obtain ⟨names, hvalid, hne, hentry⟩ := htask
  generalize hresult : Except.ok (found, tasks) = result at hmakes
  cases hmakes with
  | @enter directory relative found _ hfound =>
      cases hresult
      refine ⟨by simp, List.forall_mem_map.2 fun name hname => ?_⟩
      have hname := hfound name (List.mem_mergeSort.1 hname)
      have hdirectory : directory = base.below names := congrArg Entry.path hentry
      have hrelative : relative = relativeOf basepath names := congrArg Entry.relative hentry
      refine ⟨names ++ [name], List.forall_mem_append.2 ⟨hvalid, by simpa using hname⟩, by simp, ?_⟩
      rw [hdirectory, hrelative]
      exact entryOf_entryBelow hname
  | lose =>
      cases hresult
      exact ⟨by simp, by simp⟩
  | refuse => cases hresult
  | visit =>
      cases hresult
      refine ⟨by simp, ?_⟩
      have hboth : ∀ other ∈ [Task.descend _, Task.report _], other.LiesBelow base basepath :=
        List.forall_mem_cons.2 ⟨⟨names, hvalid, hne, hentry⟩,
          List.forall_mem_singleton.2 ⟨names, hvalid, hne, hentry⟩⟩
      intro other hother
      split at hother
      · exact hboth other hother
      · exact hboth other (by simpa [or_comm] using hother)
  | @descend entry answer _ _ =>
      cases answer with
      | error failure => cases hresult
      | ok enters =>
          cases hresult
          refine ⟨by simp, fun other hother => ?_⟩
          split at hother
          · obtain rfl := List.mem_singleton.1 hother
            exact ⟨names, hvalid, nofun, hentry⟩
          · cases hother
  | @report entry answer =>
      cases answer with
      | error failure => cases hresult
      | ok accepted =>
          cases hresult
          refine ⟨fun other hother => ?_, by simp⟩
          split at hother
          · obtain rfl := Option.some.inj hother
            exact ⟨names, hvalid, hne rfl, hentry⟩
          · cases hother

theorem Course.liesBelow (hhost : host.ListsEntries)
    (h : Course (walk.Takes host) stack entries following)
    (hstack : ∀ task ∈ stack, task.LiesBelow base basepath) :
    ∀ entry ∈ entries, LiesBelow base basepath entry := by
  induction h with
  | refl => exact List.forall_mem_nil _
  | step htakes _ ih =>
      obtain ⟨hfirst, hrest⟩ := List.forall_mem_cons.1 hstack
      obtain ⟨hfound, htasks⟩ := htakes.liesBelow hhost hfirst
      exact List.forall_mem_append.2
        ⟨by simpa using hfound, ih (List.forall_mem_append.2 ⟨htasks, hrest⟩)⟩

theorem Course.exists_names (hhost : host.ListsEntries)
    (h : Course (walk.Takes host) (start base basepath) entries following) :
    ∃ named : List (List String), entries = named.map (entryBelow base basepath) ∧
      named.Pairwise (Precedes walk.bottomUp) ∧
      ∀ names ∈ named, names ≠ [] ∧ ∀ name ∈ names, IsEntryName name := by
  have hbelow : ∀ entry ∈ entries, LiesBelow base basepath entry :=
    h.liesBelow hhost <| List.forall_mem_singleton.2
      ⟨[], by simp, nofun, by rw [entryBelow, below_nil]; rfl⟩
  have hread : ∀ entry ∈ entries, ∃ names, namesBelow basepath entry.relative = names ∧
      entry = entryBelow base basepath names ∧ names ≠ [] ∧ ∀ name ∈ names, IsEntryName name := by
    intro entry hentry
    obtain ⟨names, hvalid, hne, rfl⟩ := hbelow entry hentry
    have hnames : namesBelow basepath (relativeOf basepath names) = names :=
      namesBelow_relativeOf hne fun name hname => (hvalid name hname).toIsName
    exact ⟨names, hnames, rfl, hne, hvalid⟩
  refine ⟨(entries.map Entry.relative).map (namesBelow basepath), ?_,
    (h.mono fun htakes => htakes.replaces hhost).namesBelow_ascends, ?_⟩
  · rw [List.map_map, List.map_map]
    refine (List.map_id entries).symm.trans (List.map_congr_left fun entry hentry => ?_)
    obtain ⟨names, hnames, hsame, -⟩ := hread entry hentry
    rw [Function.comp_apply, Function.comp_apply, hnames]
    exact hsame
  · rw [List.map_map]
    refine List.forall_mem_map.2 fun entry hentry => ?_
    obtain ⟨names, hnames, -, hvalid⟩ := hread entry hentry
    rw [Function.comp_apply, hnames]
    exact hvalid

end Walk

end FileSelection
