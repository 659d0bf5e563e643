import FileSelection.Proofs.Walk.CallOrder

/-!
# What a walk has called and will call

The tasks that are left go on where the calls so far have stopped, and of each visited entry it is
known or will be asked what has to be.  Each step keeps this, so that all the calls are in order.
-/

namespace FileSelection

open FileSelection.Path

namespace Walk

/-- How the tasks that are left follow what was called before. -/
structure Arranged (base : Path) (basepath : String) (bottomUp : Bool) (marks : List Mark)
    (calls : List Call) : Prop where
  stands : ∀ mark ∈ marks, mark.Stands base basepath
  apart : marks.Pairwise (Mark.IsAhead base bottomUp)
  ahead : ∀ call ∈ calls, ∀ mark ∈ marks, ∀ later, mark.CanMake base later →
    call.IsBefore bottomUp later
  ordered : calls.Pairwise (Call.IsBefore bottomUp)

def Task.WillDecide (entry : Entry) : Task → Prop
  | .visit other | .report other => other = entry
  | .enter _ _ | .descend _ => False

def Task.WillExamine (entry : Entry) : Task → Prop
  | .visit other | .descend other => other = entry
  | .enter _ _ | .report _ => False

/-- Each task was called for, and of each visited entry it is known or will be what has to be. -/
structure Grounded (base : Path) (basepath : String) (followLinks : Bool) (tasks : List Task)
    (calls : List Call) : Prop where
  invited : ∀ directory relative, tasks.head? = some (.enter directory relative) →
    Invites base basepath followLinks calls directory
  entersFirst : ∀ task ∈ tasks.tail, task.isEnter = false
  visited : ∀ task ∈ tasks, task.isEnter = false → Visited base basepath calls task.entry
  decided : ∀ entry, Visited base basepath calls entry →
    Decided calls entry ∨ ∃ task ∈ tasks, task.WillDecide entry
  examined : ∀ entry, Visited base basepath calls entry →
    Examined calls entry ∨ ∃ task ∈ tasks, task.WillExamine entry

def AllWarranted (base : Path) (basepath : String) (bottomUp followLinks : Bool)
    (past calls : List Call) : Prop :=
  ∀ before call after, calls = before ++ call :: after →
    call.IsWarranted base basepath bottomUp followLinks (past ++ before)

section

variable {base : Path} {basepath : String} {bottomUp followLinks : Bool} {mark : Mark}
  {marks parts : List Mark} {past calls made : List Call} {entry : Entry}

theorem Arranged.step (h : Arranged base basepath bottomUp (mark :: marks) calls)
    (hparts : ∀ part ∈ parts, part.Stands base basepath)
    (hdivides : mark.Divides base bottomUp made parts) :
    Arranged base basepath bottomUp (parts ++ marks) (calls ++ made) := by
  obtain ⟨-, hstands⟩ := List.forall_mem_cons.1 h.stands
  obtain ⟨hfirst, hrest⟩ := List.pairwise_cons.1 h.apart
  have hmark : ∀ call ∈ calls, ∀ later, mark.CanMake base later → call.IsBefore bottomUp later :=
    fun call hcall => h.ahead call hcall mark List.mem_cons_self
  have hmarks : ∀ call ∈ calls, ∀ other ∈ marks, ∀ later, other.CanMake base later →
      call.IsBefore bottomUp later :=
    fun call hcall other hother => h.ahead call hcall other (List.mem_cons_of_mem _ hother)
  refine ⟨List.forall_mem_append.2 ⟨hparts, hstands⟩, ?_, ?_, ?_⟩
  · refine List.pairwise_append.2 ⟨hdivides.apart, hrest, ?_⟩
    intro part hpart other hother call later hcall hlater
    exact hfirst other hother call later (hdivides.within part hpart call hcall) hlater
  · refine List.forall_mem_append.2 ⟨fun call hcall => ?_, fun call hcall => ?_⟩
    · refine List.forall_mem_append.2 ⟨fun part hpart later hlater => ?_, hmarks call hcall⟩
      exact hmark call hcall later (hdivides.within part hpart later hlater)
    · refine List.forall_mem_append.2 ⟨hdivides.ahead call hcall, fun other hother later => ?_⟩
      exact hfirst other hother call later (hdivides.mayCall call hcall)
  · refine List.pairwise_append.2 ⟨h.ordered, hdivides.ordered, fun call hcall later hlater => ?_⟩
    exact hmark call hcall later (hdivides.mayCall later hlater)

/-! ## What was visited -/

theorem Visited.mono {more : List Call} (h : Visited base basepath calls entry)
    (hmore : calls ⊆ more) : Visited base basepath more entry := by
  obtain ⟨above, name, found, hlisted, hname⟩ := h
  exact ⟨above, name, found, hmore hlisted, hname⟩

theorem visited_append_iff
    (hmade : ∀ call ∈ made, ∀ directory found, call ≠ .list directory (.ok found)) :
    Visited base basepath (calls ++ made) entry ↔ Visited base basepath calls entry := by
  constructor
  · rintro ⟨above, name, found, hlisted, hname⟩
    refine ⟨above, name, found, (List.mem_append.1 hlisted).resolve_right fun h => ?_, hname⟩
    exact hmade _ h _ _ rfl
  · exact fun h => h.mono (List.subset_append_left _ _)

theorem Visited.of_append_list {names found : List String}
    (h : Visited base basepath (calls ++ [.list (base.below names) (.ok found)]) entry) :
    Visited base basepath calls entry ∨
      ∃ name ∈ found, entry = entryBelow base basepath (names ++ [name]) := by
  obtain ⟨above, name, listed, hlisted, hname, rfl⟩ := h
  obtain hlisted | hlisted := List.mem_append.1 hlisted
  · exact .inl ⟨above, name, listed, hlisted, hname, rfl⟩
  · obtain ⟨hpath, hfound⟩ := Call.list.inj (List.mem_singleton.1 hlisted)
    obtain rfl : above = names := List.append_cancel_left (congrArg Path.names hpath)
    obtain rfl : listed = found := Except.ok.inj hfound
    exact .inr ⟨name, hname, rfl⟩

/-! ## Which calls are warranted -/

theorem AllWarranted.append (h : AllWarranted base basepath bottomUp followLinks past calls)
    (hmade : AllWarranted base basepath bottomUp followLinks (past ++ calls) made) :
    AllWarranted base basepath bottomUp followLinks past (calls ++ made) := by
  intro before call after heq
  obtain ⟨inner, rfl, hinner⟩ | ⟨inner, rfl, hinner⟩ := List.append_eq_append_iff.1 heq
  · rw [← List.append_assoc]
    exact hmade inner call after hinner
  · cases inner with
    | nil => simpa using hmade [] call after hinner.symm
    | cons first inner =>
        obtain ⟨rfl, rfl⟩ := List.cons.inj hinner
        exact h before call inner rfl

theorem allWarranted_nil : AllWarranted base basepath bottomUp followLinks past [] := by
  intro before call after heq
  cases before with
  | nil | cons _ _ => cases heq

theorem allWarranted_singleton {call : Call}
    (h : call.IsWarranted base basepath bottomUp followLinks past) :
    AllWarranted base basepath bottomUp followLinks past [call] := by
  intro before other after heq
  cases before with
  | nil =>
      cases heq
      rwa [List.append_nil]
  | cons first before =>
      have hnil : before ++ other :: after = [] := (List.cons.inj heq).2.symm
      exact absurd hnil (by simp)

theorem Examines.allWarranted {path : Path} (h : Examines path made)
    (hentry : entry.path = path) (hvisited : Visited base basepath past entry)
    (hdecided : bottomUp = false → Decided past entry) :
    AllWarranted base basepath bottomUp followLinks past made := by
  rintro before call after rfl
  obtain ⟨follow, status, rfl⟩ := h.2 call (by simp)
  refine ⟨entry, hentry, hvisited.mono (List.subset_append_left _ _), fun htop => ?_⟩
  obtain ⟨answer, hanswer⟩ := hdecided htop
  exact ⟨answer, List.mem_append_left _ hanswer⟩

theorem Enquires.allWarranted {result : Except Failure Bool}
    (h : Enquires followLinks entry result made) (hvisited : Visited base basepath past entry)
    (hdecided : bottomUp = false → Decided past entry) :
    AllWarranted base basepath bottomUp followLinks past made := by
  cases h with
  | examined _ hexamines => exact hexamines.allWarranted rfl hvisited hdecided
  | asked hshows =>
      refine (hshows.examines.allWarranted rfl hvisited hdecided).append ?_
      exact allWarranted_singleton ⟨past, _, rfl, hvisited, hshows⟩

/-! ## The first task -/

theorem Mark.canMake_accept (answer : Except Failure Bool) (hstands : mark.Stands base basepath)
    (h : mark.task.WillDecide entry) : mark.CanMake base (.accept entry answer) := by
  obtain ⟨task, names⟩ := mark
  cases task with
  | enter _ _ | descend _ => exact h.elim
  | visit other =>
      obtain rfl : other = entry := h
      exact ⟨names, congrArg Entry.path hstands, List.prefix_rfl⟩
  | report other =>
      obtain rfl : other = entry := h
      exact ⟨names, congrArg Entry.path hstands, rfl⟩

theorem Mark.canMake_mayDescend (answer : Except Failure Bool)
    (hstands : mark.Stands base basepath) (h : mark.task.WillExamine entry) :
    mark.CanMake base (.mayDescend entry answer) := by
  obtain ⟨task, names⟩ := mark
  cases task with
  | enter _ _ | report _ => exact h.elim
  | visit other | descend other =>
      obtain rfl : other = entry := h
      exact ⟨names, congrArg Entry.path hstands, List.prefix_rfl⟩

variable {task : Task} {tasks : List Task}

theorem Arranged.decided_of_descend
    (h : Arranged base basepath false (mark :: marks) calls)
    (hgrounded : Grounded base basepath followLinks ((mark :: marks).map Mark.task) calls)
    (htask : mark.task = .descend entry) : Decided calls entry := by
  have hvisited := hgrounded.visited mark.task List.mem_cons_self (by rw [htask]; rfl)
  rw [htask] at hvisited
  by_contra hnone
  have hpending := (hgrounded.decided entry hvisited).resolve_left hnone
  obtain ⟨other, hother, hlater⟩ : ∃ other ∈ marks, other.task.WillDecide entry := by
    simpa [htask, Task.WillDecide] using hpending
  obtain ⟨hmark, hmarks⟩ := List.forall_mem_cons.1 h.stands
  have hbefore := (List.pairwise_cons.1 h.apart).1 other hother _ _
    (Mark.canMake_mayDescend (.ok true) hmark (by rw [htask]; rfl))
    (Mark.canMake_accept (.ok true) (hmarks other hother) hlater)
  exact List.lt_irrefl _ (hbefore.topDown rfl rfl)

theorem Arranged.examined_of_report
    (h : Arranged base basepath true (mark :: marks) calls)
    (hgrounded : Grounded base basepath followLinks ((mark :: marks).map Mark.task) calls)
    (htask : mark.task = .report entry) : Examined calls entry := by
  have hvisited := hgrounded.visited mark.task List.mem_cons_self (by rw [htask]; rfl)
  rw [htask] at hvisited
  by_contra hnone
  have hpending := (hgrounded.examined entry hvisited).resolve_left hnone
  obtain ⟨other, hother, hlater⟩ : ∃ other ∈ marks, other.task.WillExamine entry := by
    simpa [htask, Task.WillExamine] using hpending
  obtain ⟨hmark, hmarks⟩ := List.forall_mem_cons.1 h.stands
  have hbefore := (List.pairwise_cons.1 h.apart).1 other hother _ _
    (Mark.canMake_accept (.ok true) hmark (by rw [htask]; rfl))
    (Mark.canMake_mayDescend (.ok true) (hmarks other hother) hlater)
  exact hbefore.bottomUp rfl rfl List.prefix_rfl

theorem Makes.allWarranted {result : Except Failure (Option Entry × List Task)}
    (h : Makes bottomUp followLinks mark.task made result)
    (harranged : Arranged base basepath bottomUp (mark :: marks) calls)
    (hgrounded : Grounded base basepath followLinks ((mark :: marks).map Mark.task) calls) :
    AllWarranted base basepath bottomUp followLinks calls made := by
  obtain ⟨task, names⟩ := mark
  cases h with
  | enter | lose | refuse => exact allWarranted_singleton (hgrounded.invited _ _ rfl)
  | visit => exact allWarranted_nil
  | descend henquires =>
      refine henquires.allWarranted (hgrounded.visited _ List.mem_cons_self rfl) fun htop => ?_
      subst htop
      exact harranged.decided_of_descend hgrounded rfl
  | report =>
      refine allWarranted_singleton ⟨hgrounded.visited _ List.mem_cons_self rfl, fun hlast => ?_⟩
      subst hlast
      exact harranged.examined_of_report hgrounded rfl

theorem Enquires.not_list {result : Except Failure Bool}
    (h : Enquires followLinks entry result made) :
    ∀ call ∈ made, ∀ directory found, call ≠ .list directory (.ok found) := by
  rintro call hcall directory found rfl
  obtain ⟨-, hlisted, -⟩ := h.call_spec _ hcall
  cases hlisted

theorem done_or_will {rest : List Task} {done : List Call → Prop} {will : Task → Prop}
    (hmono : ∀ {before after : List Call}, done before → before ⊆ after → done after)
    (h : done calls ∨ ∃ following ∈ task :: rest, will following)
    (hfirst : will task → done made ∨ ∃ following ∈ tasks, will following) :
    done (calls ++ made) ∨ ∃ following ∈ tasks ++ rest, will following := by
  obtain hdone | ⟨other, hother, hwill⟩ := h
  · exact .inl (hmono hdone (List.subset_append_left _ _))
  obtain rfl | hother := List.mem_cons.1 hother
  · obtain hdone | ⟨following, hfollowing, hlater⟩ := hfirst hwill
    · exact .inl (hmono hdone (List.subset_append_right _ _))
    · exact .inr ⟨following, List.mem_append_left _ hfollowing, hlater⟩
  · exact .inr ⟨other, List.mem_append_right _ hother, hwill⟩

/-- Tasks take the place of the first one.  Of each visited entry, what was known is still known,
and what the first task would have brought to light is known now or will be. -/
theorem Grounded.replace {rest : List Task}
    (h : Grounded base basepath followLinks (task :: rest) calls)
    (hinvited : ∀ directory relative, tasks.head? = some (.enter directory relative) →
      Invites base basepath followLinks (calls ++ made) directory)
    (henters : ∀ following ∈ tasks.tail, following.isEnter = false)
    (hvisited : ∀ following ∈ tasks, following.isEnter = false →
      Visited base basepath (calls ++ made) following.entry)
    (hknown : ∀ entry, Visited base basepath (calls ++ made) entry →
      Visited base basepath calls entry ∨
        ∃ following ∈ tasks, following.WillDecide entry ∧ following.WillExamine entry)
    (hdecided : ∀ entry, task.WillDecide entry →
      Decided made entry ∨ ∃ following ∈ tasks, following.WillDecide entry)
    (hexamined : ∀ entry, task.WillExamine entry →
      Examined made entry ∨ ∃ following ∈ tasks, following.WillExamine entry) :
    Grounded base basepath followLinks (tasks ++ rest) (calls ++ made) where
  invited directory relative hhead := by
    cases tasks with
    | nil =>
        have hrest := h.entersFirst _ (List.mem_of_mem_head? hhead)
        cases hrest
    | cons first others => exact hinvited directory relative hhead
  entersFirst := by
    cases tasks with
    | nil => exact fun following hfollowing => h.entersFirst _ (List.mem_of_mem_tail hfollowing)
    | cons first others => exact List.forall_mem_append.2 ⟨henters, h.entersFirst⟩
  visited := by
    refine List.forall_mem_append.2 ⟨hvisited, fun following hfollowing henter => ?_⟩
    have hbefore := h.visited following (List.mem_cons_of_mem _ hfollowing) henter
    exact hbefore.mono (List.subset_append_left _ _)
  decided entry hentry := by
    obtain hbefore | ⟨following, hfollowing, hwill, -⟩ := hknown entry hentry
    · exact done_or_will Decided.mono (h.decided entry hbefore) (hdecided entry)
    · exact .inr ⟨following, List.mem_append_left _ hfollowing, hwill⟩
  examined entry hentry := by
    obtain hbefore | ⟨following, hfollowing, -, hwill⟩ := hknown entry hentry
    · exact done_or_will Examined.mono (h.examined entry hbefore) (hexamined entry)
    · exact .inr ⟨following, List.mem_append_left _ hfollowing, hwill⟩

theorem Grounded.drop {rest : List Task}
    (h : Grounded base basepath followLinks (task :: rest) calls)
    (hmade : ∀ call ∈ made, ∀ directory found, call ≠ .list directory (.ok found))
    (hdecided : ∀ entry, task.WillDecide entry → Decided made entry)
    (hexamined : ∀ entry, task.WillExamine entry → Examined made entry) :
    Grounded base basepath followLinks rest (calls ++ made) := by
  rw [← List.nil_append rest]
  refine h.replace (by simp) (by simp) (by simp) (fun entry hentry => ?_) ?_ ?_
  · exact .inl ((visited_append_iff hmade).1 hentry)
  · exact fun entry hwill => .inl (hdecided entry hwill)
  · exact fun entry hwill => .inl (hexamined entry hwill)

/-! ## Each kind of task -/

variable {rest : List Task}

theorem Grounded.after_enter {names listed : List String}
    (hlisted : ∀ name ∈ listed, IsEntryName name)
    (h : Grounded base basepath followLinks
      (.enter (base.below names) (relativeOf basepath names) :: rest) calls) :
    Grounded base basepath followLinks
      ((sortNames listed).map (fun name =>
        .visit (entryOf (base.below names) (relativeOf basepath names) name)) ++ rest)
      (calls ++ [.list (base.below names) (.ok listed)]) := by
  have hvisits : ((sortNames listed).map fun name => Task.visit
      (entryOf (base.below names) (relativeOf basepath names) name)) =
        (sortNames listed).map fun name =>
          .visit (entryBelow base basepath (names ++ [name])) := by
    rw [← map_task_visitsOf hlisted, visitsOf, List.map_map]
    rfl
  rw [hvisits]
  refine h.replace ?_ ?_ ?_ (fun other hother => ?_) (by simp [Task.WillDecide])
    (by simp [Task.WillExamine])
  · simp
  · intro following hfollowing
    obtain ⟨name, -, rfl⟩ := List.mem_map.1 (List.mem_of_mem_tail hfollowing)
    rfl
  · rw [List.forall_mem_map]
    intro name hname _
    exact ⟨names, name, listed, by simp, List.mem_mergeSort.1 hname, rfl⟩
  · refine hother.of_append_list.imp_right ?_
    rintro ⟨name, hname, rfl⟩
    exact ⟨_, List.mem_map_of_mem (List.mem_mergeSort.2 hname), rfl, rfl⟩

theorem Grounded.after_lose {directory : Path} {relative : String} {failure : Failure}
    (h : Grounded base basepath followLinks (.enter directory relative :: rest) calls) :
    Grounded base basepath followLinks rest (calls ++ [.list directory (.error failure)]) :=
  h.drop (by simp) (by simp [Task.WillDecide]) (by simp [Task.WillExamine])

theorem Grounded.after_visit (hboth : tasks.Perm [.descend entry, .report entry])
    (h : Grounded base basepath followLinks (.visit entry :: rest) calls) :
    Grounded base basepath followLinks (tasks ++ rest) calls := by
  have hmem (following : Task) :
      following ∈ tasks ↔ following = .descend entry ∨ following = .report entry := by
    simpa using hboth.mem_iff
  have hdescend := (hmem (.descend entry)).2 (.inl rfl)
  have hreport := (hmem (.report entry)).2 (.inr rfl)
  have henter : ∀ following ∈ tasks, following.isEnter = false ∧ following.entry = entry := by
    intro following hfollowing
    obtain rfl | rfl := (hmem following).1 hfollowing
    · exact ⟨rfl, rfl⟩
    · exact ⟨rfl, rfl⟩
  rw [← List.append_nil calls]
  refine h.replace (fun directory relative hhead => ?_) (fun following hfollowing => ?_)
    (fun following hfollowing _ => ?_) (fun other hother => .inl ?_)
    (fun other hwill => .inr ⟨_, hreport, hwill⟩) (fun other hwill => .inr ⟨_, hdescend, hwill⟩)
  · cases (henter _ (List.mem_of_mem_head? hhead)).1
  · exact (henter following (List.mem_of_mem_tail hfollowing)).1
  · rw [List.append_nil, (henter following hfollowing).2]
    exact h.visited _ List.mem_cons_self rfl
  · rwa [List.append_nil] at hother

theorem Grounded.after_descend {enters : Bool}
    (henquires : Enquires followLinks entry (.ok enters) made)
    (h : Grounded base basepath followLinks (.descend entry :: rest) calls) :
    Grounded base basepath followLinks
      ((if enters then [.enter entry.path entry.relative] else []) ++ rest) (calls ++ made) := by
  refine h.replace (fun directory relative hhead => ?_) ?_ ?_
    (fun other hother => .inl ((visited_append_iff henquires.not_list).1 hother))
    (by simp [Task.WillDecide]) ?_
  · cases enters with
    | false => cases hhead
    | true =>
        cases hhead
        exact henquires.invites (h.visited _ List.mem_cons_self rfl)
  · cases enters with
    | true | false => simp
  · cases enters with
    | true | false => simp [Task.isEnter]
  · rintro other rfl
    exact .inl (Examined.of_enquires henquires)

theorem Grounded.after_report {answer : Except Failure Bool}
    (h : Grounded base basepath followLinks (.report entry :: rest) calls) :
    Grounded base basepath followLinks rest (calls ++ [.accept entry answer]) := by
  refine h.drop (by simp) ?_ (by simp [Task.WillExamine])
  rintro other rfl
  exact ⟨answer, List.mem_singleton_self _⟩

theorem Makes.grounded {found : Option Entry} (rest : List Task)
    (h : Makes bottomUp followLinks mark.task made (.ok (found, tasks)))
    (hstands : mark.Stands base basepath)
    (hgrounded : Grounded base basepath followLinks (mark.task :: rest) calls) :
    Grounded base basepath followLinks (tasks ++ rest) (calls ++ made) := by
  obtain ⟨task, names⟩ := mark
  have hentry : task.entry = entryBelow base basepath names := hstands
  generalize hresult : Except.ok (found, tasks) = result at h
  cases h with
  | @enter directory relative listed hnodup hlisted =>
      cases hresult
      obtain ⟨rfl, rfl⟩ : directory = base.below names ∧ relative = relativeOf basepath names :=
        Entry.mk.inj hentry
      exact hgrounded.after_enter hlisted
  | lose =>
      cases hresult
      exact hgrounded.after_lose
  | refuse => cases hresult
  | @visit entry =>
      rw [List.append_nil]
      refine hgrounded.after_visit ?_
      cases bottomUp with
      | true =>
          cases hresult
          exact .refl _
      | false =>
          cases hresult
          exact .swap _ _ _
  | @descend entry answer _ henquires =>
      cases answer with
      | error failure => cases hresult
      | ok enters =>
          cases hresult
          exact hgrounded.after_descend henquires
  | @report entry answer =>
      cases answer with
      | error failure => cases hresult
      | ok accepted =>
          cases hresult
          exact hgrounded.after_report

/-! ## The order of all calls -/

theorem Trace.arranged {stack : List Task} {outcome : Except Failure (List Task)}
    (h : Trace bottomUp followLinks stack made outcome)
    (hstack : marks.map Mark.task = stack)
    (harranged : Arranged base basepath bottomUp marks calls)
    (hgrounded : Grounded base basepath followLinks stack calls)
    (hwarranted : AllWarranted base basepath bottomUp followLinks [] calls) :
    (calls ++ made).Pairwise (Call.IsBefore bottomUp) ∧
      AllWarranted base basepath bottomUp followLinks [] (calls ++ made) ∧
      ∀ rest, outcome = .ok rest →
        Grounded base basepath followLinks rest (calls ++ made) := by
  induction h generalizing marks calls with
  | pause =>
      rw [List.append_nil]
      refine ⟨harranged.ordered, hwarranted, ?_⟩
      rintro _ ⟨⟩
      exact hgrounded
  | @fail task rest made failure hmakes =>
      obtain ⟨⟨first, names⟩, others, rfl, rfl, rfl⟩ := List.map_eq_cons_iff.1 hstack
      obtain ⟨parts, -, hparts, hdivides⟩ :=
        hmakes.divides (harranged.stands _ List.mem_cons_self)
      refine ⟨(harranged.step hparts hdivides).ordered, ?_, by simp⟩
      exact hwarranted.append (hmakes.allWarranted harranged hgrounded)
  | @step task tasks rest made more found outcome hmakes _ ih =>
      obtain ⟨⟨first, names⟩, others, rfl, rfl, rfl⟩ := List.map_eq_cons_iff.1 hstack
      have hstands := harranged.stands _ List.mem_cons_self
      obtain ⟨parts, hparts, hstand, hdivides⟩ := hmakes.divides hstands
      obtain rfl := hparts _ _ rfl
      rw [← List.append_assoc]
      exact ih (by simp) (harranged.step hstand hdivides)
        (hmakes.grounded _ hstands hgrounded)
        (hwarranted.append (hmakes.allWarranted harranged hgrounded))

theorem callOrder_of_pairwise (h : calls.Pairwise (Call.IsBefore bottomUp))
    (hwarranted : AllWarranted base basepath bottomUp followLinks [] calls) :
    CallOrder base basepath bottomUp followLinks calls where
  listedOnce := by
    refine List.pairwise_filterMap.2 (h.imp ?_)
    rintro call later hbefore directory hcall _ hlater rfl
    exact hbefore.listed directory hcall hlater
  acceptedOnce := by
    refine List.pairwise_map.2 (List.pairwise_filterMap.2 (h.imp ?_))
    intro call later hbefore entry hcall other hlater heq
    rw [← Call.path_of_accepted? hcall, ← Call.path_of_accepted? hlater] at heq
    cases bottomUp with
    | false =>
        have hlt := hbefore.topDown rfl (by simp [hlater])
        rw [heq] at hlt
        exact List.lt_irrefl _ hlt
    | true =>
        have hapart := hbefore.bottomUp rfl (by simp [hcall])
        rw [heq] at hapart
        exact hapart List.prefix_rfl
  warranted before call after heq := by simpa using hwarranted before call after heq
  acceptedFirst htop := by
    refine h.imp ?_
    rintro call later hbefore entry hlater ⟨names, hpath⟩
    have hlt := hbefore.topDown htop (by simp [hlater])
    rw [Call.path_of_accepted? hlater, hpath] at hlt
    exact not_append_lt hlt
  acceptedLast hlast := by
    refine h.imp ?_
    rintro call later hbefore entry hcall ⟨names, hpath⟩
    have hapart := hbefore.bottomUp hlast (by simp [hcall])
    rw [Call.path_of_accepted? hcall, hpath] at hapart
    exact hapart (List.prefix_append _ _)
  listedBefore htop := by
    refine h.imp ?_
    intro call later hbefore directory entry hcall hlater
    rw [← Call.path_of_listed? hcall, ← Call.path_of_accepted? hlater]
    exact hbefore.topDown htop (by simp [hlater])

theorem Trace.callOrder {outcome : Except Failure (List Task)}
    (h : Trace bottomUp followLinks (start base basepath) calls outcome) :
    CallOrder base basepath bottomUp followLinks calls ∧
      (outcome = .ok [] → ∀ entry, Visited base basepath calls entry → Decided calls entry) := by
  have hstands : Mark.Stands base basepath ⟨.enter base basepath, []⟩ := by
    show (⟨base, basepath⟩ : Entry) = ⟨base.below [], relativeOf basepath []⟩
    rw [below_nil]
    rfl
  have harranged : Arranged base basepath bottomUp [⟨.enter base basepath, []⟩] [] :=
    ⟨by simpa using hstands, List.pairwise_singleton _ _, by simp, .nil⟩
  have hgrounded : Grounded base basepath followLinks (start base basepath) [] := by
    refine ⟨?_, by simp [start], by simp [start, Task.isEnter], ?_, ?_⟩
    · rintro _ _ ⟨⟩
      exact .base
    · rintro _ ⟨above, name, found, ⟨⟩, -⟩
    · rintro _ ⟨above, name, found, ⟨⟩, -⟩
  obtain ⟨hordered, hwarranted, hrest⟩ := h.arranged rfl harranged hgrounded allWarranted_nil
  refine ⟨callOrder_of_pairwise hordered hwarranted, ?_⟩
  rintro rfl entry hentry
  simpa using (hrest [] rfl).decided entry hentry

end

end Walk

end FileSelection
