import FileSelection.Proofs.Sequence.Settings
import FileSelection.Proofs.Walk.Calls
import FileSelection.Proofs.Walk.Containment

/-!
# The order of calls

Whatever happens meanwhile, an iteration makes its calls in a fixed order: a directory is listed
right after it was examined and the walk has decided to go into it, and each visited entry is
accepted or not before all calls about it and what lies below it, or bottom-up after them.  Each
task divides what it can call: what it calls itself comes before what the tasks in its place can.
-/

namespace FileSelection

open FileSelection.Path

def Path.Holds (above path : Path) : Prop := ∃ names, path = above.below names

namespace Walk

namespace Call

def path : Call → Path
  | .list path _ | .examine _ path _ => path
  | .accept entry _ | .mayDescend entry _ => entry.path

def listed? : Call → Option Path
  | .list directory _ => some directory
  | .examine _ _ _ | .accept _ _ | .mayDescend _ _ => none

def accepted? : Call → Option Entry
  | .accept entry _ => some entry
  | .list _ _ | .examine _ _ _ | .mayDescend _ _ => none

end Call

/-! ## What has to come before a call -/

def entryBelow (base : Path) (basepath : String) (names : List String) : Entry :=
  ⟨base.below names, relativeOf basepath names⟩

section

variable (base : Path) (basepath : String)

/-- The directory of the entry was listed, and the name of the entry was among its names. -/
def Visited (calls : List Call) (entry : Entry) : Prop :=
  ∃ above name found, .list (base.below above) (.ok found) ∈ calls ∧ name ∈ found ∧
    entry = entryBelow base basepath (above ++ [name])

def Decided (calls : List Call) (entry : Entry) : Prop := ∃ answer, .accept entry answer ∈ calls

def Examined (calls : List Call) (entry : Entry) : Prop :=
  ∃ follow status, .examine follow entry.path status ∈ calls

/-- Nothing was called before the base is listed; any other directory belongs to a visited entry
that was just examined and found to be a directory, and that the walk has just decided to enter. -/
inductive Invites (followLinks : Bool) : List Call → Path → Prop
  | base : Invites followLinks [] base
  | entry {earlier tests : List Call} {entry : Entry} : Visited base basepath earlier entry →
      ShowsDirectory entry.path followLinks tests →
        Invites followLinks (earlier ++ tests ++ [.mayDescend entry (.ok true)]) entry.path

def Call.IsWarranted (bottomUp followLinks : Bool) (before : List Call) : Call → Prop
  | .list directory _ => Invites base basepath followLinks before directory
  | .examine _ path _ => ∃ entry, entry.path = path ∧ Visited base basepath before entry ∧
      (bottomUp = false → Decided before entry)
  | .mayDescend entry _ => ∃ earlier tests, before = earlier ++ tests ∧
      Visited base basepath earlier entry ∧ ShowsDirectory entry.path followLinks tests
  | .accept entry _ => Visited base basepath before entry ∧
      (bottomUp = true → Examined before entry)

/-- The order in which an iteration makes its calls. -/
structure CallOrder (bottomUp followLinks : Bool) (calls : List Call) : Prop where
  listedOnce : (calls.filterMap Call.listed?).Nodup
  acceptedOnce : ((calls.filterMap Call.accepted?).map Entry.path).Nodup
  warranted : ∀ before call after, calls = before ++ call :: after →
    call.IsWarranted base basepath bottomUp followLinks before
  /-- Top-down, nothing is called about an entry or what lies below it before that. -/
  acceptedFirst : bottomUp = false → calls.Pairwise fun call later =>
    ∀ entry, later.accepted? = some entry → ¬ entry.path.Holds call.path
  /-- Bottom-up, nothing is called about them any more after that. -/
  acceptedLast : bottomUp = true → calls.Pairwise fun call later =>
    ∀ entry, call.accepted? = some entry → ¬ entry.path.Holds later.path
  /-- Top-down, what is listed by then comes before the entry in the order of the names. -/
  listedBefore : bottomUp = false → calls.Pairwise fun call later =>
    ∀ directory entry, call.listed? = some directory → later.accepted? = some entry →
      directory.names < entry.path.names

end

section

variable {calls more : List Call} {entry : Entry}

theorem Decided.mono (h : Decided calls entry) (hmore : calls ⊆ more) :
    Decided more entry := by
  obtain ⟨answer, hanswer⟩ := h
  exact ⟨answer, hmore hanswer⟩

theorem Examined.mono (h : Examined calls entry) (hmore : calls ⊆ more) :
    Examined more entry := by
  obtain ⟨follow, status, hstatus⟩ := h
  exact ⟨follow, status, hmore hstatus⟩

end

/-! ## Earlier and later calls -/

structure Call.IsBefore (bottomUp : Bool) (call later : Call) : Prop where
  listed : ∀ directory, call.listed? = some directory → later.listed? ≠ some directory
  topDown : bottomUp = false → later.accepted?.isSome → call.path.names < later.path.names
  bottomUp : bottomUp = true → call.accepted?.isSome → ¬ call.path.names <+: later.path.names

def Mark.CanMake (base : Path) (mark : Mark) (call : Call) : Prop :=
  ∃ names, call.path = base.below names ∧
    if call.accepted?.isSome then mark.CanReport names else mark.Covers names

/-- All that one task can call comes before all that another one can. -/
def Mark.IsAhead (base : Path) (bottomUp : Bool) (first second : Mark) : Prop :=
  ∀ call later, first.CanMake base call → second.CanMake base later → call.IsBefore bottomUp later

section

variable {base : Path} {basepath : String} {bottomUp followLinks : Bool}
  {names others : List String} {call later : Call}

theorem Call.path_of_listed? {directory : Path} (h : call.listed? = some directory) :
    call.path = directory := by
  cases call with
  | list path _ => exact Option.some.inj h
  | examine _ _ _ | accept _ _ | mayDescend _ _ => cases h

theorem Call.path_of_accepted? {entry : Entry} (h : call.accepted? = some entry) :
    call.path = entry.path := by
  cases call with
  | accept other _ => exact congrArg Entry.path (Option.some.inj h)
  | list _ _ | examine _ _ _ | mayDescend _ _ => cases h

theorem append_lt_append (above : List String) (h : names < others) :
    above ++ names < above ++ others := by
  induction above with
  | nil => exact h
  | cons name above ih => exact List.cons_lt_cons_iff.2 (.inr ⟨rfl, ih⟩)

theorem not_append_lt : ¬ names ++ others < names := by
  cases others with
  | nil =>
      rw [List.append_nil]
      exact List.lt_irrefl names
  | cons name others => exact List.lt_asymm (lt_append (List.cons_ne_nil name others))

theorem Call.isBefore_of_below (hcall : call.path = base.below names)
    (hlater : later.path = base.below others)
    (hlisted : call.listed?.isSome → later.listed?.isSome → names ≠ others)
    (htop : bottomUp = false → later.accepted?.isSome → names < others)
    (hbottom : bottomUp = true → call.accepted?.isSome → ¬ names <+: others) :
    call.IsBefore bottomUp later where
  listed directory hfirst hsecond := by
    have hsame : base.below names = base.below others := by
      rw [← hcall, ← hlater, path_of_listed? hfirst, path_of_listed? hsecond]
    refine hlisted (by simp [hfirst]) (by simp [hsecond]) ?_
    exact List.append_cancel_left (congrArg Path.names hsame)
  topDown hbottomUp haccepted := by
    rw [hcall, hlater]
    exact append_lt_append base.names (htop hbottomUp haccepted)
  bottomUp hbottomUp haccepted := by
    rw [hcall, hlater]
    exact fun h => hbottom hbottomUp haccepted ((List.prefix_append_right_inj base.names).1 h)

end

/-! ## How a task divides what can be called -/

/-- What a task has called comes before all that its parts can call, which follow one another. -/
structure Mark.Divides (base : Path) (bottomUp : Bool) (whole : Mark) (made : List Call)
    (parts : List Mark) : Prop where
  mayCall : ∀ call ∈ made, whole.CanMake base call
  within : ∀ part ∈ parts, ∀ call, part.CanMake base call → whole.CanMake base call
  ordered : made.Pairwise (Call.IsBefore bottomUp)
  ahead : ∀ call ∈ made, ∀ part ∈ parts, ∀ later, part.CanMake base later →
    call.IsBefore bottomUp later
  apart : parts.Pairwise (Mark.IsAhead base bottomUp)

def Task.entry : Task → Entry
  | .enter directory relative => ⟨directory, relative⟩
  | .visit entry | .descend entry | .report entry => entry

def Mark.Stands (base : Path) (basepath : String) (mark : Mark) : Prop :=
  mark.task.entry = entryBelow base basepath mark.names

section

variable {base : Path} {basepath : String} {bottomUp followLinks : Bool} {names : List String}
  {entry : Entry}

theorem entryOf_entryBelow {name : String} (hname : IsEntryName name) :
    entryOf (base.below names) (relativeOf basepath names) name =
      entryBelow base basepath (names ++ [name]) := by
  unfold entryOf entryBelow
  rw [below_append_singleton hname.toIsName hname.notSelf, relativeOf_append_singleton]

def visitsOf (base : Path) (basepath : String) (names found : List String) : List Mark :=
  (sortNames found).map fun name =>
    ⟨.visit (entryBelow base basepath (names ++ [name])), names ++ [name]⟩

theorem map_task_visitsOf {found : List String} (hfound : ∀ name ∈ found, IsEntryName name) :
    (visitsOf base basepath names found).map Mark.task =
      (sortNames found).map fun name =>
        .visit (entryOf (base.below names) (relativeOf basepath names) name) := by
  unfold visitsOf
  rw [List.map_map]
  refine List.map_congr_left fun name hname => ?_
  rw [entryOf_entryBelow (hfound name (List.mem_mergeSort.1 hname))]
  rfl

theorem Mark.isAhead_beside {first second : Mark} {a b : String} (hab : a < b)
    (hfirst : ∀ call, first.CanMake base call →
      ∃ below, call.path = base.below (names ++ a :: below))
    (hsecond : ∀ call, second.CanMake base call →
      ∃ below, call.path = base.below (names ++ b :: below)) :
    first.IsAhead base bottomUp second := by
  intro call later hcall hlater
  obtain ⟨below, hpath⟩ := hfirst call hcall
  obtain ⟨below', hpath'⟩ := hsecond later hlater
  have hlt : names ++ a :: below < names ++ b :: below' := append_cons_lt_append_cons hab
  have hapart : ¬ names ++ a :: below <+: names ++ b :: below' := fun h => by
    obtain ⟨rfl, -⟩ := List.cons_prefix_cons.1 ((List.prefix_append_right_inj names).1 h)
    exact String.lt_irrefl a hab
  exact Call.isBefore_of_below hpath hpath' (fun _ _ heq => hapart (heq ▸ List.prefix_rfl))
    (fun _ _ => hlt) fun _ _ => hapart

theorem Mark.divides_enter {directory : Path} {relative : String}
    {listed : Except Failure (List String)}
    (hdirectory : directory = base.below names) (found : List String) (hfound : found.Nodup) :
    Mark.Divides base bottomUp ⟨.enter directory relative, names⟩ [.list directory listed]
      (visitsOf base basepath names found) := by
  have hbelow {name : String} {call : Call}
      (h : Mark.CanMake base
        ⟨.visit (entryBelow base basepath (names ++ [name])), names ++ [name]⟩ call) :
      ∃ below, call.path = base.below (names ++ name :: below) := by
    obtain ⟨others, hpath, hcan⟩ := h
    have hprefix : names ++ [name] <+: others := by
      split at hcan
      · exact hcan
      · exact hcan
    obtain ⟨below, rfl⟩ := hprefix
    exact ⟨below, by simpa using hpath⟩
  refine ⟨?_, ?_, List.pairwise_singleton _ _, ?_, ?_⟩
  · rw [List.forall_mem_singleton]
    exact ⟨names, hdirectory, List.prefix_rfl⟩
  · unfold visitsOf
    rw [List.forall_mem_map]
    intro name _ call hcall
    obtain ⟨below, hpath⟩ := hbelow hcall
    refine ⟨_, hpath, ?_⟩
    split
    · exact ⟨name :: below, by simp, rfl⟩
    · exact List.prefix_append _ _
  · rw [List.forall_mem_singleton]
    unfold visitsOf
    rw [List.forall_mem_map]
    intro name _ later hlater
    obtain ⟨below, hpath⟩ := hbelow hlater
    have hlt : names < names ++ name :: below := lt_append (by simp)
    have hne : names ≠ names ++ name :: below := by simp
    exact Call.isBefore_of_below hdirectory hpath (fun _ _ => hne) (fun _ _ => hlt)
      fun _ h => by cases h
  · unfold visitsOf
    rw [List.pairwise_map]
    exact (pairwise_sortNames hfound).imp fun hab =>
      Mark.isAhead_beside hab (fun _ => hbelow) fun _ => hbelow

theorem Mark.divides_visit :
    Mark.Divides base bottomUp ⟨.visit entry, names⟩ []
      (if bottomUp then [⟨.descend entry, names⟩, ⟨.report entry, names⟩]
        else [⟨.report entry, names⟩, ⟨.descend entry, names⟩]) := by
  have hdescend : ∀ call, Mark.CanMake base ⟨.descend entry, names⟩ call →
      Mark.CanMake base ⟨.visit entry, names⟩ call := by
    rintro call ⟨others, hpath, hcan⟩
    refine ⟨others, hpath, ?_⟩
    split at hcan
    · obtain ⟨below, -, rfl⟩ := hcan
      rw [if_pos ‹_›]
      exact List.prefix_append _ _
    · rw [if_neg ‹_›]
      exact hcan
  have hreport {call : Call} (h : Mark.CanMake base ⟨.report entry, names⟩ call) :
      call.accepted?.isSome ∧ call.path = base.below names := by
    obtain ⟨others, hpath, hcan⟩ := h
    split at hcan
    · obtain rfl : others = names := hcan
      exact ⟨‹_›, hpath⟩
    · exact hcan.elim
  have hreport' : ∀ call, Mark.CanMake base ⟨.report entry, names⟩ call →
      Mark.CanMake base ⟨.visit entry, names⟩ call := by
    intro call hcall
    obtain ⟨haccepted, hpath⟩ := hreport hcall
    refine ⟨names, hpath, ?_⟩
    rw [if_pos haccepted]
    exact List.prefix_rfl
  have hnotListed {call : Call} (h : call.accepted?.isSome) : ¬ call.listed?.isSome := by
    cases call <;> simp_all [Call.accepted?, Call.listed?]
  cases bottomUp with
  | true =>
      refine ⟨by simp, by simpa using ⟨hdescend, hreport'⟩, .nil, by simp, List.pairwise_pair.2 ?_⟩
      rintro call later ⟨others, hpath, hcan⟩ hlater
      obtain ⟨haccepted, hpath'⟩ := hreport hlater
      refine Call.isBefore_of_below hpath hpath' (fun _ h => absurd h (hnotListed haccepted))
        (fun h => by cases h) fun _ haccepts => ?_
      rw [if_pos haccepts] at hcan
      obtain ⟨below, hne, rfl⟩ := hcan
      exact fun h => hne (List.append_right_eq_self.1 (h.eq_of_length_le (by simp)))
  | false =>
      refine ⟨by simp, by simpa using ⟨hreport', hdescend⟩, .nil, by simp, List.pairwise_pair.2 ?_⟩
      rintro call later hcall ⟨others, hpath', hcan⟩
      obtain ⟨haccepted, hpath⟩ := hreport hcall
      refine Call.isBefore_of_below hpath hpath' (fun h => absurd h (hnotListed haccepted))
        (fun _ haccepts => ?_) fun h => by cases h
      rw [if_pos haccepts] at hcan
      obtain ⟨below, hne, rfl⟩ := hcan
      exact lt_append hne

theorem Enquires.call_spec {result : Except Failure Bool} {calls : List Call}
    (h : Enquires followLinks entry result calls) :
    ∀ call ∈ calls, call.path = entry.path ∧ call.listed? = none ∧ call.accepted? = none := by
  have hexamines {tests : List Call} (htests : Examines entry.path tests) :
      ∀ call ∈ tests, call.path = entry.path ∧ call.listed? = none ∧ call.accepted? = none := by
    intro call hcall
    obtain ⟨follow, status, rfl⟩ := htests.2 call hcall
    exact ⟨rfl, rfl, rfl⟩
  cases h with
  | examined _ htests => exact hexamines htests
  | asked hshows =>
      refine List.forall_mem_append.2 ⟨hexamines hshows.examines, ?_⟩
      rw [List.forall_mem_singleton]
      exact ⟨rfl, rfl, rfl⟩

theorem Examines.examined {calls : List Call} (h : Examines entry.path calls) :
    Examined calls entry := by
  obtain ⟨call, hcall⟩ := List.exists_mem_of_ne_nil _ h.1
  obtain ⟨follow, status, rfl⟩ := h.2 call hcall
  exact ⟨follow, status, hcall⟩

theorem Examined.of_enquires {result : Except Failure Bool} {calls : List Call}
    (h : Enquires followLinks entry result calls) : Examined calls entry := by
  cases h with
  | examined _ htests => exact htests.examined
  | asked hshows => exact hshows.examines.examined.mono (List.subset_append_left _ _)

theorem Enquires.invites {made calls : List Call} (h : Enquires followLinks entry (.ok true) made)
    (hvisited : Visited base basepath calls entry) :
    Invites base basepath followLinks (calls ++ made) entry.path := by
  generalize hresult : Except.ok true = result at h
  cases h with
  | examined hne _ => exact absurd hresult.symm hne
  | asked hshows =>
      subst hresult
      rw [← List.append_assoc]
      exact .entry hvisited hshows

theorem Mark.divides_descend {calls : List Call} {parts : List Mark}
    (hentry : entry.path = base.below names)
    (hcalls : ∀ call ∈ calls, call.path = entry.path ∧ call.listed? = none ∧ call.accepted? = none)
    (hparts : parts = [] ∨ parts = [⟨.enter entry.path entry.relative, names⟩]) :
    Mark.Divides base bottomUp ⟨.descend entry, names⟩ calls parts := by
  have hwithin : ∀ part ∈ parts, part = ⟨.enter entry.path entry.relative, names⟩ := by
    obtain rfl | rfl := hparts
    · simp
    · simp
  refine ⟨fun call hcall => ?_, fun part hpart call hcan => ?_, ?_, ?_, ?_⟩
  · obtain ⟨hpath, -, haccepted⟩ := hcalls call hcall
    exact ⟨names, hpath.trans hentry, by simp [haccepted, Mark.Covers]⟩
  · obtain rfl := hwithin part hpart
    exact hcan
  · refine List.pairwise_of_forall_mem_list fun call hcall later hlater => ?_
    obtain ⟨hpath, hlisted, haccepted⟩ := hcalls call hcall
    obtain ⟨hpath', -, haccepted'⟩ := hcalls later hlater
    exact Call.isBefore_of_below (hpath.trans hentry) (hpath'.trans hentry) (by simp [hlisted])
      (by simp [haccepted']) (by simp [haccepted])
  · intro call hcall part hpart later hlater
    obtain rfl := hwithin part hpart
    obtain ⟨hpath, hlisted, haccepted⟩ := hcalls call hcall
    obtain ⟨others, hpath', hcan⟩ := hlater
    refine Call.isBefore_of_below (hpath.trans hentry) hpath' (by simp [hlisted])
      (fun _ haccepts => ?_) (by simp [haccepted])
    rw [if_pos haccepts] at hcan
    obtain ⟨below, hne, rfl⟩ := hcan
    exact lt_append hne
  · obtain rfl | rfl := hparts
    · exact .nil
    · exact List.pairwise_singleton _ _

theorem Mark.divides_report {answer : Except Failure Bool}
    (hentry : entry.path = base.below names) :
    Mark.Divides base bottomUp ⟨.report entry, names⟩ [.accept entry answer] [] := by
  refine ⟨?_, by simp, List.pairwise_singleton _ _, by simp, .nil⟩
  rw [List.forall_mem_singleton]
  exact ⟨names, hentry, rfl⟩

/-- What a task calls and the tasks that take its place divide what it could call. -/
theorem Makes.divides {task : Task} {made : List Call}
    {result : Except Failure (Option Entry × List Task)}
    (h : Makes bottomUp followLinks task made result)
    (hstands : Mark.Stands base basepath ⟨task, names⟩) :
    ∃ parts : List Mark,
      (∀ found tasks, result = .ok (found, tasks) → parts.map Mark.task = tasks) ∧
      (∀ part ∈ parts, part.Stands base basepath) ∧
      Mark.Divides base bottomUp ⟨task, names⟩ made parts := by
  have hpath : task.entry.path = base.below names := congrArg Entry.path hstands
  cases h with
  | @enter directory relative found hnodup hfound =>
      have hrelative : relative = relativeOf basepath names := congrArg Entry.relative hstands
      refine ⟨visitsOf base basepath names found, ?_, ?_, Mark.divides_enter hpath found hnodup⟩
      · rintro _ _ ⟨⟩
        rw [map_task_visitsOf hfound, hrelative, ← show directory = base.below names from hpath]
      · unfold visitsOf
        rw [List.forall_mem_map]
        exact fun name _ => rfl
  | @lose directory relative | @refuse directory relative =>
      have hdivides : ∀ listed, Mark.Divides base bottomUp ⟨.enter directory relative, names⟩
          [.list directory listed] (visitsOf base basepath names []) :=
        fun listed => Mark.divides_enter hpath [] .nil
      exact ⟨[], by simp [eq_comm], by simp, by simpa [visitsOf, sortNames] using hdivides _⟩
  | visit =>
      refine ⟨_, ?_, ?_, Mark.divides_visit⟩
      · rintro _ _ ⟨⟩
        cases bottomUp with
        | true => rfl
        | false => rfl
      · cases bottomUp with
        | true => exact List.forall_mem_cons.2 ⟨hstands, List.forall_mem_singleton.2 hstands⟩
        | false => exact List.forall_mem_cons.2 ⟨hstands, List.forall_mem_singleton.2 hstands⟩
  | @descend entry answer _ henquires =>
      have hdivides : ∀ {parts}, parts = [] ∨ parts = [⟨.enter entry.path entry.relative, names⟩] →
          Mark.Divides base bottomUp ⟨.descend entry, names⟩ made parts :=
        Mark.divides_descend hpath henquires.call_spec
      cases answer with
      | error failure => exact ⟨[], by simp [Except.map], by simp, hdivides (.inl rfl)⟩
      | ok enters =>
          cases enters with
          | true =>
              refine ⟨[⟨.enter entry.path entry.relative, names⟩], ?_, ?_, hdivides (.inr rfl)⟩
              · rintro _ _ ⟨⟩
                rfl
              · rw [List.forall_mem_singleton]
                exact hstands
          | false => exact ⟨[], by simp [Except.map, eq_comm], by simp, hdivides (.inl rfl)⟩
  | @report entry answer =>
      refine ⟨[], ?_, by simp, Mark.divides_report hpath⟩
      cases answer with
      | ok accepted => simp [Except.map, eq_comm]
      | error failure => simp [Except.map]

end

end Walk

end FileSelection
