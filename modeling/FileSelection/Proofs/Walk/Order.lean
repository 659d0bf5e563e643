import FileSelection.Proofs.Walk.Steps

/-!
# The order of a walk

The reported paths ascend, whatever happens to the file system meanwhile.  The tasks of a suspended
walk split what can still be reported into parts that follow one another, and each step splits the
first of these parts further.
-/

namespace FileSelection

open FileSelection.Path

/-- The order of reported paths: names are compared one by one, and a directory comes before what is
below it, or bottom-up after it. -/
def Precedes (bottomUp : Bool) (first second : List String) : Prop :=
  if bottomUp then (second <+: first ∧ second ≠ first) ∨ (first < second ∧ ¬ first <+: second)
  else first < second

section

variable {bottomUp : Bool} {names below first second : List String} {a b : String}

theorem lt_append {α : Type} [LT α] {front rest : List α} (hrest : rest ≠ []) :
    front < front ++ rest := by
  induction front with
  | nil =>
      obtain ⟨first, rest, rfl⟩ := List.exists_cons_of_ne_nil hrest
      exact List.nil_lt_cons first rest
  | cons first front ih => exact List.cons_lt_cons_iff.2 (.inr ⟨rfl, ih⟩)

theorem append_cons_lt_append_cons (h : a < b) : names ++ a :: first < names ++ b :: second := by
  induction names with
  | nil => exact List.cons_lt_cons_iff.2 (.inl h)
  | cons name names ih => exact List.cons_lt_cons_iff.2 (.inr ⟨rfl, ih⟩)

theorem not_precedes_self : ¬ Precedes bottomUp names names := by
  have hlt : ¬ names < names := List.lt_irrefl names
  cases bottomUp with
  | false => exact hlt
  | true =>
      rintro (⟨-, hne⟩ | ⟨hself, -⟩)
      · exact hne rfl
      · exact hlt hself

theorem nodup_of_ascends {named : List (List String)} (h : named.Pairwise (Precedes bottomUp)) :
    named.Nodup := by
  refine h.imp ?_
  rintro names _ hprecedes rfl
  exact not_precedes_self hprecedes

theorem precedes_above (hbelow : below ≠ []) : Precedes false names (names ++ below) :=
  lt_append hbelow

theorem precedes_below (hbelow : below ≠ []) : Precedes true (names ++ below) names :=
  .inl ⟨List.prefix_append _ _, by simpa using hbelow⟩

theorem precedes_beside (h : a < b) :
    Precedes bottomUp (names ++ a :: first) (names ++ b :: second) := by
  have hlt : names ++ a :: first < names ++ b :: second := append_cons_lt_append_cons h
  cases bottomUp with
  | false => exact hlt
  | true =>
      refine .inr ⟨hlt, fun hbelow => ?_⟩
      obtain ⟨rfl, -⟩ := List.cons_prefix_cons.1 ((List.prefix_append_right_inj names).1 hbelow)
      exact String.lt_irrefl a h

end

namespace Walk

theorem not_decide_lt_iff {a b : String} : (!decide (b < a)) = true ↔ a ≤ b := by
  rw [Bool.not_eq_true', decide_eq_false_iff_not]
  exact String.not_lt

theorem pairwise_sortNames {names : List String} (h : names.Nodup) :
    (sortNames names).Pairwise (· < ·) := by
  have hle : (sortNames names).Pairwise fun a b => (!decide (b < a)) = true := by
    refine List.pairwise_mergeSort (fun a b c hab hbc => ?_) (fun a b => ?_) names
    · rw [not_decide_lt_iff] at hab hbc ⊢
      exact String.le_trans hab hbc
    · rw [Bool.or_eq_true, not_decide_lt_iff, not_decide_lt_iff]
      exact String.le_total a b
  have hne : (sortNames names).Nodup := (List.mergeSort_perm _ _).nodup_iff.2 h
  refine hle.imp₂ (fun a b hab hne => ?_) hne
  have hle : a ≤ b := not_decide_lt_iff.1 hab
  exact String.not_le.1 fun hge => hne (String.le_antisymm hle hge)

/-! ## What tasks can still report -/

def Task.relative : Task → String
  | .enter _ relative => relative
  | .visit entry | .descend entry | .report entry => entry.relative

def Task.isEnter : Task → Bool
  | .enter _ _ => true
  | _ => false

structure Mark where
  task : Task
  names : List String

structure Mark.IsPlaced (basepath : String) (mark : Mark) : Prop where
  relative_eq : mark.task.relative = relativeOf basepath mark.names
  valid : ∀ name ∈ mark.names, IsName name
  nonempty : mark.task.isEnter = false → mark.names ≠ []

def Mark.CanReport (mark : Mark) (names : List String) : Prop :=
  match mark.task with
  | .enter _ _ | .descend _ => ∃ below, below ≠ [] ∧ names = mark.names ++ below
  | .visit _ => mark.names <+: names
  | .report _ => names = mark.names

def Mark.IsBefore (bottomUp : Bool) (first second : Mark) : Prop :=
  ∀ names others, first.CanReport names → second.CanReport others →
    Precedes bottomUp names others

/-- The parts follow one another, and nothing can be reported by them that the whole cannot. -/
structure Mark.Splits (bottomUp : Bool) (basepath : String) (whole : Mark) (parts : List Mark) :
    Prop where
  placed : ∀ part ∈ parts, part.IsPlaced basepath
  within : ∀ part ∈ parts, ∀ names, part.CanReport names → whole.CanReport names
  ordered : parts.Pairwise (Mark.IsBefore bottomUp)

section

variable {bottomUp : Bool} {basepath : String} {names : List String} {entry : Entry}

theorem Mark.splits_enter {directory : Path} {relative : String} {found : List String}
    (hplaced : Mark.IsPlaced basepath ⟨.enter directory relative, names⟩)
    (hfound : IsListing found) :
    Mark.Splits bottomUp basepath ⟨.enter directory relative, names⟩
      ((sortNames found).map fun name =>
        ⟨.visit (entryOf directory relative name), names ++ [name]⟩) := by
  have hrelative : relative = relativeOf basepath names := hplaced.relative_eq
  refine ⟨?_, ?_, ?_⟩
  · rw [List.forall_mem_map]
    intro name hname
    have hname := hfound.2 name (List.mem_mergeSort.1 hname)
    have hentry : (entryOf directory relative name).relative =
        relativeOf basepath (names ++ [name]) := by
      rw [relativeOf_append_singleton, ← hrelative]
      rfl
    have hvalid : ∀ other ∈ names ++ [name], IsName other := by
      simpa [or_imp, forall_and] using ⟨hplaced.valid, hname⟩
    exact ⟨hentry, hvalid, by simp⟩
  · rw [List.forall_mem_map]
    rintro name - _ ⟨below, rfl⟩
    exact ⟨name :: below, by simp, by simp⟩
  · rw [List.pairwise_map]
    refine (pairwise_sortNames hfound.1).imp fun {a b} hab => ?_
    rintro _ _ ⟨first, rfl⟩ ⟨second, rfl⟩
    simpa using precedes_beside hab

theorem Mark.splits_visit (hplaced : Mark.IsPlaced basepath ⟨.visit entry, names⟩) :
    Mark.Splits bottomUp basepath ⟨.visit entry, names⟩
      (if bottomUp then [⟨.descend entry, names⟩, ⟨.report entry, names⟩]
        else [⟨.report entry, names⟩, ⟨.descend entry, names⟩]) := by
  obtain ⟨hrelative, hvalid, hnonempty⟩ := hplaced
  have hdescend : Mark.IsPlaced basepath ⟨.descend entry, names⟩ :=
    ⟨hrelative, hvalid, fun _ => hnonempty rfl⟩
  have hreport : Mark.IsPlaced basepath ⟨.report entry, names⟩ :=
    ⟨hrelative, hvalid, fun _ => hnonempty rfl⟩
  have hbelow : ∀ others, Mark.CanReport ⟨.descend entry, names⟩ others →
      Mark.CanReport ⟨.visit entry, names⟩ others := by
    rintro _ ⟨below, -, rfl⟩
    exact List.prefix_append _ _
  have hitself : ∀ others, Mark.CanReport ⟨.report entry, names⟩ others →
      Mark.CanReport ⟨.visit entry, names⟩ others := by
    rintro _ rfl
    exact List.prefix_rfl
  cases bottomUp with
  | true =>
      refine ⟨by simpa using ⟨hdescend, hreport⟩, by simpa using ⟨hbelow, hitself⟩, ?_⟩
      refine List.pairwise_pair.2 ?_
      rintro _ _ ⟨below, hne, rfl⟩ rfl
      exact precedes_below hne
  | false =>
      refine ⟨by simpa using ⟨hreport, hdescend⟩, by simpa using ⟨hitself, hbelow⟩, ?_⟩
      refine List.pairwise_pair.2 ?_
      rintro _ _ rfl ⟨below, hne, rfl⟩
      exact precedes_above hne

theorem Mark.splits_descend (hplaced : Mark.IsPlaced basepath ⟨.descend entry, names⟩) :
    Mark.Splits bottomUp basepath ⟨.descend entry, names⟩
      [⟨.enter entry.path entry.relative, names⟩] := by
  have henter : Mark.IsPlaced basepath ⟨.enter entry.path entry.relative, names⟩ :=
    ⟨hplaced.relative_eq, hplaced.valid, by simp [Task.isEnter]⟩
  exact ⟨by simpa using henter, by simp [Mark.CanReport], List.pairwise_singleton _ _⟩

theorem Mark.splits_nil (whole : Mark) : whole.Splits bottomUp basepath [] :=
  ⟨by simp, by simp, .nil⟩

theorem Replaces.splits {task : Task} {tasks : List Task} {found : Option Entry}
    (h : Replaces bottomUp task found tasks) (hplaced : Mark.IsPlaced basepath ⟨task, names⟩) :
    ∃ parts : List Mark, parts.map Mark.task = tasks ∧
      Mark.Splits bottomUp basepath ⟨task, names⟩ parts := by
  cases h with
  | enter hfound => exact ⟨_, by simp, Mark.splits_enter hplaced hfound⟩
  | visit =>
      refine ⟨_, ?_, Mark.splits_visit hplaced⟩
      cases bottomUp with
      | true => rfl
      | false => rfl
  | descend => exact ⟨_, rfl, Mark.splits_descend hplaced⟩
  | skip | report | drop => exact ⟨[], rfl, Mark.splits_nil _⟩

theorem Replaces.eq_report {task : Task} {tasks : List Task}
    (h : Replaces bottomUp task (some entry) tasks) : task = .report entry ∧ tasks = [] := by
  cases h
  exact ⟨rfl, rfl⟩

theorem Mark.Splits.ordered_append {whole : Mark} {parts others : List Mark}
    (h : whole.Splits bottomUp basepath parts)
    (hordered : (whole :: others).Pairwise (Mark.IsBefore bottomUp)) :
    (parts ++ others).Pairwise (Mark.IsBefore bottomUp) := by
  obtain ⟨hwhole, hothers⟩ := List.pairwise_cons.1 hordered
  refine List.pairwise_append.2 ⟨h.ordered, hothers, fun part hpart other hother => ?_⟩
  intro first second hfirst hsecond
  exact hwhole other hother first second (h.within part hpart first hfirst) hsecond

end

/-! ## The order of a course -/

/-- What a course reports ascends and lies in the parts that its tasks can report. -/
theorem Course.ascends {bottomUp : Bool} {stack following : List Task} {entries : List Entry}
    (h : Course (Replaces bottomUp) stack entries following) (basepath : String)
    (marks : List Mark) (hstack : marks.map Mark.task = stack)
    (hplaced : ∀ mark ∈ marks, mark.IsPlaced basepath)
    (hordered : marks.Pairwise (Mark.IsBefore bottomUp)) :
    ∃ reported : List (List String), entries.map Entry.relative =
        reported.map (relativeOf basepath) ∧
      (∀ names ∈ reported, names ≠ [] ∧ ∀ name ∈ names, IsName name) ∧
      reported.Pairwise (Precedes bottomUp) ∧
      ∀ names ∈ reported, ∃ mark ∈ marks, mark.CanReport names := by
  induction h generalizing marks with
  | refl => exact ⟨[], rfl, by simp, .nil, by simp⟩
  | @step task tasks rest stack found entries hreplaces _ ih =>
      obtain ⟨⟨first, names⟩, others, rfl, rfl, rfl⟩ := List.map_eq_cons_iff.1 hstack
      obtain ⟨hfirst, hrest⟩ := List.forall_mem_cons.1 hplaced
      obtain ⟨parts, rfl, hsplits⟩ := hreplaces.splits hfirst
      obtain ⟨reported, hrelative, hvalid, hascends, hwithin⟩ :=
        ih (parts ++ others) (by simp) (List.forall_mem_append.2 ⟨hsplits.placed, hrest⟩)
          (hsplits.ordered_append hordered)
      cases found with
      | none =>
          refine ⟨reported, by simpa using hrelative, hvalid, hascends, fun ns hns => ?_⟩
          obtain ⟨mark, hmark, hcan⟩ := hwithin ns hns
          obtain hpart | hother := List.mem_append.1 hmark
          · exact ⟨_, List.mem_cons_self, hsplits.within mark hpart ns hcan⟩
          · exact ⟨mark, List.mem_cons_of_mem _ hother, hcan⟩
      | some entry =>
          obtain ⟨rfl, hnil⟩ := hreplaces.eq_report
          rw [List.map_eq_nil_iff.1 hnil, List.nil_append] at hwithin
          have hfirstNames : names ≠ [] ∧ ∀ name ∈ names, IsName name :=
            ⟨hfirst.nonempty rfl, hfirst.valid⟩
          have hbefore : ∀ ns ∈ reported, Precedes bottomUp names ns := by
            intro ns hns
            obtain ⟨other, hother, hcan⟩ := hwithin ns hns
            exact (List.pairwise_cons.1 hordered).1 other hother names ns rfl hcan
          refine ⟨names :: reported, by simp [hrelative, ← hfirst.relative_eq, Task.relative],
            List.forall_mem_cons.2 ⟨hfirstNames, hvalid⟩,
            List.pairwise_cons.2 ⟨hbefore, hascends⟩,
            List.forall_mem_cons.2 ⟨⟨_, List.mem_cons_self, rfl⟩, fun ns hns => ?_⟩⟩
          obtain ⟨other, hother, hcan⟩ := hwithin ns hns
          exact ⟨other, List.mem_cons_of_mem _ hother, hcan⟩

theorem Course.namesBelow_ascends {bottomUp : Bool} {directory : Path} {basepath : String}
    {entries : List Entry} {following : List Task}
    (h : Course (Replaces bottomUp) (start directory basepath) entries following) :
    ((entries.map Entry.relative).map (namesBelow basepath)).Pairwise (Precedes bottomUp) := by
  obtain ⟨reported, hrelative, hvalid, hascends, -⟩ :=
    h.ascends basepath [⟨.enter directory basepath, []⟩] rfl
      (by simpa using ⟨rfl, by simp, by simp [Task.isEnter]⟩) (List.pairwise_singleton _ _)
  have hnames : (reported.map (relativeOf basepath)).map (namesBelow basepath) = reported := by
    rw [List.map_map]
    refine (List.map_congr_left fun names hnames => ?_).trans (List.map_id _)
    exact namesBelow_relativeOf (hvalid names hnames).1 (hvalid names hnames).2
  rw [hrelative, hnames]
  exact hascends

end Walk

/-! ## Traversals -/

/-- The values that an iteration through a selection gives one after the other.  Anything may change
before the next one is asked for: the state, the rules and even the host. -/
inductive Iteration.Gives {σ α : Type} : Iteration σ α → List α → Prop
  | nil {iteration : Iteration σ α} : Gives iteration []
  | cons {iteration following : Iteration σ α} {value : α} {values : List α} {host : Host σ}
      {selection : Selection σ} {state last : σ} :
      host.IsTidy →
        iteration.next host (.selected selection) state = some (.ok (some value, following), last) →
          Gives following values → Gives iteration (value :: values)

section

variable {σ α : Type}

theorem Sequence.value_of_pick {host : Host σ} {sequence : Sequence σ α} {entry : Entry}
    {value : α} {state last : σ}
    (h : sequence.pick host entry state = some (.ok (some value), last)) :
    ∃ before, sequence.value entry before = some (.ok (some value), last) := by
  unfold pick at h
  cases honly : sequence.only with
  | none =>
      rw [honly] at h
      exact ⟨state, h⟩
  | some rule =>
      rw [honly] at h
      obtain ⟨kept, middle, -, h⟩ := Act.bind_eq_ok_iff.1 h
      cases kept with
      | true => exact ⟨middle, h⟩
      | false => cases h

theorem Iteration.next_course {host : Host σ} {iteration following : Iteration σ α}
    {selection : Selection σ} {value : α} {state last : σ} (hhost : host.IsTidy)
    (h : iteration.next host (.selected selection) state =
      some (.ok (some value, following), last)) :
    ∃ stack rest entries entry, iteration.entered (.selected selection) = .walking stack ∧
      following = ⟨iteration.sequence, .walking rest⟩ ∧
      Walk.Course (Walk.Replaces iteration.sequence.bottomUp) stack (entries ++ [entry]) rest ∧
      ∃ before after, iteration.sequence.value entry before = some (.ok (some value), after) := by
  unfold next at h
  cases hentered : iteration.entered (.selected selection) with
  | walking stack =>
      simp only [hentered] at h
      obtain ⟨⟨found, rest⟩, middle, hnext, h⟩ := Act.bind_eq_ok_iff.1 h
      cases h
      obtain ⟨entries, entry, hcourse, before, after, hpick⟩ := Walk.next_course hhost hnext
      obtain ⟨earlier, hvalue⟩ := Sequence.value_of_pick hpick
      exact ⟨stack, rest, entries, entry, rfl, rfl, hcourse, earlier, after, hvalue⟩
  | _ =>
      simp only [hentered] at h
      cases h

theorem Iteration.Gives.course {label : α → String} {iteration : Iteration σ α} {values : List α}
    (h : iteration.Gives values)
    (hlabel : ∀ entry before value after,
      iteration.sequence.value entry before = some (.ok (some value), after) →
        label value = entry.relative) :
    values = [] ∨ ∃ (selection : Selection σ) (stack rest : List Walk.Task)
      (entries : List Entry),
      iteration.entered (.selected selection) = .walking stack ∧
      Walk.Course (Walk.Replaces iteration.sequence.bottomUp) stack entries rest ∧
      (values.map label).Sublist (entries.map Entry.relative) := by
  induction h with
  | nil => exact .inl rfl
  | @cons iteration following value values host selection state last hhost hnext _ ih =>
      obtain ⟨stack, rest, entries, entry, hentered, rfl, hcourse, before, after, hvalue⟩ :=
        next_course hhost hnext
      have hfirst : [label value].Sublist ((entries ++ [entry]).map Entry.relative) := by
        rw [hlabel entry before value after hvalue]
        simp
      obtain rfl | ⟨_, later, last, others, hlater, hrest, hvalues⟩ := ih hlabel
      · exact .inr ⟨selection, stack, rest, _, hentered, hcourse, hfirst⟩
      · obtain rfl : rest = later := by simpa [entered] using hlater
        refine .inr ⟨selection, stack, last, _, hentered, hcourse.trans hrest, ?_⟩
        rw [List.map_append]
        exact hfirst.append hvalues

/-- The reported relative paths ascend in the order of their names: those of the values that an
iteration gives, and those that are handed to a receiver, up to a failure if there is one. -/
theorem traversals_ascend (sequence : Sequence σ α) (label : α → String)
    (hlabel : ∀ entry before value after,
      sequence.value entry before = some (.ok (some value), after) →
        label value = entry.relative) :
    (∀ values, (Iteration.start sequence).Gives values →
      ((values.map label).map (namesBelow sequence.basepath)).Pairwise
        (Precedes sequence.bottomUp)) ∧
    ∀ (host : Host σ) (selection : Selection σ) (basepath : String) (bottomUp : Bool)
      (visit : Entry → Act (List String × σ) Unit) state result seen last,
      host.IsTidy → Records visit →
        Collection.visitAll host (.selected selection) basepath bottomUp visit ([], state) =
          some (result, seen, last) →
            (seen.map (namesBelow basepath)).Pairwise (Precedes bottomUp) := by
  constructor
  · intro values hgives
    obtain rfl | ⟨selection, stack, rest, entries, hentered, hcourse, hvalues⟩ :=
      hgives.course hlabel
    · exact .nil
    · obtain rfl : Walk.start selection.directory sequence.basepath = stack := by
        simpa [Iteration.entered, Iteration.start] using hentered
      exact hcourse.namesBelow_ascends.sublist (hvalues.map _)
  · intro host selection basepath bottomUp visit state result seen last hhost hvisit h
    obtain ⟨entries, following, added, hcourse, hadded, rfl⟩ :=
      Walk.loop_follow_course hhost hvisit h
    exact hcourse.namesBelow_ascends.sublist (hadded.map _)

end

/-! ## Two files -/

def twoFiles : Host Unit where
  names _ := pure ["a", "b"]
  status _ _ := pure ⟨.file, 0, 0⟩
  linkTarget path := throw (.system .noEntry path.text)
  read _ := pure .empty
  workingDirectory := pure ⟨"/", []⟩
  note _ := pure ()

def rootSelection : Selection Unit :=
  ⟨⟨"/", []⟩, .glob, true, false, true, "base", .empty⟩

def rootRelatives : Sequence Unit String :=
  Collection.relatives (.selected rootSelection) .any false

theorem isTidy_twoFiles : twoFiles.IsTidy := by
  rintro _ _ _ _ ⟨⟩
  exact ⟨by decide, by simpa using ⟨⟨by decide, by decide⟩, by decide, by decide⟩⟩

theorem twoFiles_advance : (rootSelection.walk twoFiles false).advance twoFiles
    (rootRelatives.pick twoFiles) (Walk.start ⟨"/", []⟩ "base") () =
      some (.ok (.inl [.visit ⟨⟨"/", ["a"]⟩, "base/a"⟩,
        .visit ⟨⟨"/", ["b"]⟩, "base/b"⟩]), ()) := by
  have hnames : twoFiles.names ⟨"/", []⟩ () = some (.ok ["a", "b"], ()) := rfl
  have henter : (rootSelection.walk twoFiles false).perform twoFiles (.enter ⟨"/", []⟩ "base") () =
      some (.ok (none, [.visit ⟨⟨"/", ["a"]⟩, "base/a"⟩,
        .visit ⟨⟨"/", ["b"]⟩, "base/b"⟩]), ()) :=
    Walk.perform_enter_of_sorted "base" hnames (by decide)
  rw [Walk.start, Walk.advance, Act.bind_of_ok henter]
  rfl

theorem gives_twoFiles : (Iteration.start rootRelatives).Gives ["base/a", "base/b"] := by
  have hfirst : (rootSelection.walk twoFiles false).next twoFiles (rootRelatives.pick twoFiles)
      (Walk.start ⟨"/", []⟩ "base") () =
        some (.ok (some "base/a", [.descend ⟨⟨"/", ["a"]⟩, "base/a"⟩,
          .visit ⟨⟨"/", ["b"]⟩, "base/b"⟩]), ()) :=
    Act.loop_eq_some_iff.2 (.next twoFiles_advance (.next rfl (.value rfl)))
  have hsecond : (rootSelection.walk twoFiles false).next twoFiles (rootRelatives.pick twoFiles)
      [.descend ⟨⟨"/", ["a"]⟩, "base/a"⟩, .visit ⟨⟨"/", ["b"]⟩, "base/b"⟩] () =
        some (.ok (some "base/b", [.descend ⟨⟨"/", ["b"]⟩, "base/b"⟩]), ()) :=
    Act.loop_eq_some_iff.2 (.next rfl (.next rfl (.value rfl)))
  exact .cons isTidy_twoFiles (Act.bind_of_ok hfirst)
    (.cons isTidy_twoFiles (Act.bind_of_ok hsecond) .nil)

theorem two_files_ascend :
    (Iteration.start rootRelatives).Gives ["base/a", "base/b"] ∧
      (["base/a", "base/b"].map (namesBelow "base")).Pairwise (Precedes false) := by
  have hlabel : ∀ entry before value after,
      rootRelatives.value entry before = some (.ok (some value), after) →
        id value = entry.relative := by
    rintro entry before value after ⟨⟩
    rfl
  exact ⟨gives_twoFiles, (traversals_ascend rootRelatives id hlabel).1 _ gives_twoFiles⟩

end FileSelection
