import FileSelection.CopyPlan
import FileSelection.Proofs.FileSystem.Questions
import FileSelection.Proofs.Timestamp

/-!
# Targets that are out of date

A plan tells which copies are out of date, but it compares times as rounded numbers of seconds.  A
target that is older than its source by less than the spacing of the numbers is passed over.
-/

namespace FileSelection

variable {σ α : Type} {steady : σ → Prop} {host : Host σ}

/-! ## Answers about files -/

def Host.Tells (answer : Except Failure Status) : Prop :=
  ∀ failure, answer = .error failure → meansAbsent failure = true

theorem Host.answers_status? {follow : Bool} {path : Path} {answer : Except Failure Status}
    (h : Act.Answers steady (host.status follow path) answer) (htells : Tells answer) :
    Act.Answers steady (host.status? follow path) (.ok answer.toOption) := by
  refine .bind h.attempt ?_
  cases answer with
  | ok status => exact .pure _
  | error failure =>
      simp only [htells failure rfl, if_true]
      exact .pure _

theorem Host.answers_exists? {path : Path} {answer : Except Failure Status}
    (h : Act.Answers steady (host.status true path) answer) (htells : Tells answer) :
    Act.Answers steady (host.exists? path) (.ok answer.isOk) := by
  refine .bind (answers_status? h htells) ?_
  cases answer with
  | ok status => exact .pure true
  | error failure => exact .pure false

theorem Act.Answers.filterM {test : α → Act σ Bool} {keeps : α → Bool} {values : List α}
    (h : ∀ value ∈ values, Answers steady (test value) (.ok (keeps value))) :
    Answers steady (values.filterM test) (.ok (values.filter keeps)) := by
  have hloop : ∀ kept, Answers steady (values.filterAuxM test kept)
      (.ok ((values.filter keeps).reverse ++ kept)) := by
    induction values with
    | nil => exact fun kept => .pure kept
    | cons value values ih =>
        obtain ⟨hvalue, hvalues⟩ := List.forall_mem_cons.1 h
        intro kept
        refine .bind hvalue ?_
        have hrest := ih hvalues (cond (keeps value) (value :: kept) kept)
        cases hkeeps : keeps value with
        | true => simpa [hkeeps] using hrest
        | false => simpa [hkeeps] using hrest
  have hreversed := hloop []
  rw [List.append_nil] at hreversed
  refine .bind hreversed ?_
  rw [List.reverse_reverse]
  exact .pure _

/-! ## Copies that are out of date -/

namespace CopyPlan

variable {shown : Path → Except Failure Status} {plan : CopyPlan} {power : ℕ}

def isOutdated (shown : Path → Except Failure Status) (isNewer : ℤ → ℤ → Bool)
    (copy : Path × Path) : Bool :=
  match shown copy.1, shown copy.2 with
  | .ok source, .ok target => isNewer source.modified target.modified
  | .ok _, .error _ => true
  | .error _, _ => false

def outdated (shown : Path → Except Failure Status) (isNewer : ℤ → ℤ → Bool) (plan : CopyPlan) :
    List (Path × Path) :=
  plan.targets.filter (isOutdated shown isNewer)

/-- No test for existence raises a failure.  The target is tested only if the source is there. -/
structure IsTestable (shown : Path → Except Failure Status) (copy : Path × Path) : Prop where
  source : Host.Tells (shown copy.1)
  target : (shown copy.1).isOk = true → Host.Tells (shown copy.2)

def HasTimesWithin (shown : Path → Except Failure Status) (power : ℕ) (copy : Path × Path) : Prop :=
  ∀ path ∈ [copy.1, copy.2], ∀ status, shown path = .ok status →
    Timestamp.IsWithin power status.modified

theorem answers_isStale {source target : Path}
    (hshown : ∀ path, Act.Answers steady (host.status true path) (shown path))
    (htestable : IsTestable shown (source, target)) :
    Act.Answers steady (isStale host source target)
      (.ok (isOutdated shown Timestamp.later (source, target))) := by
  have hsource := Host.answers_exists? (hshown source) htestable.source
  have hsourceStatus := hshown source
  have htargetStatus := hshown target
  have htarget := fun hexists => Host.answers_exists? htargetStatus (htestable.target hexists)
  unfold isStale isOutdated
  refine .bind hsource ?_
  cases hfound : shown source with
  | error failure => exact .pure false
  | ok sourceStatus =>
      rw [hfound] at hsourceStatus htarget
      refine .bind (htarget rfl) ?_
      cases hfound : shown target with
      | error failure => exact .pure true
      | ok targetStatus =>
          rw [hfound] at htargetStatus
          exact .bind hsourceStatus (.bind htargetStatus (.pure _))

theorem outdated_sublist {isNewer isNewer' : ℤ → ℤ → Bool}
    (h : ∀ copy ∈ plan.targets, ∀ source target, shown copy.1 = .ok source →
      shown copy.2 = .ok target → isNewer source.modified target.modified = true →
        isNewer' source.modified target.modified = true) :
    (plan.outdated shown isNewer).Sublist (plan.outdated shown isNewer') := by
  have hoften : ∀ copy ∈ plan.targets, isOutdated shown isNewer copy = true →
      isOutdated shown isNewer' copy = true := by
    intro copy hcopy
    have hnewer := h copy hcopy
    unfold isOutdated
    cases hsource : shown copy.1 with
    | error failure => exact id
    | ok source =>
        cases htarget : shown copy.2 with
        | error failure => exact id
        | ok target => exact hnewer source target hsource htarget
  have hfilter : plan.outdated shown isNewer =
      (plan.outdated shown isNewer').filter (isOutdated shown isNewer) := by
    unfold outdated
    rw [List.filter_filter]
    refine List.filter_congr fun copy hcopy => ?_
    cases houtdated : isOutdated shown isNewer copy with
    | false => rfl
    | true => rw [hoften copy hcopy houtdated, Bool.and_self]
  rw [hfilter]
  exact List.filter_sublist

theorem answers_stale (hshown : ∀ path, Act.Answers steady (host.status true path) (shown path))
    (htestable : ∀ copy ∈ plan.targets, IsTestable shown copy) :
    Act.Answers steady (plan.stale host) (.ok (plan.outdated shown Timestamp.later)) :=
  .filterM fun copy hcopy => answers_isStale hshown (htestable copy hcopy)

/-- As long as no test for existence raises a failure, the plan gives the copies whose source exists
and whose target is missing or counts as older, in their order.  If the times lie within `2 ^ power`
seconds, none of these targets is as new as its source, and no target is passed over that is older
by more than the spacing of the numbers.  Without targets that are older by less than that, the
answer does not depend on the rounding. -/
theorem outdated_copies_are_found_up_to_rounding (plan : CopyPlan)
    (hshown : ∀ path, Act.Answers steady (host.status true path) (shown path))
    (htestable : ∀ copy ∈ plan.targets, IsTestable shown copy) :
    Act.Answers steady (plan.stale host) (.ok (plan.outdated shown Timestamp.later)) ∧
      ∀ power ≤ 53, (∀ copy ∈ plan.targets, HasTimesWithin shown power copy) →
        (plan.outdated shown (Timestamp.Exceeds power · ·)).Sublist
            (plan.outdated shown Timestamp.later) ∧
          (plan.outdated shown Timestamp.later).Sublist (plan.outdated shown (· > ·)) ∧
          ((∀ copy ∈ plan.targets, ∀ source target, shown copy.1 = .ok source →
              shown copy.2 = .ok target → source.modified > target.modified →
                Timestamp.Exceeds power source.modified target.modified) →
            plan.outdated shown Timestamp.later = plan.outdated shown (· > ·)) := by
  refine ⟨answers_stale hshown htestable, fun power hpower htimes => ?_⟩
  have hfound : (plan.outdated shown (Timestamp.Exceeds power · ·)).Sublist
      (plan.outdated shown Timestamp.later) := by
    refine outdated_sublist fun copy hcopy source target hsource htarget hexceeds => ?_
    have hwithin := htimes copy hcopy copy.1 (by simp) source hsource
    have hwithin' := htimes copy hcopy copy.2 (by simp) target htarget
    exact Timestamp.later_of_exceeds hpower hwithin hwithin' (of_decide_eq_true hexceeds)
  have holder : (plan.outdated shown Timestamp.later).Sublist (plan.outdated shown (· > ·)) := by
    refine outdated_sublist fun copy hcopy source target hsource htarget hlater => ?_
    have hwithin := htimes copy hcopy copy.1 (by simp) source hsource
    have hwithin' := htimes copy hcopy copy.2 (by simp) target htarget
    exact decide_eq_true (Timestamp.lt_of_later (hwithin.mono hpower) (hwithin'.mono hpower) hlater)
  refine ⟨hfound, holder, fun happart => holder.antisymm (.trans ?_ hfound)⟩
  refine outdated_sublist fun copy hcopy source target hsource htarget hnewer => ?_
  exact decide_eq_true (happart copy hcopy source target hsource htarget (of_decide_eq_true hnewer))

end CopyPlan

/-! ## Files with close times -/

namespace FileSystem

def threeTimes : FileSystem where
  root := .directory [("a", .file .empty 1000000000000000300),
    ("b", .file .empty 1000000000000000000), ("c", .file .empty 1000000000000000001)]
  working := []

theorem status_threeTimes :
    threeTimes.status true ⟨"/", ["a"]⟩ = .ok ⟨.file, 0, 1000000000000000300⟩ ∧
      threeTimes.status true ⟨"/", ["b"]⟩ = .ok ⟨.file, 0, 1000000000000000000⟩ ∧
      threeTimes.status true ⟨"/", ["c"]⟩ = .ok ⟨.file, 0, 1000000000000000001⟩ ∧
      threeTimes.status true ⟨"/", ["d"]⟩ = .error (.system .noEntry "/d") := by
  have htexts : Path.text ⟨"/", ["a"]⟩ = "/a" ∧ Path.text ⟨"/", ["b"]⟩ = "/b" ∧
      Path.text ⟨"/", ["c"]⟩ = "/c" ∧ Path.text ⟨"/", ["d"]⟩ = "/d" := by decide
  have hsteps : steps "/a" = ["a"] ∧ steps "/b" = ["b"] ∧ steps "/c" = ["c"] ∧
      steps "/d" = ["d"] := by decide
  unfold status locate
  simp only [htexts, hsteps]
  simp [threeTimes, rootLocation, follow, Path.isAbsolute]
  exact ⟨rfl, rfl, rfl, rfl⟩

end FileSystem

def copyTo (source target : String) : Path × Path := (⟨"/", [source]⟩, ⟨"/", [target]⟩)

def fourCopies : CopyPlan :=
  ⟨[copyTo "a" "b", copyTo "c" "b", copyTo "d" "a", copyTo "b" "d"]⟩

theorem answers_status_threeTimes (path : Path) :
    Act.Answers (fun session : Session Unit => session.files = .threeTimes)
      (Session.host.status true path) (FileSystem.threeTimes.status true path) := by
  rintro session hfiles
  exact ⟨session, hfiles, Session.host_status hfiles rfl⟩

theorem cases_status_threeTimes : ∀ name ∈ ["a", "b", "c", "d"],
    (∃ time, FileSystem.threeTimes.status true ⟨"/", [name]⟩ = .ok ⟨.file, 0, time⟩ ∧
      Timestamp.IsWithin 30 time) ∨
    FileSystem.threeTimes.status true ⟨"/", [name]⟩ = .error (.system .noEntry "/d") := by
  obtain ⟨ha, hb, hc, hd⟩ := FileSystem.status_threeTimes
  simp only [List.forall_mem_cons]
  exact ⟨.inl ⟨_, ha, by decide⟩, .inl ⟨_, hb, by decide⟩, .inl ⟨_, hc, by decide⟩, .inr hd,
    List.forall_mem_nil _⟩

theorem isTestable_threeTimes {source target : String} (hsource : source ∈ ["a", "b", "c", "d"])
    (htarget : target ∈ ["a", "b", "c", "d"]) :
    CopyPlan.IsTestable (FileSystem.threeTimes.status true) (copyTo source target) := by
  have htells : ∀ name ∈ ["a", "b", "c", "d"],
      Host.Tells (FileSystem.threeTimes.status true ⟨"/", [name]⟩) := by
    intro name hname failure hfailure
    obtain ⟨time, hfound, -⟩ | habsent := cases_status_threeTimes name hname
    · rw [hfound] at hfailure
      cases hfailure
    · rw [habsent] at hfailure
      cases hfailure
      rfl
  exact ⟨htells source hsource, fun _ => htells target htarget⟩

theorem hasTimesWithin_threeTimes {source target : String}
    (hsource : source ∈ ["a", "b", "c", "d"]) (htarget : target ∈ ["a", "b", "c", "d"]) :
    CopyPlan.HasTimesWithin (FileSystem.threeTimes.status true) 30 (copyTo source target) := by
  have hwithin : ∀ name ∈ ["a", "b", "c", "d"], ∀ status,
      FileSystem.threeTimes.status true ⟨"/", [name]⟩ = .ok status →
        Timestamp.IsWithin 30 status.modified := by
    intro name hname status hstatus
    obtain ⟨time, hfound, htime⟩ | habsent := cases_status_threeTimes name hname
    · rw [hfound] at hstatus
      cases hstatus
      exact htime
    · rw [habsent] at hstatus
      cases hstatus
  intro path hpath
  obtain rfl | hpath := List.mem_cons.1 hpath
  · exact hwithin source hsource
  · obtain rfl := List.mem_singleton.1 hpath
    exact hwithin target htarget

theorem later_threeTimes :
    Timestamp.later 1000000000000000300 1000000000000000000 = true ∧
      Timestamp.later 1000000000000000001 1000000000000000000 = false := by
  decide +kernel

theorem two_of_four_copies_are_found :
    Act.Answers (fun session : Session Unit => session.files = .threeTimes)
        (fourCopies.stale Session.host) (.ok [copyTo "a" "b", copyTo "b" "d"]) ∧
      (fourCopies.outdated (FileSystem.threeTimes.status true)
        (Timestamp.Exceeds 30 · ·)).Sublist [copyTo "a" "b", copyTo "b" "d"] := by
  have hnames : ∀ copy ∈ fourCopies.targets, ∃ source ∈ ["a", "b", "c", "d"],
      ∃ target ∈ ["a", "b", "c", "d"], copy = copyTo source target := by decide
  obtain ⟨hanswers, hrounding⟩ := CopyPlan.outdated_copies_are_found_up_to_rounding
    fourCopies answers_status_threeTimes fun copy hcopy => by
      obtain ⟨source, hsource, target, htarget, rfl⟩ := hnames copy hcopy
      exact isTestable_threeTimes hsource htarget
  obtain ⟨hfound, -, -⟩ := hrounding 30 (by decide) fun copy hcopy => by
    obtain ⟨source, hsource, target, htarget, rfl⟩ := hnames copy hcopy
    exact hasTimesWithin_threeTimes hsource htarget
  have houtdated : fourCopies.outdated (FileSystem.threeTimes.status true) Timestamp.later =
      [copyTo "a" "b", copyTo "b" "d"] := by
    obtain ⟨ha, hb, hc, hd⟩ := FileSystem.status_threeTimes
    obtain ⟨hlater, hclose⟩ := later_threeTimes
    simp [CopyPlan.outdated, fourCopies, CopyPlan.isOutdated, copyTo, ha, hb, hc, hd, hlater,
      hclose]
  rw [houtdated] at hanswers hfound
  exact ⟨hanswers, hfound⟩

/-- A target that is older by a single nanosecond is passed over. -/
theorem older_target_can_be_passed_over :
    ¬ ∀ (plan : CopyPlan) (files : FileSystem),
      (∀ copy ∈ plan.targets, CopyPlan.IsTestable (files.status true) copy) →
        Act.Answers (fun session : Session Unit => session.files = files)
          (plan.stale Session.host) (.ok (plan.outdated (files.status true) (· > ·))) := by
  intro h
  obtain ⟨-, hb, hc, -⟩ := FileSystem.status_threeTimes
  have htestable : ∀ copy ∈ (⟨[copyTo "c" "b"]⟩ : CopyPlan).targets,
      CopyPlan.IsTestable (FileSystem.threeTimes.status true) copy := by
    intro copy hcopy
    obtain rfl := List.mem_singleton.1 hcopy
    exact isTestable_threeTimes (by decide) (by decide)
  have hstale := CopyPlan.answers_stale answers_status_threeTimes htestable
  have hclaimed := h _ _ htestable
  have hpassed : CopyPlan.outdated (FileSystem.threeTimes.status true) Timestamp.later
      ⟨[copyTo "c" "b"]⟩ = [] := by
    simp [CopyPlan.outdated, CopyPlan.isOutdated, copyTo, hb, hc, later_threeTimes.2]
  have holder : CopyPlan.outdated (FileSystem.threeTimes.status true) (· > ·)
      ⟨[copyTo "c" "b"]⟩ = [copyTo "c" "b"] := by
    simp [CopyPlan.outdated, CopyPlan.isOutdated, copyTo, hb, hc]
  rw [hpassed] at hstale
  rw [holder] at hclaimed
  obtain ⟨last, -, hnothing⟩ := hstale (.ofFiles .threeTimes ()) rfl
  obtain ⟨last', -, hone⟩ := hclaimed (.ofFiles .threeTimes ()) rfl
  rw [hnothing] at hone
  cases hone

end FileSelection
