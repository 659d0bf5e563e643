import FileSelection.Proofs.Walk.Order
import FileSelection.Proofs.Walk.Scene
import Mathlib.Data.Set.Finite.Lattice

/-!
# What a walk selects

In a scene, a walk reports the accepted ones among the entries that it can get to, each of them
once, whether a directory comes before its contents or after them.
-/

namespace FileSelection.Scene

open FileSelection.Path

variable {scene : Scene} {names : List String}

/-! ## What tasks report in the end -/

def SelectsBelow (scene : Scene) (names : List String) (entry : Entry) : Prop :=
  ∃ others, (names <+: others ∧ names ≠ others) ∧ scene.Visits others ∧
    scene.accepts (scene.entryAt others) = true ∧ entry = scene.entryAt others

def SelectsFrom (scene : Scene) (names : List String) (entry : Entry) : Prop :=
  ∃ others, names <+: others ∧ scene.Visits others ∧
    scene.accepts (scene.entryAt others) = true ∧ entry = scene.entryAt others

theorem selectsFrom_iff {entry : Entry} (h : scene.Visits names) :
    scene.SelectsFrom names entry ↔
      (scene.accepts (scene.entryAt names) = true ∧ entry = scene.entryAt names) ∨
        scene.SelectsBelow names entry := by
  constructor
  · rintro ⟨others, hbelow, hvisits, haccepts, rfl⟩
    by_cases hsame : names = others
    · subst hsame
      exact .inl ⟨haccepts, rfl⟩
    · exact .inr ⟨others, ⟨hbelow, hsame⟩, hvisits, haccepts, rfl⟩
  · rintro (⟨haccepts, rfl⟩ | ⟨others, ⟨hbelow, -⟩, hselected⟩)
    · exact ⟨names, List.prefix_rfl, h, haccepts, rfl⟩
    · exact ⟨others, hbelow, hselected⟩

theorem selectsBelow_iff {entry : Entry} :
    scene.SelectsBelow names entry ↔
      ∃ name ∈ Walk.sortNames (scene.listing (scene.pathAt names)),
        scene.SelectsFrom (names ++ [name]) entry := by
  constructor
  · rintro ⟨others, ⟨⟨below, rfl⟩, hproper⟩, hvisits, hselected⟩
    obtain ⟨name, rest, rfl⟩ := List.exists_cons_of_ne_nil (show below ≠ [] by simpa using hproper)
    have hbelow : names ++ [name] <+: names ++ name :: rest := ⟨rest, by simp⟩
    have hname := hvisits.listed names name hbelow
    exact ⟨name, List.mem_mergeSort.2 hname, _, hbelow, hvisits, hselected⟩
  · rintro ⟨name, -, others, hbelow, hselected⟩
    refine ⟨others, ⟨(List.prefix_append _ _).trans hbelow, ?_⟩, hselected⟩
    rintro rfl
    exact absurd hbelow.length_le (by simp)

theorem not_selectsBelow {entry : Entry} (hne : names ≠ [])
    (h : scene.entersInto (scene.entryAt names) = false) : ¬ scene.SelectsBelow names entry := by
  rintro ⟨others, ⟨hbelow, hproper⟩, hvisits, -⟩
  have henters := hvisits.entered names hne hbelow hproper
  rw [h] at henters
  cases henters

section

variable {σ : Type} {host : Host σ} {walk : Walk σ} {steady : σ → Prop}
  (hshows : scene.Shows host walk steady) (hcalm : scene.IsCalm)

/-- From every steady state the task is replaced in the same way. -/
def Performs (host : Host σ) (walk : Walk σ) (steady : σ → Prop) (task : Walk.Task)
    (found : Option Entry) (tasks : List Walk.Task) : Prop :=
  Act.Answers steady (walk.perform host task) (.ok (found, tasks))

include hshows hcalm

theorem Shows.performs_enter (h : scene.Enters names) :
    Performs host walk steady (.enter (scene.pathAt names) (relativeOf scene.basepath names)) none
      ((Walk.sortNames (scene.listing (scene.pathAt names))).map fun name =>
        .visit (scene.entryAt (names ++ [name]))) := by
  have htasks : (Walk.sortNames (scene.listing (scene.pathAt names))).map (fun name =>
      Walk.Task.visit (scene.entryAt (names ++ [name]))) =
        (Walk.sortNames (scene.listing (scene.pathAt names))).map fun name =>
          .visit (Walk.entryOf (scene.pathAt names) (relativeOf scene.basepath names) name) := by
    refine List.map_congr_left fun name hname => ?_
    have hvisits := visits_append_singleton.2 ⟨h, List.mem_mergeSort.1 hname⟩
    rw [hvisits.entryOf_eq]
  rw [htasks]
  exact .bind (hshows.answers_listNames hcalm h) (.pure _)

theorem Shows.performs_descend (h : scene.Visits names) :
    Performs host walk steady (.descend (scene.entryAt names)) none
      (if scene.entersInto (scene.entryAt names) then
        [.enter (scene.pathAt names) (relativeOf scene.basepath names)] else []) := by
  have henters := hshows.answers_entersInto hcalm h
  cases hresult : scene.entersInto (scene.entryAt names) with
  | true =>
      rw [hresult] at henters
      have hentry := h.entryAt_eq
      refine .bind henters ?_
      simp only [if_true, hentry]
      exact .pure _
  | false =>
      rw [hresult] at henters
      exact .bind henters (.pure _)

omit hcalm in
theorem Shows.performs_report (entry : Entry) :
    Performs host walk steady (.report entry)
      (if scene.accepts entry then some entry else none) [] := by
  have haccept := hshows.accept entry
  cases hresult : scene.accepts entry with
  | true =>
      rw [hresult] at haccept
      exact .bind haccept (.pure _)
  | false =>
      rw [hresult] at haccept
      exact .bind haccept (.pure _)

omit hcalm in
theorem Shows.ends_report (entry : Entry) :
    Walk.Ends (Performs host walk steady) [.report entry] fun reported =>
      scene.accepts entry = true ∧ reported = entry := by
  refine (Walk.Ends.nil.step (hshows.performs_report entry)).congr fun reported => ?_
  cases scene.accepts entry with
  | true => simp [eq_comm]
  | false => simp

theorem Shows.ends_descend (h : scene.Visits names)
    (hbelow : scene.Enters names →
      Walk.Ends (Performs host walk steady)
        [.enter (scene.pathAt names) (relativeOf scene.basepath names)]
        (scene.SelectsBelow names)) :
    Walk.Ends (Performs host walk steady) [.descend (scene.entryAt names)]
      (scene.SelectsBelow names) := by
  have hperforms := hshows.performs_descend hcalm h
  cases henters : scene.entersInto (scene.entryAt names) with
  | true =>
      rw [henters, if_pos rfl] at hperforms
      exact ((hbelow (.inr ⟨h, henters⟩)).step hperforms).congr (by simp)
  | false =>
      rw [henters, if_neg (by simp)] at hperforms
      refine (Walk.Ends.nil.step hperforms).congr fun entry => ?_
      simp [not_selectsBelow h.nonempty henters]

theorem Shows.ends_visit (h : scene.Visits names)
    (hbelow : scene.Enters names →
      Walk.Ends (Performs host walk steady)
        [.enter (scene.pathAt names) (relativeOf scene.basepath names)]
        (scene.SelectsBelow names)) :
    Walk.Ends (Performs host walk steady) [.visit (scene.entryAt names)]
      (scene.SelectsFrom names) := by
  have hdescend := hshows.ends_descend hcalm h hbelow
  have hreport := hshows.ends_report (scene.entryAt names)
  have hperforms : Performs host walk steady (.visit (scene.entryAt names)) none _ := .pure _
  cases hbottomUp : walk.bottomUp with
  | true =>
      rw [hbottomUp, if_pos rfl] at hperforms
      refine ((hdescend.append hreport).step hperforms).congr fun entry => ?_
      rw [selectsFrom_iff h]
      simp [or_comm]
  | false =>
      rw [hbottomUp, if_neg (by simp)] at hperforms
      refine ((hreport.append hdescend).step hperforms).congr fun entry => ?_
      rw [selectsFrom_iff h]
      simp

theorem Shows.ends_enter {limit : Nat} (hlimit : ∀ names, scene.Visits names → names.length ≤ limit)
    (h : scene.Enters names) :
    Walk.Ends (Performs host walk steady)
      [.enter (scene.pathAt names) (relativeOf scene.basepath names)]
      (scene.SelectsBelow names) := by
  induction hleft : limit - names.length using Nat.strong_induction_on generalizing names with
  | _ left ih =>
      have hvisit : ∀ name ∈ Walk.sortNames (scene.listing (scene.pathAt names)),
          Walk.Ends (Performs host walk steady) [.visit (scene.entryAt (names ++ [name]))]
            (scene.SelectsFrom (names ++ [name])) := by
        intro name hname
        have hvisits := visits_append_singleton.2 ⟨h, List.mem_mergeSort.1 hname⟩
        have hlength := hlimit _ hvisits
        simp only [List.length_append, List.length_singleton] at hlength
        refine hshows.ends_visit hcalm hvisits fun henters => ?_
        exact ih (limit - (names ++ [name]).length) (by simp; omega) henters rfl
      refine ((Walk.Ends.map hvisit).step (hshows.performs_enter hcalm h)).congr fun entry => ?_
      rw [selectsBelow_iff]
      simp

omit hshows hcalm in
theorem replaces_of_performs (hnames : ∀ path, Act.Answers steady (host.names path) (scene.names path))
    {state : σ} {task : Walk.Task} {found : Option Entry} {tasks : List Walk.Task}
    (hstate : steady state) (h : Performs host walk steady task found tasks) :
    Walk.Replaces walk.bottomUp task found tasks := by
  obtain ⟨last, -, hperform⟩ := h state hstate
  refine Walk.replaces_of_perform (fun {path names after} hlisted => ?_) hperform
  obtain ⟨_, -, hanswer⟩ := hnames path state hstate
  have hresult : scene.names path = .ok names := by
    rw [hanswer] at hlisted
    simpa using congrArg (Option.map Prod.fst) hlisted
  exact scene.tidy hresult

omit hcalm in
theorem Shows.replaces_of_performs {state : σ} {task : Walk.Task} {found : Option Entry}
    {tasks : List Walk.Task} (hstate : steady state)
    (h : Performs host walk steady task found tasks) :
    Walk.Replaces walk.bottomUp task found tasks :=
  Scene.replaces_of_performs hshows.names hstate h

end

section

variable {σ : Type} {host : Host σ} {walk : Walk σ} {steady : σ → Prop}

theorem follow_of_performs {task : Walk.Task} {found : Option Entry} {tasks rest : List Walk.Task}
    {gathered : List Entry} {state : σ} (hstate : steady state)
    (h : Performs host walk steady task found tasks) :
    ∃ middle, steady middle ∧
      walk.follow host (fun entry => Act.gather (entry :: ·)) (task :: rest) (gathered, state) =
        some (.ok (.inl (tasks ++ rest)), found.toList ++ gathered, middle) := by
  obtain ⟨middle, hmiddle, hperform⟩ := h state hstate
  have hbeside : (walk.perform host task).beside (gathered, state) =
      some (.ok (found, tasks), gathered, middle) :=
    Act.beside_eq_some_iff.2 ⟨hperform, rfl⟩
  refine ⟨middle, hmiddle, ?_⟩
  rw [Walk.follow, Act.bind_of_ok hbeside]
  cases found with
  | none => rfl
  | some entry => rfl

theorem loop_course {stack following : List Walk.Task} {entries gathered : List Entry} {state : σ}
    (h : Walk.Course (Performs host walk steady) stack entries following) (hstate : steady state) :
    ∃ middle, steady middle ∧
      Act.Step.loop (walk.follow host fun entry => Act.gather (entry :: ·)) stack (gathered, state) =
        Act.Step.loop (walk.follow host fun entry => Act.gather (entry :: ·)) following
          (entries.reverse ++ gathered, middle) := by
  induction h generalizing gathered state with
  | refl => exact ⟨state, hstate, rfl⟩
  | @step task tasks rest _ found entries hperforms _ ih =>
      obtain ⟨middle, hmiddle, hstep⟩ := follow_of_performs hstate hperforms
      obtain ⟨after, hafter, hloop⟩ := ih hmiddle
      refine ⟨after, hafter, ?_⟩
      rw [Act.loop_of_next hstep, hloop]
      cases found with
      | none => rfl
      | some entry => simp

theorem loop_of_course {stack : List Walk.Task} {entries gathered : List Entry} {state : σ}
    (h : Walk.Course (Performs host walk steady) stack entries []) (hstate : steady state) :
    ∃ after, steady after ∧
      Act.Step.loop (walk.follow host fun entry => Act.gather (entry :: ·)) stack (gathered, state) =
        some (.ok (), entries.reverse ++ gathered, after) := by
  obtain ⟨after, hafter, hloop⟩ := loop_course h hstate
  exact ⟨after, hafter, hloop.trans (Act.loop_of_value rfl)⟩

theorem entries_of_course {directory : Path} {relative : String} {entries : List Entry} {state : σ}
    (h : Walk.Course (Performs host walk steady) (Walk.start directory relative) entries [])
    (hstate : steady state) :
    ∃ after, walk.entries host directory relative state = some (.ok entries, after) := by
  obtain ⟨after, -, hloop⟩ := loop_of_course h hstate
  have hgathering : Act.gathering [] (walk.forEach host (fun entry => Act.gather (entry :: ·))
      directory relative) state = some (.ok (entries.reverse ++ []), after) := by
    unfold Act.gathering Walk.forEach
    rw [hloop]
    rfl
  refine ⟨after, ?_⟩
  rw [Walk.entries, Act.map_of_ok hgathering]
  simp

end

theorem Shows.course {σ : Type} {host : Host σ} {walk : Walk σ} {steady : σ → Prop}
    (hshows : scene.Shows host walk steady) (hcalm : scene.IsCalm)
    (hfinite : {names | scene.Visits names}.Finite) :
    Walk.Ends (Performs host walk steady) (Walk.start scene.directory scene.basepath)
      scene.Selects := by
  obtain ⟨limit, hlimit⟩ := (hfinite.image List.length).bddAbove
  have hlengths : ∀ names, scene.Visits names → names.length ≤ limit :=
    fun names hvisits => hlimit ⟨names, hvisits, rfl⟩
  refine (hshows.ends_enter hcalm hlengths (.inl rfl)).congr fun entry => ?_
  constructor
  · rintro ⟨names, -, hselected⟩
    exact ⟨names, hselected⟩
  · rintro ⟨names, hvisits, hselected⟩
    exact ⟨names, ⟨List.nil_prefix, hvisits.nonempty.symm⟩, hvisits, hselected⟩

/-- A walk through a scene reports what is selected, each entry once. -/
theorem Shows.entries {σ : Type} {host : Host σ} {walk : Walk σ} {steady : σ → Prop}
    (hshows : scene.Shows host walk steady) (hcalm : scene.IsCalm)
    (hfinite : {names | scene.Visits names}.Finite) (state : σ) (hstate : steady state) :
    ∃ entries after,
      walk.entries host scene.directory scene.basepath state = some (.ok entries, after) ∧
        entries.Nodup ∧ ∀ entry, entry ∈ entries ↔ scene.Selects entry := by
  obtain ⟨entries, hcourse, hentries⟩ := hshows.course hcalm hfinite
  obtain ⟨after, hresult⟩ := entries_of_course hcourse hstate
  refine ⟨entries, after, hresult, ?_, hentries⟩
  have hascends := (hcourse.mono (hshows.replaces_of_performs hstate)).namesBelow_ascends
  exact ((nodup_of_ascends hascends).of_map _).of_map _

theorem Shows.turned {σ : Type} {host : Host σ} {walk : Walk σ} {steady : σ → Prop}
    (h : scene.Shows host walk steady) (bottomUp : Bool) :
    scene.Shows host { walk with bottomUp } steady :=
  ⟨h.names, h.status, h.note, h.accept, h.mayDescend, h.followLinks, h.lenient⟩

/-- Top-down and bottom-up, a walk reports the same entries: exactly the accepted ones to which it
gets, each once. -/
theorem walk_reports_selected {σ : Type} {host : Host σ} {walk : Walk σ} {steady : σ → Prop}
    (hshows : scene.Shows host walk steady) (hcalm : scene.IsCalm)
    (hfinite : {names | scene.Visits names}.Finite) (state : σ) (hstate : steady state) :
    ∃ topDown bottomUp after after',
      Walk.entries host { walk with bottomUp := false } scene.directory scene.basepath state =
        some (.ok topDown, after) ∧
      Walk.entries host { walk with bottomUp := true } scene.directory scene.basepath state =
        some (.ok bottomUp, after') ∧
      topDown.Nodup ∧ topDown.Perm bottomUp ∧
      ∀ entry, entry ∈ topDown ↔ ∃ names, scene.Visits names ∧
        scene.accepts (scene.entryAt names) = true ∧ entry = scene.entryAt names := by
  obtain ⟨topDown, after, htopDown, hnodup, hselects⟩ :=
    (hshows.turned false).entries hcalm hfinite state hstate
  obtain ⟨bottomUp, after', hbottomUp, hnodup', hselects'⟩ :=
    (hshows.turned true).entries hcalm hfinite state hstate
  have hsame : topDown.Perm bottomUp := by
    refine (List.perm_ext_iff_of_nodup hnodup hnodup').2 fun entry => ?_
    rw [hselects, hselects']
  exact ⟨topDown, bottomUp, after, after', htopDown, hbottomUp, hnodup, hsame, hselects⟩

/-! ## One directory -/

def oneDirectory : Scene where
  names path :=
    if path.names = [] then .ok ["b", "a"]
    else if path.names = ["a"] then .ok ["c"]
    else .error (.system .notDirectory path.text)
  status _ path := .ok ⟨if path.names = ["a"] then .directory else .file, 0, 0⟩
  accepts entry := entry.relative != "base/a"
  mayDescend _ := true
  followLinks := false
  directory := ⟨"/", []⟩
  basepath := "base"
  tidy := by
    intro path found h
    split at h
    · cases h
      exact ⟨by decide, by simpa using ⟨⟨by decide, by decide⟩, by decide, by decide⟩⟩
    · split at h
      · cases h
        exact ⟨by decide, by simpa using ⟨by decide, by decide⟩⟩
      · cases h

def host (scene : Scene) : Host Unit where
  names path := .ofExcept (scene.names path)
  status follow path := .ofExcept (scene.status follow path)
  linkTarget path := throw (.system .noEntry path.text)
  read _ := pure .empty
  workingDirectory := pure ⟨"/", []⟩
  note _ := pure ()

def walk (scene : Scene) : Walk Unit where
  accept entry := pure (scene.accepts entry)
  mayDescend entry := pure (scene.mayDescend entry)
  bottomUp := false
  strict := false
  followLinks := scene.followLinks

theorem shows_host_walk (scene : Scene) :
    scene.Shows scene.host scene.walk fun _ => True where
  names _ := .ofExcept _
  status _ _ := .ofExcept _
  note _ := .pure ()
  accept _ := .pure _
  mayDescend _ := .pure _
  followLinks := rfl
  lenient := rfl

theorem isCalm_oneDirectory : oneDirectory.IsCalm where
  listing names failure _ h := by
    unfold oneDirectory at h
    simp only at h
    split at h
    · cases h
    · split at h
      · cases h
      · cases h
        rfl
  link names _ _ failure h := by cases h
  directory names _ _ failure h := by cases h

theorem visits_oneDirectory (h : oneDirectory.Visits names) :
    names = ["b"] ∨ names = ["a"] ∨ names = ["a", "c"] := by
  induction names using List.reverseRecOn with
  | nil => exact absurd rfl h.nonempty
  | append_singleton above name ih =>
      obtain ⟨rfl | ⟨habove, henters⟩, hname⟩ := visits_append_singleton.1 h
      · have hlisting : oneDirectory.listing (oneDirectory.pathAt []) = ["b", "a"] := rfl
        rw [hlisting] at hname
        simpa using hname
      · obtain rfl | rfl | rfl := ih habove
        · exact absurd henters (by decide)
        · have hlisting : oneDirectory.listing (oneDirectory.pathAt ["a"]) = ["c"] := by decide
          rw [hlisting] at hname
          simpa using hname
        · exact absurd henters (by decide)

theorem finite_oneDirectory : {names | oneDirectory.Visits names}.Finite :=
  (Set.toFinite {["b"], ["a"], ["a", "c"]}).subset fun _ h => visits_oneDirectory h

theorem one_directory_walk_reports_selected :
    ∃ topDown bottomUp after after',
      Walk.entries oneDirectory.host { oneDirectory.walk with bottomUp := false }
        ⟨"/", []⟩ "base" () = some (.ok topDown, after) ∧
      Walk.entries oneDirectory.host { oneDirectory.walk with bottomUp := true }
        ⟨"/", []⟩ "base" () = some (.ok bottomUp, after') ∧
      topDown.Perm bottomUp ∧
      ⟨⟨"/", ["a", "c"]⟩, "base/a/c"⟩ ∈ topDown ∧ ⟨⟨"/", ["a"]⟩, "base/a"⟩ ∉ topDown := by
  obtain ⟨topDown, bottomUp, after, after', htopDown, hbottomUp, -, hsame, hselects⟩ :=
    walk_reports_selected (shows_host_walk oneDirectory) isCalm_oneDirectory finite_oneDirectory
      () trivial
  refine ⟨topDown, bottomUp, after, after', htopDown, hbottomUp, hsame, ?_, ?_⟩
  · have hdirectory : oneDirectory.Visits ["a"] :=
      visits_append_singleton.2 ⟨.inl rfl, by decide⟩
    have hfile : oneDirectory.Visits ["a", "c"] :=
      visits_append_singleton.2 ⟨.inr ⟨hdirectory, by decide⟩, by decide⟩
    exact (hselects _).2 ⟨["a", "c"], hfile, by decide, by decide⟩
  · intro hreported
    obtain ⟨names, -, haccepts, hentry⟩ := (hselects _).1 hreported
    rw [← hentry] at haccepts
    exact absurd haccepts (by decide)

end FileSelection.Scene
