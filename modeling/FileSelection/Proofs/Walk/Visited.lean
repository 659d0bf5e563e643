import FileSelection.Proofs.Sequence.Interleaving
import FileSelection.Proofs.Walk.Strict

/-!
# Decisions on visited entries

A walk through a scene asks for decisions on the entries that it visits, and on no others.  What a
sequence gives is then determined by what is selected, since the order is fixed.
-/

namespace FileSelection

open FileSelection.Path

/-! ## Order -/

theorem precedes_asymm {bottomUp : Bool} {first second : List String}
    (h : Precedes bottomUp first second) : ¬ Precedes bottomUp second first := by
  have hlt : first < second → ¬ second < first := fun hlt => List.lt_asymm hlt
  intro h'
  cases bottomUp with
  | false => exact hlt h h'
  | true =>
      rcases h with ⟨habove, hne⟩ | ⟨hless, hapart⟩
      · rcases h' with ⟨habove', -⟩ | ⟨-, hapart'⟩
        · exact hne (habove.eq_of_length_le habove'.length_le)
        · exact hapart' habove
      · rcases h' with ⟨habove', -⟩ | ⟨hless', -⟩
        · exact hapart habove'
        · exact hlt hless hless'

theorem Walk.Course.eq_of_mem_iff {bottomUp : Bool} {directory : Path} {basepath : String}
    {entries others : List Entry} {following following' : List Task}
    (h : Course (Replaces bottomUp) (start directory basepath) entries following)
    (h' : Course (Replaces bottomUp) (start directory basepath) others following')
    (hmem : ∀ entry, entry ∈ entries ↔ entry ∈ others) : entries = others := by
  have hascends := h.namesBelow_ascends
  have hascends' := h'.namesBelow_ascends
  have hnodup : entries.Nodup := ((nodup_of_ascends hascends).of_map _).of_map _
  have hnodup' : others.Nodup := ((nodup_of_ascends hascends').of_map _).of_map _
  rw [List.map_map, List.pairwise_map] at hascends hascends'
  apply List.Perm.eq_of_pairwise _ hascends hascends'
  · exact (List.perm_ext_iff_of_nodup hnodup hnodup').2 hmem
  · intro a b _ _ hab hba
    exact absurd hba (precedes_asymm hab)

/-! ## Visited entries -/

namespace Scene

section

variable {σ : Type} {scene : Scene} {host : Host σ} {walk : Walk σ} {steady : σ → Prop}

/-- The host and the walk are those of the scene, as far as the walk asks for decisions. -/
structure ShowsVisited (scene : Scene) (host : Host σ) (walk : Walk σ) (steady : σ → Prop) :
    Prop where
  names : ∀ path, Act.Answers steady (host.names path) (scene.names path)
  status : ∀ follow path, Act.Answers steady (host.status follow path) (scene.status follow path)
  note : ∀ note, Act.Answers steady (host.note note) (.ok ())
  accept : ∀ names, scene.Visits names → Act.Answers steady (walk.accept (scene.entryAt names))
    (.ok (scene.accepts (scene.entryAt names)))
  mayDescend : ∀ names, scene.Visits names →
    Act.Answers steady (walk.mayDescend (scene.entryAt names))
      (.ok (scene.mayDescend (scene.entryAt names)))
  followLinks : walk.followLinks = scene.followLinks
  lenient : walk.strict = false

theorem Shows.visited (h : scene.Shows host walk steady) : scene.ShowsVisited host walk steady where
  names := h.names
  status := h.status
  note := h.note
  accept names _ := h.accept (scene.entryAt names)
  mayDescend names _ := h.mayDescend (scene.entryAt names)
  followLinks := h.followLinks
  lenient := h.lenient

theorem ShowsVisited.turned (h : scene.ShowsVisited host walk steady) (bottomUp : Bool) :
    scene.ShowsVisited host { walk with bottomUp } steady :=
  ⟨h.names, h.status, h.note, h.accept, h.mayDescend, h.followLinks, h.lenient⟩

def IsVisited (scene : Scene) (entry : Entry) : Prop :=
  ∃ names, scene.Visits names ∧ entry = scene.entryAt names

open Classical in
noncomputable def completed (scene : Scene) (walk : Walk σ) : Walk σ :=
  { walk with
    accept := fun entry =>
      if scene.IsVisited entry then walk.accept entry else pure (scene.accepts entry)
    mayDescend := fun entry =>
      if scene.IsVisited entry then walk.mayDescend entry else pure (scene.mayDescend entry) }

theorem ShowsVisited.completed (h : scene.ShowsVisited host walk steady) :
    scene.Shows host (scene.completed walk) steady where
  names := h.names
  status := h.status
  note := h.note
  accept entry := by
    simp only [Scene.completed]
    split
    · rename_i hvisited
      obtain ⟨names, hvisits, rfl⟩ := hvisited
      exact h.accept names hvisits
    · exact .pure _
  mayDescend entry := by
    simp only [Scene.completed]
    split
    · rename_i hvisited
      obtain ⟨names, hvisits, rfl⟩ := hvisited
      exact h.mayDescend names hvisits
    · exact .pure _
  followLinks := h.followLinks
  lenient := h.lenient

theorem perform_completed {task : Walk.Task} (hplaces : scene.Places task) :
    (scene.completed walk).perform host task = walk.perform host task := by
  cases task with
  | enter directory relative => rfl
  | visit entry => rfl
  | descend entry =>
      have hdecision : (scene.completed walk).mayDescend entry = walk.mayDescend entry := if_pos hplaces
      simp only [Walk.perform, Walk.entersInto, hdecision]
      rfl
  | report entry =>
      have hdecision : (scene.completed walk).accept entry = walk.accept entry := if_pos hplaces
      simp only [Walk.perform, hdecision]

theorem performs_completed_iff {task : Walk.Task} {found : Option Entry} {tasks : List Walk.Task}
    (hplaces : scene.Places task) :
    Performs host (scene.completed walk) steady task found tasks ↔
      Performs host walk steady task found tasks := by
  unfold Performs
  rw [perform_completed hplaces]

theorem ShowsVisited.course_of_completed {state : σ} {stack following : List Walk.Task}
    {entries : List Entry} (h : scene.ShowsVisited host walk steady) (hcalm : scene.IsCalm)
    (hstate : steady state)
    (hcourse : Walk.Course (Performs host (scene.completed walk) steady) stack entries following)
    (hplaces : ∀ task ∈ stack, scene.Places task) :
    Walk.Course (Performs host walk steady) stack entries following := by
  induction hcourse with
  | refl => exact .refl
  | step hperforms _ ih =>
      obtain ⟨hfirst, hrest⟩ := List.forall_mem_cons.1 hplaces
      have hnext := h.completed.places_of_performs hcalm hstate hfirst hperforms
      exact .step ((performs_completed_iff hfirst).1 hperforms)
        (ih (List.forall_mem_append.2 ⟨hnext, hrest⟩))

theorem ShowsVisited.course_strictly {state : σ} {stack following : List Walk.Task}
    {entries : List Entry} (h : scene.ShowsVisited host walk steady) (hcalm : scene.IsCalm)
    (hlists : ∀ names, scene.Enters names → scene.CanList (scene.pathAt names))
    (hstate : steady state)
    (hcourse : Walk.Course (Performs host walk steady) stack entries following)
    (hplaces : ∀ task ∈ stack, scene.Places task) :
    Walk.Course (Performs host walk.strictly steady) stack entries following := by
  induction hcourse with
  | refl => exact .refl
  | @step task _ _ _ _ _ hperforms _ ih =>
      obtain ⟨hfirst, hrest⟩ := List.forall_mem_cons.1 hplaces
      have hcompleted := (performs_completed_iff hfirst).2 hperforms
      have hnext := h.completed.places_of_performs hcalm hstate hfirst hcompleted
      have hlisted : scene.Lists task := by
        cases task with
        | enter directory relative =>
            obtain ⟨names, henters, rfl, -⟩ := hfirst
            exact hlists names henters
        | visit entry | descend entry | report entry => trivial
      have hstrict : Performs host (scene.completed walk.strictly) steady task _ _ :=
        h.completed.performs_strictly hstate ⟨hlisted, hcompleted⟩
      exact .step ((performs_completed_iff hfirst).1 hstrict)
        (ih (List.forall_mem_append.2 ⟨hnext, hrest⟩))

theorem ShowsVisited.course {state : σ} (h : scene.ShowsVisited host walk steady)
    (hcalm : scene.IsCalm) (hfinite : {names | scene.Visits names}.Finite) (hstate : steady state) :
    Walk.Ends (Performs host walk steady) (Walk.start scene.directory scene.basepath)
      scene.Selects := by
  obtain ⟨entries, hcourse, hentries⟩ := h.completed.course hcalm hfinite
  exact ⟨entries, h.course_of_completed hcalm hstate hcourse places_start, hentries⟩

end

/-! ## What a sequence gives -/

section

variable {σ α : Type} {host : Host σ} {walk : Walk σ} {steady : σ → Prop}
  {pick : Entry → Act σ (Option α)} {value : Entry → Option α}

theorem follow_handOver {task : Walk.Task} {tasks rest : List Walk.Task} {found : Option Entry}
    {state : σ} (hperforms : Performs host walk steady task found tasks)
    (hpick : ∀ entry ∈ found, Act.Answers steady (pick entry) (.ok (value entry)))
    (hstate : steady state) (gathered : List α) :
    ∃ middle, steady middle ∧
      walk.follow host (fun entry => Act.handOver (pick entry)) (task :: rest) (gathered, state) =
        some (.ok (.inl (tasks ++ rest)), (found.bind value).toList ++ gathered, middle) := by
  obtain ⟨middle, hmiddle, hperform⟩ := hperforms state hstate
  have hbeside : (walk.perform host task).beside (gathered, state) =
      some (.ok (found, tasks), gathered, middle) :=
    Act.beside_eq_some_iff.2 ⟨hperform, rfl⟩
  rw [Walk.follow, Act.bind_of_ok hbeside]
  cases found with
  | none => exact ⟨middle, hmiddle, rfl⟩
  | some entry =>
      obtain ⟨last, hlast, hhands⟩ := Act.answers_handOver (hpick entry rfl) hmiddle gathered
      exact ⟨last, hlast, Act.bind_of_ok hhands⟩

theorem loop_handOver {stack : List Walk.Task} {entries : List Entry} {state : σ}
    (h : Walk.Course (Performs host walk steady) stack entries [])
    (hpick : ∀ entry ∈ entries, Act.Answers steady (pick entry) (.ok (value entry)))
    (hstate : steady state) (gathered : List α) :
    ∃ after, steady after ∧
      Act.Step.loop (walk.follow host fun entry => Act.handOver (pick entry)) stack (gathered, state) =
        some (.ok (), (entries.filterMap value).reverse ++ gathered, after) := by
  generalize hlast : [] = last at h
  induction h generalizing gathered state with
  | refl =>
      subst hlast
      exact ⟨state, hstate, Act.loop_of_value rfl⟩
  | @step task tasks rest stack found entries hperforms _ ih =>
      subst hlast
      obtain ⟨hfound, hentries⟩ := List.forall_mem_append.1 hpick
      obtain ⟨middle, hmiddle, hstep⟩ :=
        follow_handOver hperforms (by simpa using hfound) hstate gathered
      obtain ⟨after, hafter, hloop⟩ := ih hentries hmiddle _ rfl
      refine ⟨after, hafter, ?_⟩
      rw [Act.loop_of_next hstep, hloop]
      cases found with
      | none => rfl
      | some entry => cases hvalue : value entry <;> simp [hvalue]

theorem answers_toList {sequence : Sequence σ α} {selection : Selection σ} {entries : List Entry}
    (h : Walk.Course (Performs host (selection.walk host sequence.bottomUp) steady)
      (Walk.start selection.directory sequence.basepath) entries [])
    (hpick : ∀ entry ∈ entries, Act.Answers steady (sequence.pick host entry) (.ok (value entry))) :
    Act.Answers steady (sequence.toList host (.selected selection))
      (.ok (entries.filterMap value)) := by
  intro state hstate
  obtain ⟨after, hafter, hloop⟩ := loop_handOver h hpick hstate []
  rw [List.append_nil] at hloop
  exact ⟨after, hafter, Sequence.toList_eq_ok_iff.2 hloop⟩

theorem ShowsVisited.reads {scene : Scene} {sequence : Sequence σ α} {selection : Selection σ}
    {state : σ} (h : scene.ShowsVisited host (selection.walk host sequence.bottomUp) steady)
    (hcalm : scene.IsCalm) (hfinite : {names | scene.Visits names}.Finite) (hstate : steady state)
    (hdirectory : scene.directory = selection.directory)
    (hbasepath : scene.basepath = sequence.basepath)
    (hpick : ∀ entry, scene.Selects entry →
      Act.Answers steady (sequence.pick host entry) (.ok (value entry))) :
    ∃ entries, Walk.Course (Walk.Replaces sequence.bottomUp)
        (Walk.start scene.directory scene.basepath) entries [] ∧
      (∀ entry, entry ∈ entries ↔ scene.Selects entry) ∧
      Act.Answers steady (sequence.toList host (.selected selection))
        (.ok (entries.filterMap value)) := by
  obtain ⟨entries, hcourse, hentries⟩ := h.course hcalm hfinite hstate
  refine ⟨entries, hcourse.mono (replaces_of_performs h.names hstate), hentries, ?_⟩
  rw [hdirectory, hbasepath] at hcourse
  exact answers_toList hcourse fun entry hentry => hpick entry ((hentries entry).1 hentry)

end

end Scene

end FileSelection
