import FileSelection.Proofs.Walk.Steps

/-!
# A walk through a scene

A scene is a file system that does not change, with a walk whose decisions depend on the entry
alone.  Every question that the walk asks there has one answer.
-/

namespace FileSelection

open FileSelection.Path

structure Scene where
  names : Path → Except Failure (List String)
  /-- The status of a path, or with `false` the status of a link itself. -/
  status : Bool → Path → Except Failure Status
  accepts : Entry → Bool
  mayDescend : Entry → Bool
  followLinks : Bool
  directory : Path
  basepath : String
  tidy : ∀ {path found}, names path = .ok found → IsListing found

namespace Scene

def listing (scene : Scene) (path : Path) : List String :=
  match scene.names path with
  | .ok names => names
  | .error _ => []

def hasKind (scene : Scene) (follow : Bool) (kind : Kind) (path : Path) : Bool :=
  match scene.status follow path with
  | .ok status => status.kind == kind
  | .error _ => false

def isDescendable (scene : Scene) (path : Path) : Bool :=
  (scene.followLinks || !scene.hasKind false .link path) && scene.hasKind true .directory path

def entersInto (scene : Scene) (entry : Entry) : Bool :=
  scene.isDescendable entry.path && scene.mayDescend entry

def pathAt (scene : Scene) (names : List String) : Path := names.foldl child scene.directory

def entryAt (scene : Scene) (names : List String) : Entry :=
  ⟨scene.pathAt names, joinRelative scene.basepath ("/".intercalate names)⟩

/-- Each name is listed in the directory that the names before it lead to, and the walk may go into
each directory on the way. -/
structure Visits (scene : Scene) (names : List String) : Prop where
  nonempty : names ≠ []
  listed : ∀ above name, above ++ [name] <+: names → name ∈ scene.listing (scene.pathAt above)
  entered : ∀ above, above ≠ [] → above <+: names → above ≠ names →
    scene.entersInto (scene.entryAt above) = true

def Enters (scene : Scene) (names : List String) : Prop :=
  names = [] ∨ scene.Visits names ∧ scene.entersInto (scene.entryAt names) = true

def Selects (scene : Scene) (entry : Entry) : Prop :=
  ∃ names, scene.Visits names ∧ scene.accepts (scene.entryAt names) = true ∧
    entry = scene.entryAt names

def Tells (scene : Scene) (follow : Bool) (path : Path) : Prop :=
  ∀ failure, scene.status follow path = .error failure → Host.meansAbsent failure = true

/-- No question that the walk asks raises a failure. -/
structure IsCalm (scene : Scene) : Prop where
  listing : ∀ names failure, scene.Enters names →
    scene.names (scene.pathAt names) = .error failure → failure.isSystem = true
  link : ∀ names, scene.Visits names → scene.followLinks = false →
    scene.Tells false (scene.pathAt names)
  directory : ∀ names, scene.Visits names →
    scene.followLinks = true ∨ scene.hasKind false .link (scene.pathAt names) = false →
      scene.Tells true (scene.pathAt names)

/-- The host and the walk are those of the scene, as long as the state is steady. -/
structure Shows {σ : Type} (scene : Scene) (host : Host σ) (walk : Walk σ) (steady : σ → Prop) :
    Prop where
  names : ∀ path, Act.Answers steady (host.names path) (scene.names path)
  status : ∀ follow path, Act.Answers steady (host.status follow path) (scene.status follow path)
  note : ∀ note, Act.Answers steady (host.note note) (.ok ())
  accept : ∀ entry, Act.Answers steady (walk.accept entry) (.ok (scene.accepts entry))
  mayDescend : ∀ entry, Act.Answers steady (walk.mayDescend entry) (.ok (scene.mayDescend entry))
  followLinks : walk.followLinks = scene.followLinks
  lenient : walk.strict = false

/-! ## Names on the way -/

variable {scene : Scene} {names : List String}

@[simp]
theorem pathAt_append_singleton (scene : Scene) (names : List String) (name : String) :
    scene.pathAt (names ++ [name]) = (scene.pathAt names).child name := by
  simp [pathAt]

theorem visits_append_singleton {name : String} :
    scene.Visits (names ++ [name]) ↔
      scene.Enters names ∧ name ∈ scene.listing (scene.pathAt names) := by
  constructor
  · intro h
    refine ⟨?_, h.listed names name List.prefix_rfl⟩
    by_cases hbase : names = []
    · exact .inl hbase
    · have hvisits : scene.Visits names := by
        refine ⟨hbase, fun above last habove => ?_, fun above hne habove hproper => ?_⟩
        · exact h.listed above last (habove.trans (List.prefix_append _ _))
        · refine h.entered above hne (habove.trans (List.prefix_append _ _)) ?_
          rintro rfl
          exact absurd habove.length_le (by simp)
      have henters := h.entered names hbase (List.prefix_append _ _) (by simp)
      exact .inr ⟨hvisits, henters⟩
  · rintro ⟨henters, hname⟩
    refine ⟨by simp, fun above last habove => ?_, fun above hne habove hproper => ?_⟩
    · obtain heq | hwithin := List.prefix_concat_iff.1 habove
      · obtain ⟨rfl, rfl⟩ : above = names ∧ last = name := by simpa using heq
        exact hname
      · obtain rfl | ⟨hvisits, -⟩ := henters
        · simp at hwithin
        · exact hvisits.listed above last hwithin
    · obtain heq | hwithin := List.prefix_concat_iff.1 habove
      · exact absurd heq hproper
      · obtain rfl | ⟨hvisits, henters⟩ := henters
        · exact absurd (List.prefix_nil.1 hwithin) hne
        · by_cases hsame : above = names
          · rwa [hsame]
          · exact hvisits.entered above hne hwithin hsame

theorem Visits.valid (h : scene.Visits names) : ∀ name ∈ names, IsName name := by
  intro name hname
  obtain ⟨above, below, rfl⟩ := List.append_of_mem hname
  have hlisted := h.listed above name ⟨below, by simp⟩
  unfold listing at hlisted
  cases hnames : scene.names (scene.pathAt above) with
  | ok found =>
      rw [hnames] at hlisted
      exact (scene.tidy hnames).2 name hlisted
  | error failure =>
      rw [hnames] at hlisted
      cases hlisted

theorem Visits.entryAt_eq (h : scene.Visits names) :
    scene.entryAt names = ⟨scene.pathAt names, relativeOf scene.basepath names⟩ := by
  rw [entryAt, relativeOf_eq_joinRelative h.nonempty h.valid]

theorem Visits.entryOf_eq {name : String} (h : scene.Visits (names ++ [name])) :
    Walk.entryOf (scene.pathAt names) (relativeOf scene.basepath names) name =
      scene.entryAt (names ++ [name]) := by
  rw [h.entryAt_eq, pathAt_append_singleton, relativeOf_append_singleton]
  rfl

/-! ## Steps in a scene -/

section

variable {σ : Type} {host : Host σ} {walk : Walk σ} {steady : σ → Prop}
  (hshows : scene.Shows host walk steady)

include hshows

theorem Shows.answers_hasKind {follow : Bool} {path : Path} (kind : Kind)
    (htells : scene.Tells follow path) :
    Act.Answers steady (host.hasKind follow kind path) (.ok (scene.hasKind follow kind path)) := by
  have hattempt := (hshows.status follow path).attempt
  unfold Host.hasKind Host.status? hasKind
  cases hstatus : scene.status follow path with
  | ok status =>
      rw [hstatus] at hattempt
      exact .bind (.bind hattempt (.pure (some status))) (.pure _)
  | error failure =>
      rw [hstatus] at hattempt
      refine .bind (.bind hattempt ?_) (.pure (none.any fun status : Status => status.kind == kind))
      simp only [htells failure hstatus, if_true]
      exact .pure none

theorem Shows.answers_isDescendable (hcalm : scene.IsCalm) (h : scene.Visits names) :
    Act.Answers steady (walk.isDescendable host (scene.pathAt names))
      (.ok (scene.isDescendable (scene.pathAt names))) := by
  unfold Walk.isDescendable isDescendable
  rw [hshows.followLinks]
  cases hfollow : scene.followLinks with
  | true => exact hshows.answers_hasKind .directory (hcalm.directory names h (.inl hfollow))
  | false =>
      have hisLink := hshows.answers_hasKind .link (hcalm.link names h hfollow)
      refine .bind hisLink ?_
      cases hlink : scene.hasKind false .link (scene.pathAt names) with
      | true => exact .pure false
      | false => exact hshows.answers_hasKind .directory (hcalm.directory names h (.inr hlink))

theorem Shows.answers_entersInto (hcalm : scene.IsCalm) (h : scene.Visits names) :
    Act.Answers steady (walk.entersInto host (scene.entryAt names))
      (.ok (scene.entersInto (scene.entryAt names))) := by
  have hdescendable := hshows.answers_isDescendable hcalm h
  have hentry : (scene.entryAt names).path = scene.pathAt names := rfl
  unfold entersInto
  rw [hentry]
  cases hresult : scene.isDescendable (scene.pathAt names) with
  | true =>
      rw [hresult] at hdescendable
      exact .bind hdescendable (hshows.mayDescend (scene.entryAt names))
  | false =>
      rw [hresult] at hdescendable
      exact .bind hdescendable (.pure false)

theorem Shows.answers_listNames (hcalm : scene.IsCalm) (h : scene.Enters names) :
    Act.Answers steady (Walk.listNames host walk.strict (scene.pathAt names))
      (.ok (Walk.sortNames (scene.listing (scene.pathAt names)))) := by
  have hattempt := (hshows.names (scene.pathAt names)).attempt
  unfold Walk.listNames listing
  rw [hshows.lenient]
  cases hnames : scene.names (scene.pathAt names) with
  | ok found =>
      rw [hnames] at hattempt
      exact .bind hattempt (.pure (Walk.sortNames found))
  | error failure =>
      rw [hnames] at hattempt
      refine .bind hattempt ?_
      have hsystem := hcalm.listing names failure h hnames
      simp only [hsystem, Bool.false_or, Bool.not_true, Bool.false_eq_true, if_false]
      have hnothing : Walk.sortNames [] = [] := by simp [Walk.sortNames]
      rw [hnothing]
      exact .bind (hshows.note _) (.pure [])

end

end Scene

end FileSelection
