import FileSelection.CopyPlan
import FileSelection.Proofs.Path.Written
import FileSelection.Proofs.Sequence.Settings
import FileSelection.Proofs.Walk.BasePath

/-!
# Where copies go

As long as no reported path starts with a slash or leads upwards, all copies of what a collection
reports go to the chosen directory or below it.
-/

namespace FileSelection

open FileSelection.Path

/-- The path leads from the directory downwards, going by its names. -/
def Path.LiesBelow (path directory : Path) : Prop :=
  ∃ names, path = directory.below names ∧ ".." ∉ names

theorem CopyPlan.below_eq {directory : Path} {entry : Entry} (h : ¬ IsRooted entry.relative) :
    CopyPlan.below directory entry = directory.below (ofText entry.relative).names := by
  have hroot : (ofText entry.relative).root = "" := rootOf_eq_empty h
  unfold CopyPlan.below Path.join isAbsolute
  rw [hroot]
  rfl

/-- A copy that a plan has because of a reported entry. -/
def CopyPlan.IsReported (directory : Path) (copy : Path × Path) : Prop :=
  ∃ entry, copy = (entry.path, below directory entry) ∧ ¬ IsRooted entry.relative ∧
    (".." ∉ (ofText entry.relative).names → copy.2.LiesBelow directory)

section

variable {σ : Type} {host : Host σ}

theorem CopyPlan.keeps_add (host : Host σ) (sequence : Sequence σ Entry) (plan : CopyPlan)
    (directory : Path)
    (hvalue : ∀ entry before value after,
      sequence.value entry before = some (.ok (some value), after) → value = entry) :
    Walk.Keeps False
      (fun grown : CopyPlan =>
        ∀ copy ∈ grown.targets, copy ∈ plan.targets ∨ IsReported directory copy)
      (fun entry : Entry => do
        match ← (sequence.pick host entry).beside with
        | some value => Act.gather (·.add value.path (below directory value))
        | none => pure () : Entry → Act (CopyPlan × σ) Unit) := by
  intro entry gathered state result gathered' last hentry hgathered hvisit
  obtain ⟨found, middle, hdone, h⟩ | ⟨failure, middle, -, heq⟩ :=
    Act.beside_bind_eq_some_iff.1 hvisit
  · cases found with
    | none =>
        cases h
        exact hgathered
    | some value =>
        obtain ⟨before, hmade⟩ := Sequence.value_of_pick hdone
        obtain rfl := hvalue _ _ _ _ hmade
        cases h
        intro copy hcopy
        obtain rfl | hearlier := Keyed.mem_put hcopy
        · have hplain : ¬ IsRooted value.relative := fun hrooted => hentry.1 hrooted
          exact .inr ⟨value, rfl, hplain, fun hdown => ⟨_, below_eq hplain, hdown⟩⟩
        · exact hgathered copy hearlier
  · cases heq
    exact hgathered

theorem CopyPlan.targets_of_addCollection {collection : Collection σ} {plan grown : CopyPlan}
    {directory : Path} {failure : Option Failure} {state last : σ} (hhost : host.IsTidy)
    (hcollection : collection.StartsLike collection.basepath)
    (hbasepath : ¬ IsRooted collection.basepath)
    (h : addCollection host plan collection (below directory) state =
      some (.ok (grown, failure), last)) :
    ∀ copy ∈ grown.targets, copy ∈ plan.targets ∨ IsReported directory copy := by
  have hkeeps := keeps_add host (collection.pairs .any false) plan directory fun _ _ _ _ hvalue => by
    cases hvalue
    rfl
  have hkept {result : Except Failure Unit} {gathered : CopyPlan} {after : σ}
      (h : (collection.pairs .any false).forEach host collection
        (fun entry => Act.gather (·.add entry.path (below directory entry))) (plan, state) =
          some (result, gathered, after)) :
      ∀ copy ∈ gathered.targets, copy ∈ plan.targets ∨ IsReported directory copy :=
    Walk.Keeps.visitAll hhost hkeeps hcollection (iff_of_false hbasepath not_false)
      (fun copy hcopy => .inl hcopy) h
  obtain ⟨result, hforEach⟩ := Act.gatheringAll_eq_ok h
  exact hkept hforEach

/-- A reported relative path starts with a slash exactly if the base path does, whether the entries
are handed over by a traversal or asked for one after the other; what a list is made from may start
with slashes nevertheless.  If no base path does, all copies go to the chosen directory or below it,
except for relative paths that lead upwards. -/
theorem reported_paths_start_like_basepath (hhost : host.IsTidy) :
    (∀ (collection : Collection σ) (basepath : String) (bottomUp : Bool) (state last : σ)
        (result : Except Failure Unit) (reported : List Entry),
      collection.StartsLike basepath →
        collection.visitAll host basepath bottomUp (fun entry => Act.gather (entry :: ·))
          ([], state) = some (result, reported, last) →
          ∀ entry ∈ reported, IsRooted entry.relative ↔ IsRooted basepath) ∧
    (∀ {α : Type} (sequence : Sequence σ α) (label : α → String) (values : List α),
      (∀ entry before value after,
        sequence.value entry before = some (.ok (some value), after) →
          label value = entry.relative) →
        (Iteration.start sequence).Draws values →
          ∀ value ∈ values, IsRooted (label value) ↔ IsRooted sequence.basepath) ∧
    (∀ directory paths,
      (Collection.listed ((⟨directory, []⟩ : PathList).includes paths) :
        Collection σ).StartsLike "") ∧
    ∀ (collection : Collection σ) (plan grown : CopyPlan) (directory : Path)
        (failure : Option Failure) (state last : σ),
      collection.StartsLike collection.basepath → ¬ IsRooted collection.basepath →
        plan.addCollection host collection (CopyPlan.below directory) state =
          some (.ok (grown, failure), last) →
          ∀ copy ∈ grown.targets, copy ∈ plan.targets ∨ CopyPlan.IsReported directory copy := by
  refine ⟨?_, ?_, fun directory paths => PathList.startsLike_includes directory paths, ?_⟩
  · intro collection basepath bottomUp state last result reported hcollection h
    have hkeeps : Walk.Keeps (IsRooted basepath)
        (fun reported : List Entry =>
          ∀ entry ∈ reported, IsRooted entry.relative ↔ IsRooted basepath)
        (fun entry => Act.gather (entry :: ·) : Entry → Act (List Entry × σ) Unit) := by
      rintro entry gathered state result gathered' last hentry hgathered ⟨⟩
      exact List.forall_mem_cons.2 ⟨hentry, hgathered⟩
    exact Walk.Keeps.visitAll hhost hkeeps hcollection Iff.rfl (List.forall_mem_nil _) h
  · intro α sequence label values hlabel hdraws
    exact hdraws.startsLike trivial hlabel
  · intro collection plan grown directory failure state last hcollection hbasepath h
    exact CopyPlan.targets_of_addCollection hhost hcollection hbasepath h

end

/-! ## Two copies -/

def copyOf (directory : Path) (name : String) : Path × Path :=
  (⟨"/", [name]⟩, directory.below ["base", name])

theorem addCollection_twoFiles :
    CopyPlan.empty.addCollection twoFiles (.selected rootSelection)
        (CopyPlan.below (ofText "out")) () =
      some (.ok (⟨[copyOf (ofText "out") "a", copyOf (ofText "out") "b"]⟩, none), ()) := by
  have hnames : twoFiles.names ⟨"/", []⟩ () = some (.ok ["a", "b"], ()) := rfl
  have henter : (rootSelection.walk twoFiles false).perform twoFiles (.enter ⟨"/", []⟩ "base") () =
      some (.ok (none, [.visit ⟨⟨"/", ["a"]⟩, "base/a"⟩,
        .visit ⟨⟨"/", ["b"]⟩, "base/b"⟩]), ()) :=
    Walk.perform_enter_of_sorted "base" hnames (by decide)
  have hforEach : ((Collection.selected rootSelection).pairs .any false).forEach twoFiles
      (.selected rootSelection)
      (fun entry => Act.gather (·.add entry.path (CopyPlan.below (ofText "out") entry)))
        (CopyPlan.empty, ()) =
        some (.ok (), ⟨[copyOf (ofText "out") "a", copyOf (ofText "out") "b"]⟩, ()) :=
    Act.loop_eq_some_iff.2 <|
      .next (Act.bind_of_ok (Act.beside_eq_some_iff.2 ⟨henter, rfl⟩)) <|
        .next rfl <| .next rfl <| .next rfl <| .next rfl <| .next rfl <| .next rfl <| .value rfl
  unfold CopyPlan.addCollection Act.gatheringAll
  rw [hforEach]

theorem copies_of_two_files_lie_below :
    ∃ grown last, CopyPlan.empty.addCollection twoFiles (.selected rootSelection)
        (CopyPlan.below (ofText "out")) () = some (.ok (grown, none), last) ∧
      ∀ copy ∈ grown.targets, CopyPlan.IsReported (ofText "out") copy := by
  obtain ⟨-, -, -, hcopies⟩ := reported_paths_start_like_basepath isTidy_twoFiles
  refine ⟨_, _, addCollection_twoFiles, fun copy hcopy => ?_⟩
  have hcollection : (Collection.selected rootSelection).StartsLike
      (Collection.selected rootSelection).basepath := trivial
  have hplain : ¬ IsRooted "base" := by decide
  exact (hcopies _ _ _ _ _ _ _ hcollection hplain addCollection_twoFiles copy hcopy).resolve_left
    List.not_mem_nil

/-- A base path that starts with a slash shows in what is reported. -/
theorem rooted_basepath_is_reported :
    ¬ ∀ (basepath : String) (before after : Session Unit) (values : List String),
      ((Collection.selected (pairSelection basepath)).relatives .any false).toList Session.host
          (.selected (pairSelection basepath)) before = some (.ok values, after) →
        ∀ value ∈ values, ¬ IsRooted value := by
  intro h
  have hfiles : (Session.ofFiles FileSystem.filePair ()).files = .filePair := rfl
  have hvalues := toList_pairSelection hfiles "/p"
  exact h "/p" _ _ _ hvalues "/p/a" (by decide) (by decide)

end FileSelection
