import FileSelection.Proofs.Keyed
import FileSelection.Proofs.PathList.Handles
import FileSelection.Proofs.Walk.Entries

/-!
# Plans that are turned round

A selection reports every entry once, under names of its own, and the names of an entry can be read
back from its target.  So a plan that is made from one selection has a target of its own for each
source, and nothing is lost when it is turned round.
-/

namespace FileSelection

open FileSelection.Path

/-! ## Targets of different names -/

section

variable {basepath text : String} {names others : List String}

theorem Path.isRooted_relativeOf (hnames : ∀ name ∈ names, IsName name) :
    IsRooted (relativeOf basepath names) ↔ IsRooted basepath := by
  induction names using List.reverseRecOn with
  | nil => exact Iff.rfl
  | append_singleton names name ih =>
      rw [relativeOf_append_singleton, isRooted_joinRelative (hnames name (by simp))]
      exact ih fun other hother => hnames other (by simp [hother])

theorem Path.isAbsolute_ofText_iff : (ofText text).isAbsolute = true ↔ IsRooted text := by
  have hroot : (ofText text).isAbsolute = true ↔ rootOf text.toList ≠ "" := by
    simp [isAbsolute, ofText]
  rw [hroot]
  constructor
  · intro h
    by_contra hrooted
    exact h (rootOf_eq_empty hrooted)
  · intro h
    obtain ⟨rest, hrest⟩ := List.head?_eq_some_iff.1 h
    rw [hrest]
    unfold rootOf
    split <;> simp_all

theorem Path.names_join (path below : Path) :
    (path.join below).names =
      if below.isAbsolute then below.names else path.names ++ below.names := by
  unfold join
  split <;> rfl

theorem CopyPlan.below_entryBelow_inj {directory base : Path} (hne : names ≠ [])
    (hnames : ∀ name ∈ names, IsEntryName name) (hne' : others ≠ [])
    (hothers : ∀ name ∈ others, IsEntryName name)
    (h : below directory (Walk.entryBelow base basepath names) =
      below directory (Walk.entryBelow base basepath others)) : names = others := by
  have hread {names : List String} (hne : names ≠ []) (hnames : ∀ name ∈ names, IsEntryName name) :
      (below directory (Walk.entryBelow base basepath names)).names =
        (if IsRooted basepath then [] else directory.names) ++ namesOf basepath.toList ++
          names := by
    have hvalid : ∀ name ∈ names, IsName name := fun name hname => (hnames name hname).toIsName
    have hbelow : (ofText (relativeOf basepath names)).names = namesOf basepath.toList ++ names :=
      namesOf_relativeOf hne fun name hname => ⟨hvalid name hname, (hnames name hname).notSelf⟩
    have habsolute : (ofText (relativeOf basepath names)).isAbsolute = true ↔ IsRooted basepath :=
      isAbsolute_ofText_iff.trans (isRooted_relativeOf hvalid)
    unfold below Walk.entryBelow
    rw [names_join, hbelow]
    by_cases hrooted : IsRooted basepath
    · rw [if_pos (habsolute.2 hrooted), if_pos hrooted, List.nil_append]
    · rw [if_neg fun hroot => hrooted (habsolute.1 hroot), if_neg hrooted, List.append_assoc]
  have hsame := congrArg Path.names h
  rw [hread hne hnames, hread hne' hothers] at hsame
  exact List.append_cancel_left hsame

end

/-! ## Plans without a target that occurs twice -/

namespace CopyPlan

variable {plan : CopyPlan}

theorem reversed_eq_map_swap (h : (plan.targets.map Prod.snd).Nodup) :
    plan.reversed = plan.targets.map Prod.swap := by
  have hput : plan.reversed = (plan.targets.map Prod.swap).foldl
      (fun found entry => Keyed.put entry.1 entry.2 found) [] := by
    rw [List.foldl_map]
    rfl
  rw [hput, Keyed.foldl_put_of_nodup, List.nil_append]
  rw [List.nil_append, List.map_map]
  exact h

theorem reversed_reversed (hsources : (plan.targets.map Prod.fst).Nodup)
    (htargets : (plan.targets.map Prod.snd).Nodup) :
    (⟨plan.reversed⟩ : CopyPlan).reversed = plan.targets := by
  have hswapped : ((⟨plan.reversed⟩ : CopyPlan).targets.map Prod.snd).Nodup := by
    rw [reversed_eq_map_swap htargets, List.map_map]
    exact hsources
  rw [reversed_eq_map_swap hswapped, reversed_eq_map_swap htargets, List.map_map]
  exact List.map_id plan.targets

theorem targets_foldl_add {entries : List Entry} (target : Entry → Path)
    (h : (plan.targets.map Prod.fst ++ entries.map (·.path)).Nodup) :
    (entries.foldl (fun grown entry => grown.add entry.path (target entry)) plan).targets =
      plan.targets ++ entries.map fun entry => (entry.path, target entry) := by
  have hput :
      (entries.foldl (fun grown entry => grown.add entry.path (target entry)) plan).targets =
        (entries.map fun entry => (entry.path, target entry)).foldl
          (fun found entry => Keyed.put entry.1 entry.2 found) plan.targets := by
    clear h
    induction entries generalizing plan with
    | nil => rfl
    | cons entry entries ih => exact ih
  rw [hput]
  apply Keyed.foldl_put_of_nodup
  rw [List.map_append, List.map_map]
  exact h

end CopyPlan

/-! ## The plan of one selection -/

section

variable {σ α : Type} {host : Host σ}

theorem Sequence.toList_of_readAll {sequence : Sequence σ α} {collection : Collection σ}
    {values : List α} {state last : σ}
    (h : sequence.readAll host collection state = some (.ok (values, none), last)) :
    sequence.toList host collection state = some (.ok values, last) := by
  unfold readAll at h
  unfold toList
  rw [map_eq_pure_bind] at h
  obtain ⟨⟨gathered, failure⟩, middle, hgathered, hvalues⟩ := Act.bind_eq_ok_iff.1 h
  cases hvalues
  refine Act.map_of_ok ?_
  unfold Act.gatheringAll at hgathered
  unfold Act.gathering
  split at hgathered
  · rename_i hforEach
    cases hgathered
    rw [hforEach]
    rfl
  · cases hgathered
  · cases hgathered

theorem Selection.exists_names_of_readAll (hhost : host.ListsEntries) {selection : Selection σ}
    {entries : List Entry} {failure : Option Failure} {state last : σ}
    (h : ((Collection.selected selection).pairs .any false).readAll host (.selected selection)
      state = some (.ok (entries, failure), last)) :
    ∃ named : List (List String),
      entries = named.map (Walk.entryBelow selection.directory selection.basepath) ∧
        named.Nodup ∧ ∀ names ∈ named, names ≠ [] ∧ ∀ name ∈ names, IsEntryName name := by
  unfold Sequence.readAll at h
  rw [map_eq_pure_bind, Collection.forEach_pairs] at h
  obtain ⟨⟨gathered, ending⟩, middle, hgathered, hentries⟩ := Act.bind_eq_ok_iff.1 h
  cases hentries
  obtain ⟨result, hloop⟩ := Act.gatheringAll_eq_ok hgathered
  obtain ⟨entries, following, hcourse, rfl, -⟩ := Walk.course_of_loop hloop
  obtain ⟨named, rfl, hascends, hvalid⟩ := hcourse.exists_names hhost
  refine ⟨named, ?_, nodup_of_ascends hascends, hvalid⟩
  rw [List.append_nil, List.reverse_reverse]
  rfl

/-- A plan that is made from one selection, whatever its base path and its rules are and whatever
happens meanwhile, has an entry for each reported pair, in the same order.  No two entries have the
same target: turned round, the plan has as many entries in the same order, and turned round twice it
is as it was.  That holds also of what has been added when reading the selection fails. -/
theorem plan_of_selection_can_be_reversed (hhost : host.ListsEntries) (selection : Selection σ)
    (directory : Path) {plan : CopyPlan} {failure : Option Failure} {state last : σ}
    (h : CopyPlan.empty.addCollection host (.selected selection) (CopyPlan.below directory) state =
      some (.ok (plan, failure), last)) :
    ∃ entries,
      ((Collection.selected selection).pairs .any false).readAll host (.selected selection) state =
        some (.ok (entries, failure), last) ∧
      (failure = none →
        ((Collection.selected selection).pairs .any false).toList host (.selected selection) state =
          some (.ok entries, last)) ∧
      plan.targets = entries.map (fun entry => (entry.path, CopyPlan.below directory entry)) ∧
      (plan.targets.map Prod.snd).Nodup ∧
      plan.reversed = plan.targets.map Prod.swap ∧
      (⟨plan.reversed⟩ : CopyPlan).reversed = plan.targets := by
  rw [CopyPlan.addCollection_eq, map_eq_pure_bind] at h
  obtain ⟨⟨entries, ending⟩, middle, hread, hplan⟩ := Act.bind_eq_ok_iff.1 h
  cases hplan
  obtain ⟨named, hnamed, hnodup, hvalid⟩ := Selection.exists_names_of_readAll hhost hread
  have hsources : (entries.map (·.path)).Nodup := by
    rw [hnamed, List.map_map]
    exact (List.nodup_map_iff (below_injective selection.directory)).2 hnodup
  have htargets : (entries.map (CopyPlan.below directory)).Nodup := by
    rw [hnamed, List.map_map]
    refine (List.nodup_map_iff_inj_on hnodup).2 fun names hnames others hothers hsame => ?_
    obtain ⟨hne, hentry⟩ := hvalid names hnames
    obtain ⟨hne', hentry'⟩ := hvalid others hothers
    exact CopyPlan.below_entryBelow_inj hne hentry hne' hentry' hsame
  have hplan : (entries.foldl (fun grown entry =>
      grown.add entry.path (CopyPlan.below directory entry)) CopyPlan.empty).targets =
        entries.map fun entry => (entry.path, CopyPlan.below directory entry) :=
    CopyPlan.targets_foldl_add _ hsources
  refine ⟨entries, hread, ?_, hplan, ?_, ?_, ?_⟩
  · rintro rfl
    exact Sequence.toList_of_readAll hread
  · rw [hplan, List.map_map]
    exact htargets
  · apply CopyPlan.reversed_eq_map_swap
    rw [hplan, List.map_map]
    exact htargets
  · apply CopyPlan.reversed_reversed
    · rw [hplan, List.map_map]
      exact hsources
    · rw [hplan, List.map_map]
      exact htargets

end

/-! ## Two copies turned round -/

theorem listsEntries_twoFiles : twoFiles.ListsEntries := by
  rintro _ _ _ _ ⟨⟩
  refine ⟨by decide, List.forall_mem_cons.2 ⟨?_, List.forall_mem_singleton.2 ?_⟩⟩
  · exact ⟨⟨by decide, by decide⟩, by decide, by decide⟩
  · exact ⟨⟨by decide, by decide⟩, by decide, by decide⟩

theorem two_copies_are_reversed :
    ∃ plan last, CopyPlan.empty.addCollection twoFiles (.selected rootSelection)
        (CopyPlan.below (ofText "out")) () = some (.ok (plan, none), last) ∧
      plan.reversed = [(copyOf (ofText "out") "a").swap, (copyOf (ofText "out") "b").swap] ∧
      (⟨plan.reversed⟩ : CopyPlan).reversed = plan.targets := by
  obtain ⟨entries, -, -, -, -, hreversed, htwice⟩ := plan_of_selection_can_be_reversed
    listsEntries_twoFiles rootSelection (ofText "out") addCollection_twoFiles
  exact ⟨_, _, addCollection_twoFiles, hreversed, htwice⟩

end FileSelection
