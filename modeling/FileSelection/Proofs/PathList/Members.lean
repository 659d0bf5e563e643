import FileSelection.Proofs.Walk.BasePath
import Mathlib.Data.Finset.Sort
import Mathlib.Data.String.Basic

/-!
# The members of a path list

Whatever is added to a path list and in whichever portions, its members are the added paths without
their leading slashes, each of them once and in ascending order.
-/

namespace FileSelection

open FileSelection.Path

namespace PathList

variable {σ : Type} {text member : String} {members : List String} {list : PathList}

/-! ## Adding paths -/

theorem mem_insert_iff : member ∈ insert text members ↔ member = text ∨ member ∈ members := by
  refine ⟨mem_insert, ?_⟩
  induction members with
  | nil => simp [insert]
  | cons first members ih =>
      rw [insert]
      split
      · exact List.mem_cons.2
      · rename_i hless
        split
        · rintro (heq | hmember)
          · exact List.mem_cons_of_mem _ (ih (.inl heq))
          · obtain rfl | hrest := List.mem_cons.1 hmember
            · exact List.mem_cons_self
            · exact List.mem_cons_of_mem _ (ih (.inr hrest))
        · rename_i hmore
          have heq : text = first := le_antisymm (not_lt.1 hmore) (not_lt.1 hless)
          rintro (rfl | hmember)
          · exact heq ▸ List.mem_cons_self
          · exact hmember

theorem sortedLT_insert (h : members.SortedLT) : (insert text members).SortedLT := by
  rw [List.sortedLT_iff_pairwise] at h ⊢
  induction members with
  | nil => exact List.pairwise_singleton _ _
  | cons first members ih =>
      obtain ⟨hfirst, hmembers⟩ := List.pairwise_cons.1 h
      rw [insert]
      split
      · rename_i hless
        refine List.pairwise_cons.2 ⟨List.forall_mem_cons.2 ⟨hless, fun other hother => ?_⟩, h⟩
        exact lt_trans hless (hfirst other hother)
      · split
        · rename_i hmore
          refine List.pairwise_cons.2 ⟨fun other hother => ?_, ih hmembers⟩
          obtain rfl | hother := mem_insert hother
          · exact hmore
          · exact hfirst other hother
        · exact h

theorem includes_append (list : PathList) (paths more : List String) :
    (list.includes paths).includes more = list.includes (paths ++ more) := by
  simp only [includes, List.foldl_append]

theorem mem_includes_iff {paths : List String} :
    member ∈ (list.includes paths).members ↔
      member ∈ paths.map relativePart ∨ member ∈ list.members := by
  induction paths generalizing list with
  | nil => simp [includes]
  | cons path paths ih =>
      have hsplit : list.includes (path :: paths) = (list.includes [path]).includes paths :=
        (includes_append list [path] paths).symm
      have hpath : member ∈ (list.includes [path]).members ↔
          member = relativePart path ∨ member ∈ list.members := mem_insert_iff
      rw [hsplit, ih, hpath, List.map_cons, List.mem_cons, or_left_comm, or_assoc]

theorem sortedLT_includes (h : list.members.SortedLT) (paths : List String) :
    (list.includes paths).members.SortedLT := by
  induction paths generalizing list with
  | nil => exact h
  | cons path paths ih =>
      have hpath : (list.includes [path]).members.SortedLT := sortedLT_insert h
      have hsplit : list.includes (path :: paths) = (list.includes [path]).includes paths :=
        (includes_append list [path] paths).symm
      rw [hsplit]
      exact ih hpath

/-! ## Several calls -/

def ofCalls (directory : Path) (calls : List (List String)) : PathList :=
  calls.foldl includes ⟨directory, []⟩

theorem make_eq_ofCalls (host : Host σ) (directory : String) (paths : List String) :
    make host directory paths =
      (fun path => ofCalls path [paths]) <$> checkDirectory host directory := rfl

theorem ofCalls_append_singleton (directory : Path) (calls : List (List String))
    (paths : List String) :
    ofCalls directory (calls ++ [paths]) = (ofCalls directory calls).includes paths := by
  simp [ofCalls]

theorem ofCalls_eq_includes (directory : Path) (calls : List (List String)) :
    ofCalls directory calls = (⟨directory, []⟩ : PathList).includes calls.flatten := by
  induction calls using List.reverseRecOn with
  | nil => rfl
  | append_singleton calls paths ih =>
      rw [ofCalls_append_singleton, ih, includes_append, List.flatten_append,
        List.flatten_singleton]

@[simp] theorem directory_ofCalls (directory : Path) (calls : List (List String)) :
    (ofCalls directory calls).directory = directory := by
  rw [ofCalls_eq_includes]
  rfl

theorem mem_ofCalls_iff {directory : Path} {calls : List (List String)} :
    member ∈ (ofCalls directory calls).members ↔ member ∈ calls.flatten.map relativePart := by
  rw [ofCalls_eq_includes, mem_includes_iff]
  exact or_iff_left List.not_mem_nil

theorem sortedLT_ofCalls (directory : Path) (calls : List (List String)) :
    (ofCalls directory calls).members.SortedLT := by
  rw [ofCalls_eq_includes]
  exact sortedLT_includes List.Pairwise.nil.sortedLT _

theorem not_isRooted_of_mem_ofCalls {directory : Path} {calls : List (List String)}
    (h : member ∈ (ofCalls directory calls).members) : ¬ IsRooted member := by
  obtain ⟨path, -, rfl⟩ := List.mem_map.1 (mem_ofCalls_iff.1 h)
  exact not_isRooted_relativePart path

theorem members_ofCalls (directory : Path) (calls : List (List String)) :
    (ofCalls directory calls).members =
      (calls.flatten.map relativePart).toFinset.sort (· ≤ ·) := by
  refine (sortedLT_ofCalls directory calls).eq_of_mem_iff (Finset.sortedLT_sort _) fun member => ?_
  rw [mem_ofCalls_iff, Finset.mem_sort, List.mem_toFinset]

theorem length_members_ofCalls (directory : Path) (calls : List (List String)) :
    (ofCalls directory calls).members.length = (calls.flatten.map relativePart).toFinset.card := by
  rw [members_ofCalls, Finset.length_sort]

end PathList

end FileSelection
