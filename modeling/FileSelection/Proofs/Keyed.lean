import FileSelection.Keyed
import Mathlib.Data.List.Induction
import Mathlib.Data.List.Nodup

/-!
# Many values put one after the other

When values are put one after the other, the last one of each key counts, at the place where the key
has first come in.  As long as no key comes twice, nothing is lost and the order stays.
-/

namespace FileSelection.Keyed

variable {κ α : Type} [BEq κ] [LawfulBEq κ] {key : κ} {value : α} {entries more : List (κ × α)}

theorem lookup_foldl_put (more entries : List (κ × α)) (key : κ) :
    (more.foldl (fun found entry => put entry.1 entry.2 found) entries).lookup key =
      (more.reverse.lookup key).or (entries.lookup key) := by
  induction more generalizing entries with
  | nil => rfl
  | cons entry more ih =>
      obtain ⟨k, v⟩ := entry
      rw [List.foldl_cons, ih, List.reverse_cons, List.lookup_append, Option.or_assoc]
      congr 1
      by_cases hkey : key = k
      · subst hkey
        simp
      · have hbeq : (key == k) = false := beq_eq_false_iff_ne.2 hkey
        simp [lookup_put_of_ne hkey, List.lookup_cons, hbeq]

theorem nodup_keys_put [DecidableEq κ] (h : (entries.map Prod.fst).Nodup) (key : κ) (value : α) :
    ((put key value entries).map Prod.fst).Nodup := by
  rw [keys_put]
  split
  · exact h
  · rename_i hnew
    rw [← List.concat_eq_append]
    exact h.concat hnew

theorem nodup_keys_foldl_put [DecidableEq κ] (h : (entries.map Prod.fst).Nodup) :
    ((more.foldl (fun found entry => put entry.1 entry.2 found) entries).map Prod.fst).Nodup := by
  induction more generalizing entries with
  | nil => exact h
  | cons entry more ih => exact ih (nodup_keys_put h entry.1 entry.2)

theorem lookup_eq_some_iff_mem (h : (entries.map Prod.fst).Nodup) :
    entries.lookup key = some value ↔ (key, value) ∈ entries := by
  refine ⟨mem_of_lookup, fun hmem => ?_⟩
  obtain ⟨front, back, rfl⟩ := List.append_of_mem hmem
  rw [List.map_append, List.map_cons, List.nodup_append'] at h
  refine List.lookup_eq_some_iff.2 ⟨front, back, rfl, fun entry hentry => ?_⟩
  have hkey : entry.1 ∉ key :: back.map Prod.fst :=
    List.disjoint_left.1 h.2.2 (List.mem_map_of_mem hentry)
  exact bne_iff_ne.2 fun heq => hkey (heq ▸ List.mem_cons_self)

theorem put_of_not_mem (h : key ∉ entries.map Prod.fst) (value : α) :
    put key value entries = entries ++ [(key, value)] := by
  induction entries with
  | nil => rfl
  | cons entry entries ih =>
      obtain ⟨k, v⟩ := entry
      rw [List.map_cons, List.mem_cons, not_or] at h
      rw [put, if_neg (by simpa using h.1), ih h.2, List.cons_append]

theorem foldl_put_of_nodup (h : ((entries ++ more).map Prod.fst).Nodup) :
    more.foldl (fun found entry => put entry.1 entry.2 found) entries = entries ++ more := by
  induction more generalizing entries with
  | nil => rw [List.foldl_nil, List.append_nil]
  | cons entry more ih =>
      have hsplit : entries ++ entry :: more = entries ++ [entry] ++ more := by simp
      rw [hsplit] at h ⊢
      have hnew : entry.1 ∉ entries.map Prod.fst := by
        rw [List.map_append, List.map_append, List.nodup_append', List.nodup_append'] at h
        exact fun hmem => List.disjoint_left.1 h.1.2.2 hmem (by simp)
      rw [List.foldl_cons, put_of_not_mem hnew]
      exact ih h

/-! ## Some of the keys -/

theorem filter_put (keep : κ → Bool) (key : κ) (value : α) (entries : List (κ × α)) :
    (put key value entries).filter (fun entry => keep entry.1) =
      if keep key then put key value (entries.filter fun entry => keep entry.1)
      else entries.filter fun entry => keep entry.1 := by
  induction entries with
  | nil => cases hkeep : keep key <;> simp [put, hkeep]
  | cons entry entries ih =>
      obtain ⟨k, v⟩ := entry
      rw [put]
      by_cases hkey : key = k
      · subst hkey
        cases hkeep : keep key <;> simp [put, hkeep]
      · rw [if_neg (by simpa using hkey), List.filter_cons, ih]
        cases hkeep : keep key <;> cases hk : keep k <;> simp [put, hk, hkey]

theorem filter_foldl_put (keep : κ → Bool) (more entries : List (κ × α)) :
    (more.foldl (fun found entry => put entry.1 entry.2 found) entries).filter
        (fun entry => keep entry.1) =
      (more.filter fun entry => keep entry.1).foldl (fun found entry => put entry.1 entry.2 found)
        (entries.filter fun entry => keep entry.1) := by
  induction more generalizing entries with
  | nil => rfl
  | cons entry more ih =>
      rw [List.foldl_cons, ih, filter_put]
      cases hkeep : keep entry.1 with
      | true => simp [hkeep]
      | false => simp [hkeep]

theorem lookup_filter (keep : κ → Bool) (h : keep key = true) (entries : List (κ × α)) :
    (entries.filter fun entry => keep entry.1).lookup key = entries.lookup key := by
  induction entries with
  | nil => rfl
  | cons entry entries ih =>
      obtain ⟨k, v⟩ := entry
      by_cases hkey : key = k
      · subst hkey
        simp [h]
      · have hbeq : (key == k) = false := beq_eq_false_iff_ne.2 hkey
        cases hk : keep k <;> simp [hk, List.lookup_cons, hbeq, ih]

/-! ## The order of the keys -/

theorem keys_foldl_put [DecidableEq κ] (more : List (κ × α)) :
    (more.foldl (fun found entry => put entry.1 entry.2 found) []).map Prod.fst =
      (more.map Prod.fst).eraseDups := by
  induction more using List.reverseRecOn with
  | nil => rfl
  | append_singleton more entry ih =>
      rw [List.foldl_append, List.foldl_cons, List.foldl_nil, keys_put, ih, List.map_append,
        List.eraseDups_append]
      by_cases hkey : entry.1 ∈ more.map Prod.fst
      · simp [List.removeAll, hkey]
      · simp [List.removeAll, hkey, List.eraseDups_cons]

theorem getLast?_foldl_put [DecidableEq κ] (more : List (κ × α)) :
    (more.foldl (fun found entry => put entry.1 entry.2 found) []).getLast? =
      (more.map Prod.fst).eraseDups.getLast?.bind fun key =>
        (more.reverse.lookup key).map (Prod.mk key) := by
  rw [← keys_foldl_put, List.getLast?_map]
  cases hlast : (more.foldl (fun found entry => put entry.1 entry.2 found) []).getLast? with
  | none => rfl
  | some last =>
      have hnodup : ((more.foldl (fun found entry => put entry.1 entry.2 found) []).map
          Prod.fst).Nodup := nodup_keys_foldl_put List.nodup_nil
      have hlookup := (lookup_eq_some_iff_mem hnodup).2 (List.mem_of_getLast? hlast)
      rw [lookup_foldl_put, List.lookup_nil, Option.or_none] at hlookup
      simp [hlookup]

end FileSelection.Keyed
