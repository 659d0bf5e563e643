/-!
# Keyed lists

A keyed list gives values to keys and remembers the order in which the keys have come in; it is read
with `List.lookup`.  A key that gets another value keeps its place.  The main statements say what is
read after a value was put: the new value at the key (`lookup_put_self`), the old ones at all other
keys (`lookup_put_of_ne`), with no key lost or moved (`keys_put`).
-/

namespace FileSelection.Keyed

variable {κ α : Type} [BEq κ]

/-- Gives a key a value.  A new key comes last. -/
def put (key : κ) (value : α) : List (κ × α) → List (κ × α)
  | [] => [(key, value)]
  | (k, v) :: entries =>
      if key == k then (key, value) :: entries else (k, v) :: put key value entries

theorem mem_put {key : κ} {value : α} {entries : List (κ × α)} {entry : κ × α}
    (h : entry ∈ put key value entries) : entry = (key, value) ∨ entry ∈ entries := by
  induction entries with
  | nil => exact .inl (List.mem_singleton.1 h)
  | cons first entries ih =>
      obtain ⟨k, v⟩ := first
      rw [put] at h
      split at h
      · exact (List.mem_cons.1 h).imp_right (List.mem_cons_of_mem _)
      · obtain rfl | hrest := List.mem_cons.1 h
        · exact .inr List.mem_cons_self
        · exact (ih hrest).imp_right (List.mem_cons_of_mem _)

variable [LawfulBEq κ]

theorem mem_of_lookup {key : κ} {value : α} {entries : List (κ × α)}
    (h : entries.lookup key = some value) : (key, value) ∈ entries := by
  obtain ⟨front, back, rfl, -⟩ := List.lookup_eq_some_iff.1 h
  exact List.mem_append_cons_self

@[simp] theorem lookup_put_self (key : κ) (value : α) (entries : List (κ × α)) :
    (put key value entries).lookup key = some value := by
  induction entries with
  | nil => simp [put]
  | cons entry entries ih =>
      obtain ⟨k, v⟩ := entry
      cases h : key == k <;> simp [put, List.lookup_cons, h, ih]

theorem lookup_put_of_ne {key other : κ} (hne : other ≠ key) (value : α)
    (entries : List (κ × α)) : (put key value entries).lookup other = entries.lookup other := by
  have hother : (other == key) = false := beq_eq_false_iff_ne.mpr hne
  induction entries with
  | nil => simp [put, List.lookup_cons, hother]
  | cons entry entries ih =>
      obtain ⟨k, v⟩ := entry
      cases h : key == k with
      | false => simp [put, List.lookup_cons, h, ih]
      | true =>
          obtain rfl := eq_of_beq h
          simp [put, List.lookup_cons, hother]

theorem keys_put [DecidableEq κ] (key : κ) (value : α) (entries : List (κ × α)) :
    (put key value entries).map Prod.fst =
      if key ∈ entries.map Prod.fst then entries.map Prod.fst
      else entries.map Prod.fst ++ [key] := by
  induction entries with
  | nil => simp [put]
  | cons entry entries ih =>
      obtain ⟨k, v⟩ := entry
      cases h : key == k with
      | false =>
          have hne : key ≠ k := beq_eq_false_iff_ne.mp h
          simp only [put, h, List.map_cons, List.mem_cons, hne, false_or]
          rw [if_neg (by simp), List.map_cons, ih]
          split <;> rfl
      | true =>
          obtain rfl := eq_of_beq h
          simp [put]

end FileSelection.Keyed
