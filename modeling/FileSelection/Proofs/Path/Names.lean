import FileSelection.Path
import FileSelection.Proofs.Text.Segments
import Mathlib.Data.List.Induction

/-!
# Relative paths as lists of names

A relative path below a base path is made from names that hold no slash, and is read back as the
list of these names.
-/

namespace FileSelection.Path

open FileSelection.Text

structure IsName (name : String) : Prop where
  nonempty : name ≠ ""
  noSlash : '/' ∉ name.toList

/-- The relative path of names below a base path. -/
def relativeOf (basepath : String) (names : List String) : String :=
  names.foldl joinRelative basepath

def namesBelow (basepath relative : String) : List String :=
  let skipped := if basepath = "" then 0 else basepath.length + 1
  (splitAt ['/'] (relative.toList.drop skipped)).map String.ofList

theorem toList_joinRelative (above name : String) :
    (joinRelative above name).toList =
      if above = "" then name.toList else above.toList ++ '/' :: name.toList := by
  unfold joinRelative
  by_cases h : above = ""
  · simp [h]
  · simp [h, toString]

@[simp]
theorem relativeOf_nil (basepath : String) : relativeOf basepath [] = basepath := rfl

@[simp]
theorem relativeOf_append_singleton (basepath : String) (names : List String) (name : String) :
    relativeOf basepath (names ++ [name]) = joinRelative (relativeOf basepath names) name := by
  simp [relativeOf]

theorem joined_map_append_singleton {names : List String} (hne : names ≠ []) (name : String) :
    joined ((names ++ [name]).map String.toList) =
      joined (names.map String.toList) ++ '/' :: name.toList := by
  rw [List.map_append, joined_append (by simpa using hne) (by simp)]
  simp

theorem toList_relativeOf {basepath : String} {names : List String} (hne : names ≠ [])
    (hnames : ∀ name ∈ names, IsName name) :
    (relativeOf basepath names).toList =
      (if basepath = "" then [] else basepath.toList ++ ['/']) ++
        joined (names.map String.toList) := by
  induction names using List.reverseRecOn with
  | nil => exact absurd rfl hne
  | append_singleton names name ih =>
      rw [relativeOf_append_singleton, toList_joinRelative]
      by_cases hfirst : names = []
      · subst hfirst
        rw [relativeOf_nil]
        split <;> simp
      · have habove := ih hfirst fun n hn => hnames n (by simp [hn])
        have hjoined := joined_map_append_singleton hfirst name
        have hsegments : ∀ segment ∈ names.map String.toList, segment ≠ [] := by
          simpa using fun n hn => (hnames n (by simp [hn])).nonempty
        have hneAbove : relativeOf basepath names ≠ "" := by
          intro heq
          have hnil := joined_ne_nil (by simpa using hfirst) hsegments
          rw [heq] at habove
          simp_all
        rw [if_neg hneAbove, habove, hjoined]
        simp

theorem relativeOf_eq_joinRelative {basepath : String} {names : List String} (hne : names ≠ [])
    (hnames : ∀ name ∈ names, IsName name) :
    relativeOf basepath names = joinRelative basepath ("/".intercalate names) := by
  have hbelow : ("/".intercalate names).toList = joined (names.map String.toList) :=
    String.toList_intercalate
  rw [← String.toList_inj, toList_relativeOf hne hnames, toList_joinRelative, hbelow]
  split <;> simp

theorem namesBelow_relativeOf {basepath : String} {names : List String} (hne : names ≠ [])
    (hnames : ∀ name ∈ names, IsName name) :
    namesBelow basepath (relativeOf basepath names) = names := by
  have hslash : ∀ segment ∈ names.map String.toList, '/' ∉ segment := by
    simpa using fun name hname => (hnames name hname).noSlash
  have hsplit := splitAt_joined (by simpa using hne) hslash
  unfold namesBelow
  rw [toList_relativeOf hne hnames]
  split
  · simp [hsplit]
  · have hdrop (rest : List Char) :
        (basepath.toList ++ ['/'] ++ rest).drop (basepath.length + 1) = rest :=
      List.drop_left' (by simp [String.length_toList])
    simp only [hdrop, hsplit]
    simp

end FileSelection.Path
