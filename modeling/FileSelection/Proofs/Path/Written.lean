import FileSelection.Proofs.Path.Names

/-!
# Written paths

A path that comes from a text has one of three roots, and names that could be names of entries.  The
paths below it are made by adding names at the end.
-/

namespace FileSelection.Path

open FileSelection.Text

structure IsWritten (path : Path) : Prop where
  root : path.root ∈ ["", "/", "//"]
  names : ∀ name ∈ path.names, IsName name ∧ name ≠ "."

/-- The path of what names lead to from a path. -/
def below (path : Path) (names : List String) : Path := { path with names := path.names ++ names }

@[simp]
theorem below_nil (path : Path) : path.below [] = path := by
  simp [below]

theorem mem_namesOf_iff {text : List Char} {name : String} :
    name ∈ namesOf text ↔
      name.toList ∈ splitAt ['/'] text ∧ name.toList ≠ [] ∧ name.toList ≠ ['.'] := by
  simp only [namesOf, List.mem_map, List.mem_filter, Bool.and_eq_true, Bool.not_eq_true',
    List.isEmpty_eq_false_iff, bne_iff_ne]
  constructor
  · rintro ⟨segment, hsegment, rfl⟩
    simpa using hsegment
  · intro h
    exact ⟨name.toList, h, by simp⟩

theorem isName_of_mem_namesOf {text : List Char} {name : String} (h : name ∈ namesOf text) :
    IsName name := by
  obtain ⟨hsegment, hne, -⟩ := mem_namesOf_iff.1 h
  exact ⟨by rintro rfl; exact hne rfl, slash_not_mem_of_mem_splitAt hsegment⟩

theorem isWritten_ofText (text : String) : (ofText text).IsWritten where
  root := by
    simp only [ofText, rootOf]
    split <;> simp
  names name hname := by
    refine ⟨isName_of_mem_namesOf hname, ?_⟩
    rintro rfl
    exact (mem_namesOf_iff.1 hname).2.2 rfl

theorem rootOf_eq_empty {text : List Char} (h : text.head? ≠ some '/') : rootOf text = "" := by
  unfold rootOf
  split <;> simp_all

theorem ofText_isName {name : String} (h : IsName name) (hdot : name ≠ ".") :
    ofText name = ⟨"", [name]⟩ := by
  have hne : name.toList ≠ [] := by simpa using h.nonempty
  have hdots : name.toList ≠ ['.'] := fun heq => hdot (String.toList_inj.1 heq)
  have hsplit : splitAt ['/'] name.toList = [name.toList] :=
    splitAt_of_slash_not_mem h.noSlash
  have hroot : rootOf name.toList = "" :=
    rootOf_eq_empty fun hhead => h.noSlash (List.mem_of_mem_head? hhead)
  have hnames : namesOf name.toList = [name] := by
    rw [namesOf, hsplit]
    simp [hne, hdots]
  rw [ofText, hroot, hnames]

theorem child_eq_below {path : Path} {name : String} (h : IsName name) (hdot : name ≠ ".") :
    path.child name = path.below [name] := by
  rw [child, ofText_isName h hdot]
  rfl

theorem below_append_singleton {path : Path} {names : List String} {name : String}
    (h : IsName name) (hdot : name ≠ ".") :
    path.below (names ++ [name]) = (path.below names).child name := by
  rw [child_eq_below h hdot]
  simp [below]

theorem IsWritten.below {path : Path} {names : List String} (h : path.IsWritten)
    (hnames : ∀ name ∈ names, IsName name ∧ name ≠ ".") : (path.below names).IsWritten :=
  ⟨h.root, fun name hname => (List.mem_append.1 hname).elim (h.names name) (hnames name)⟩

theorem namesOf_relativeOf {basepath : String} {names : List String} (hne : names ≠ [])
    (hnames : ∀ name ∈ names, IsName name ∧ name ≠ ".") :
    namesOf (relativeOf basepath names).toList = namesOf basepath.toList ++ names := by
  have hslash : ∀ segment ∈ names.map String.toList, '/' ∉ segment :=
    List.forall_mem_map.2 fun name hname => (hnames name hname).1.noSlash
  have hkept : ((names.map String.toList).filter fun segment =>
      !segment.isEmpty && segment != ['.']) = names.map String.toList := by
    refine List.filter_eq_self.2 (List.forall_mem_map.2 fun name hname => ?_)
    obtain ⟨hvalid, hdot⟩ := hnames name hname
    have hdots : name.toList ≠ ['.'] := fun heq => hdot (String.toList_inj.1 heq)
    simp [hvalid.nonempty, hdots]
  have hread : (names.map String.toList).map String.ofList = names := by simp
  rw [toList_relativeOf hne fun name hname => (hnames name hname).1]
  split
  · rename_i hempty
    have hnone : namesOf "".toList = [] := by decide
    rw [List.nil_append, namesOf, splitAt_joined (by simpa using hne) hslash, hkept, hread, hempty,
      hnone, List.nil_append]
  · have hjoined : basepath.toList ++ ['/'] ++ joined (names.map String.toList) =
        joined (splitAt ['/'] basepath.toList ++ names.map String.toList) := by
      rw [joined_append (splitAt_ne_nil _ _) (by simpa using hne), joined_splitAt]
      simp
    have hsegments : ∀ segment ∈ splitAt ['/'] basepath.toList ++ names.map String.toList,
        '/' ∉ segment :=
      List.forall_mem_append.2 ⟨fun _ => slash_not_mem_of_mem_splitAt, hslash⟩
    rw [hjoined, namesOf, splitAt_joined (by simp [hne]) hsegments, List.filter_append, hkept,
      List.map_append, hread, namesOf]

theorem toList_text (path : Path) :
    path.text.toList =
      if path.root = "" ∧ path.names = [] then ['.']
      else path.root.toList ++ joined (path.names.map String.toList) := by
  have hjoined : ("/".intercalate path.names).toList = joined (path.names.map String.toList) :=
    String.toList_intercalate
  unfold text
  by_cases h : path.root = "" ∧ path.names = []
  · simp [h]
  · have hfalse : (path.root.isEmpty && path.names.isEmpty) = false := by
      simpa [Bool.and_eq_false_imp] using h
    rw [hfalse, if_neg h, if_neg (by simp), String.toList_append, hjoined]

theorem not_contains_nul {path : Path} (hpath : path.IsWritten)
    (hnames : ∀ name ∈ path.names, '\x00' ∉ name.toList) :
    path.text.toList.contains '\x00' = false := by
  rw [Bool.eq_false_iff, ne_eq, List.contains_iff_mem, toList_text]
  split
  · decide
  · intro h
    obtain hroot | hjoined := List.mem_append.1 h
    · have hroots := hpath.root
      simp only [List.mem_cons, List.not_mem_nil, or_false] at hroots
      obtain heq | heq | heq := hroots <;> rw [heq] at hroot <;> revert hroot <;> decide
    · obtain ⟨segment, hsegment, hmem⟩ := exists_mem_of_mem_joined (by decide) hjoined
      obtain ⟨name, hname, rfl⟩ := List.mem_map.1 hsegment
      exact hnames name hname hmem

end FileSelection.Path
