import FileSelection.Proofs.FileSystem.Descent
import Mathlib.Data.String.Basic

/-!
# Links and limits

A path is followed through at most so many links, and only if its text is not too long.  That is all
that bounds the paths through a file system in which links lead back, since each entry that is found
at the end of such a path has a name of its own.
-/

namespace FileSelection

open FileSelection.Path FileSelection.Text

/-! ## Links on the way -/

/-- Names that are followed from a location pass this number of links, if not more. -/
inductive Location.PassesLinks (root : Location) : Location → List String → Nat → Prop
  | start {location : Location} {names : List String} : PassesLinks root location names 0
  | self {location : Location} {rest : List String} {links : Nat} :
      PassesLinks root location rest links → PassesLinks root location ("." :: rest) links
  | parent {location : Location} {rest : List String} {links : Nat} :
      PassesLinks root location.parent rest links → PassesLinks root location (".." :: rest) links
  | entry {location : Location} {name : String} {rest : List String} {links : Nat}
      {entries : List (String × Node)} {node : Node} :
      name ≠ "." → name ≠ ".." → location.node = .directory entries →
        entries.lookup name = some node → node.kind ≠ .link →
          PassesLinks root (location.child name node) rest links →
            PassesLinks root location (name :: rest) links
  | link {location : Location} {name target : String} {rest : List String} {links : Nat}
      {entries : List (String × Node)} :
      name ≠ "." → name ≠ ".." → location.node = .directory entries →
        entries.lookup name = some (.link target) →
          PassesLinks root (if target.startsWith "/" then root else location)
              (FileSystem.steps target ++ rest) links →
            PassesLinks root location (name :: rest) (links + 1)

namespace FileSystem

section

variable {root location place : Location} {through : Bool} {links : Nat} {names : List String}

theorem le_of_passesLinks {passed : Nat} (h : root.PassesLinks location names passed)
    (hfollow : follow root true links location names = .ok place) : passed ≤ links := by
  induction h generalizing links with
  | start => exact Nat.zero_le links
  | @self location rest passed _ ih =>
      rw [follow] at hfollow
      split at hfollow
      · exact ih (by simpa using hfollow)
      · cases hfollow
  | @parent location rest passed _ ih =>
      rw [follow] at hfollow
      split at hfollow
      · exact ih (by simpa using hfollow)
      · cases hfollow
  | @entry location name rest passed entries node hself hparent hentries hlookup hkind _ ih =>
      rw [follow, hentries] at hfollow
      simp only [hself, hparent, if_false, hlookup] at hfollow
      split at hfollow
      · cases hfollow
      · cases node with
        | link _ => exact absurd rfl hkind
        | file _ _ | pipe _ | directory _ => exact ih hfollow
  | @link location name target rest passed entries hself hparent hentries hlookup _ ih =>
      rw [follow, hentries] at hfollow
      simp only [hself, hparent, if_false, hlookup] at hfollow
      split at hfollow
      · cases hfollow
      · cases links with
        | zero => simp at hfollow
        | succ left => exact Nat.succ_le_succ (ih (by simpa using hfollow))

def IsBelow (root location : Location) : Prop :=
  ∀ entries, location.node = .directory entries → ∃ names, root.Leads names location

theorem isBelow_parent (hroot : root.above = []) (h : root.Leads names location) :
    IsBelow root location.parent := by
  intro entries _
  cases h with
  | base =>
      have hparent : root.parent = root := by simp [Location.parent, hroot]
      exact ⟨[], by rw [hparent]; exact .base⟩
  | child habove _ _ => exact ⟨_, habove⟩

theorem isBelow_of_follow (hroot : root.above = []) (hlocation : IsBelow root location)
    (h : follow root through links location names = .ok place) : IsBelow root place := by
  fun_induction follow root through links location names with
  | case1 links location =>
      cases h
      exact hlocation
  | case2 links location rest entries hentries ih => exact ih hlocation h
  | case3 links location rest entries hentries _ ih =>
      obtain ⟨names, hleads⟩ := hlocation entries hentries
      exact ih (isBelow_parent hroot hleads) h
  | case6 =>
      cases h
      rintro _ ⟨⟩
  | case8 location name rest entries hentries _ _ _ target _ _ links start ih =>
      refine ih ?_ h
      unfold start
      split
      · exact fun _ _ => ⟨[], .base⟩
      · exact hlocation
  | case9 links location name rest entries hentries _ _ _ node _ hlookup ih =>
      obtain ⟨names, hleads⟩ := hlocation entries hentries
      refine ih ?_ h
      rintro below rfl
      exact ⟨_, .child hleads hentries hlookup⟩
  | case4 | case5 | case7 | case10 => cases h

end

/-! ## Paths that can be followed -/

variable {fs : FileSystem} {path : Path} {place : Location}

def PassesLinks (fs : FileSystem) (path : Path) (links : Nat) : Prop :=
  ∃ start, fs.startOf path = .ok start ∧
    fs.rootLocation.PassesLinks start (steps path.text) links

/-- The system can follow the path. -/
structure Admits (fs : FileSystem) (path : Path) : Prop where
  size : path.text.utf8ByteSize ≤ pathLimit
  links : ∀ links, fs.PassesLinks path links → links ≤ linkLimit

theorem admits_of_locate (h : fs.locate true path = .ok place) : fs.Admits path := by
  obtain ⟨-, hshort, start, hstart, hfollow⟩ := locate_eq_ok_iff.1 h
  refine ⟨Nat.le_of_not_lt hshort, ?_⟩
  rintro links ⟨start', hstart', hpasses⟩
  rw [hstart] at hstart'
  cases hstart'
  exact le_of_passesLinks hpasses hfollow

theorem admits_of_namesIn {found : List String} (h : fs.namesIn path = .ok found) :
    fs.Admits path := by
  unfold namesIn at h
  cases hlocate : fs.locate true path with
  | ok place => exact admits_of_locate hlocate
  | error failure =>
      rw [hlocate] at h
      cases h

theorem isBelow_of_locate {through : Bool} (h : fs.locate through path = .ok place) :
    IsBelow fs.rootLocation place := by
  obtain ⟨-, -, start, hstart, hfollow⟩ := locate_eq_ok_iff.1 h
  have hroot : IsBelow fs.rootLocation fs.rootLocation := fun _ _ => ⟨[], .base⟩
  refine isBelow_of_follow rfl ?_ hfollow
  unfold startOf at hstart
  split at hstart
  · cases hstart
    exact hroot
  · exact isBelow_of_follow rfl hroot hstart

theorem isEntryName_of_namesIn {found : List String} (htidy : fs.rootLocation.IsTidy)
    (h : fs.namesIn path = .ok found) : ∀ name ∈ found, IsEntryName name := by
  unfold namesIn at h
  cases hlocate : fs.locate true path with
  | error failure =>
      rw [hlocate] at h
      cases h
  | ok place =>
      rw [hlocate] at h
      cases hnode : place.node with
      | directory entries =>
          simp only [Except.bind, hnode] at h
          cases h
          obtain ⟨names, hleads⟩ := isBelow_of_locate hlocate entries hnode
          exact (htidy hleads hnode).2
      | file _ _ | pipe _ | link _ =>
          simp only [Except.bind, hnode] at h
          cases h

end FileSystem

/-! ## The length of a path -/

namespace Path

theorem length_le_length_joined (segments : List (List Char)) :
    segments.length ≤ (joined segments).length + 1 := by
  induction segments with
  | nil => simp
  | cons segment segments ih =>
      cases segments with
      | nil => simp
      | cons next segments =>
          rw [joined_cons segment (by simp)]
          simp only [List.length_append, List.length_cons] at ih ⊢
          omega

theorem length_le_utf8Len (text : List Char) : text.length ≤ String.utf8Len text := by
  induction text with
  | nil => simp
  | cons c text ih =>
      have hsize := c.utf8Size_pos
      simp only [String.utf8Len_cons, List.length_cons]
      omega

theorem length_names_le (path : Path) : path.names.length ≤ path.text.utf8ByteSize + 1 := by
  have hsize : path.text.toList.length ≤ path.text.utf8ByteSize := by
    rw [← String.utf8Len_toList]
    exact length_le_utf8Len _
  have hnames := length_le_length_joined (path.names.map String.toList)
  rw [toList_text] at hsize
  rw [List.length_map] at hnames
  split at hsize
  · rename_i hempty
    simp [hempty.2]
  · rw [List.length_append] at hsize
    omega

end Path

end FileSelection
