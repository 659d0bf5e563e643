import FileSelection.Proofs.Path.Resolving
import FileSelection.Proofs.Settings.Failures
import Mathlib.Logic.Relation

/-!
# Canonical paths in a file system

The canonical path of a directory that can be reached is the path of its physical place, unless a
path on the way is longer than the system accepts: links make the paths that the search examines
longer or shorter than the one that it starts from.
-/

namespace FileSelection

open FileSelection.Path FileSelection.Text

namespace Location.Leads

variable {base place : Location} {names : List String}

theorem parent (hbase : base.above = []) (h : base.Leads names place) :
    ∃ names, base.Leads names place.parent := by
  cases h with
  | base => exact ⟨[], by rw [Location.parent, hbase]; exact .base⟩
  | child habove _ _ => exact ⟨_, habove⟩

end Location.Leads

namespace FileSystem

theorem Location.names_parent (place : Location) : place.parent.names = place.names.dropLast := by
  obtain ⟨node, above⟩ := place
  cases above with
  | nil => rfl
  | cons first above => simp [Location.parent, Location.names]

theorem eq_directory_of_kind {node : Node} (h : node.kind = .directory) :
    ∃ entries, node = .directory entries := by
  cases node with
  | directory entries => exact ⟨entries, rfl⟩
  | file _ _ | pipe _ | link _ => cases h

/-! ## Sound file systems -/

structure IsSound (fs : FileSystem) : Prop where
  root : fs.root.kind = .directory
  tidy : fs.rootLocation.IsTidy
  noNul : ∀ {names place entries}, fs.rootLocation.Leads names place →
    place.node = .directory entries → ∀ name ∈ entries.map Prod.fst, '\x00' ∉ name.toList
  working : ∃ place, fs.rootLocation.Leads fs.working place ∧ fs.workingLocation = .ok place

/-! ## Paths without links -/

/-- A path leads through real directories to a place.  From the working directory it may lead
upwards first. -/
inductive Marks (fs : FileSystem) : Path → Location → Prop
  | root : Marks fs ⟨"/", []⟩ fs.rootLocation
  | working {place : Location} : fs.rootLocation.Leads fs.working place →
      fs.workingLocation = .ok place → Marks fs ⟨"", []⟩ place
  | above {path : Path} {place : Location} : Marks fs path place → path.root = "" →
      (∀ name ∈ path.names, name = "..") → Marks fs (path.below [".."]) place.parent
  | child {path : Path} {place : Location} {name : String} {entries below : List (String × Node)} :
      Marks fs path place → place.node = .directory entries →
        entries.lookup name = some (.directory below) → ¬ nameLimit < name.utf8ByteSize →
          Marks fs (path.below [name]) (place.child name (.directory below))

section

variable {fs : FileSystem} {path : Path} {place : Location}

theorem Marks.leads (h : fs.Marks path place) : ∃ names, fs.rootLocation.Leads names place := by
  induction h with
  | root => exact ⟨[], .base⟩
  | working hleads _ => exact ⟨_, hleads⟩
  | above _ _ _ ih =>
      obtain ⟨names, hleads⟩ := ih
      exact hleads.parent rfl
  | child _ hentries hlookup _ ih =>
      obtain ⟨names, hleads⟩ := ih
      exact ⟨_, .child hleads hentries hlookup⟩

theorem Marks.isDirectory (hsound : fs.IsSound) (h : fs.Marks path place) :
    ∃ entries, place.node = .directory entries := by
  obtain ⟨names, hleads⟩ := h.leads
  exact hleads.isDirectory hsound.root

theorem Marks.isEntryName (hsound : fs.IsSound) (h : fs.Marks path place)
    {name : String} {entries : List (String × Node)} {node : Node}
    (hentries : place.node = .directory entries) (hlookup : entries.lookup name = some node) :
    IsEntryName name ∧ '\x00' ∉ name.toList := by
  obtain ⟨names, hleads⟩ := h.leads
  have hname := List.mem_map_of_mem (f := Prod.fst) (Keyed.mem_of_lookup hlookup)
  exact ⟨Location.IsTidy.isEntryName hsound.tidy hleads hentries hlookup,
    hsound.noNul hleads hentries name hname⟩

theorem Marks.names (hsound : fs.IsSound) (h : fs.Marks path place) :
    ∀ name ∈ path.names, (IsName name ∧ name ≠ ".") ∧ '\x00' ∉ name.toList := by
  induction h with
  | root | working _ _ => simp
  | above _ _ _ ih =>
      have hparent : (IsName ".." ∧ ".." ≠ ".") ∧ '\x00' ∉ "..".toList :=
        ⟨⟨⟨by decide, by decide⟩, by decide⟩, by decide⟩
      exact List.forall_mem_append.2 ⟨ih, List.forall_mem_singleton.2 hparent⟩
  | child habove hentries hlookup _ ih =>
      obtain ⟨hname, hnoNul⟩ := habove.isEntryName hsound hentries hlookup
      exact List.forall_mem_append.2
        ⟨ih, List.forall_mem_singleton.2 ⟨⟨hname.toIsName, hname.notSelf⟩, hnoNul⟩⟩

theorem Marks.root_mem (h : fs.Marks path place) : path.root ∈ ["", "/", "//"] := by
  induction h with
  | root | working _ _ => simp
  | above _ _ _ ih | child _ _ _ _ ih => exact ih

theorem Marks.up (hsound : fs.IsSound) (h : fs.Marks path place) :
    fs.Marks path.up place.parent := by
  cases h with
  | root => exact .root
  | working hleads hworking => exact .above (.working hleads hworking) rfl (by simp)
  | above habove hroot hnames =>
      rw [up_below_parent]
      have hnames' := List.forall_mem_append.2 ⟨hnames, List.forall_mem_singleton.2 rfl⟩
      exact .above (.above habove hroot hnames) hroot hnames'
  | child habove hentries hlookup _ =>
      rw [up_below (habove.isEntryName hsound hentries hlookup).1.notParent]
      exact habove

end

/-! ## Following names -/

section

variable {root location : Location} {through : Bool} {links : Nat} {name : String}
  {rest : List String} {entries : List (String × Node)} {node : Node}
  (hentries : location.node = .directory entries)

include hentries

theorem follow_self_cons :
    follow root through links location ("." :: rest) = follow root through links location rest := by
  rw [follow, hentries]
  rfl

theorem follow_parent_cons :
    follow root through links location (".." :: rest) =
      follow root through links location.parent rest := by
  rw [follow, hentries]
  rfl

theorem follow_name_cons (hself : name ≠ ".") (hparent : name ≠ "..")
    (hshort : ¬ nameLimit < name.utf8ByteSize) (hlookup : entries.lookup name = some node)
    (hkind : node.kind ≠ .link) :
    follow root through links location (name :: rest) =
      follow root through links (location.child name node) rest := by
  rw [follow, hentries]
  simp only [if_neg hself, if_neg hparent, if_neg hshort, hlookup]
  cases node with
  | link _ => exact absurd rfl hkind
  | file _ _ | pipe _ | directory _ => rfl

theorem follow_link_cons {target : String} (hself : name ≠ ".") (hparent : name ≠ "..")
    (hshort : ¬ nameLimit < name.utf8ByteSize) (hlookup : entries.lookup name = some (.link target)) :
    follow root true (links + 1) location (name :: rest) =
      follow root true links (if target.startsWith "/" then root else location)
        (steps target ++ rest) := by
  rw [follow, hentries]
  simp only [if_neg hself, if_neg hparent, if_neg hshort, hlookup, Bool.not_true, Bool.and_false]
  rfl

omit hentries in
theorem follow_cons_eq_ok {place : Location}
    (h : follow root true links location (name :: rest) = .ok place) :
    ∃ entries, location.node = .directory entries ∧
      (name = "." ∧ follow root true links location rest = .ok place ∨
        name = ".." ∧ follow root true links location.parent rest = .ok place ∨
        name ≠ "." ∧ name ≠ ".." ∧ ¬ nameLimit < name.utf8ByteSize ∧
          ∃ node, entries.lookup name = some node ∧
            (node.kind ≠ .link ∧
                follow root true links (location.child name node) rest = .ok place ∨
              ∃ target left, node = .link target ∧ links = left + 1 ∧
                follow root true left (if target.startsWith "/" then root else location)
                  (steps target ++ rest) = .ok place)) := by
  rw [follow] at h
  split at h
  · rename_i entries hentries
    refine ⟨entries, hentries, ?_⟩
    split at h
    · exact .inl ⟨‹_›, h⟩
    split at h
    · exact .inr (.inl ⟨‹_›, h⟩)
    split at h
    · cases h
    refine .inr (.inr ⟨‹_›, ‹_›, ‹_›, ?_⟩)
    split at h
    · cases h
    · rename_i target hlookup
      rw [Bool.not_true, Bool.and_false, if_neg Bool.false_ne_true] at h
      cases links with
      | zero => cases h
      | succ left => exact ⟨_, hlookup, .inr ⟨target, left, rfl, rfl, h⟩⟩
    · rename_i node hnode hlookup
      refine ⟨node, hlookup, .inl ⟨?_, h⟩⟩
      cases node with
      | link target => exact absurd rfl (hnode target)
      | file _ _ | pipe _ | directory _ => nofun
  · cases h

end

theorem kind_of_follow {root location place : Location} {links : Nat} {names : List String}
    (h : follow root true links location names = .ok place) (hplace : place.node.kind = .directory) :
    location.node.kind = .directory := by
  cases names with
  | nil =>
      rw [follow] at h
      cases h
      exact hplace
  | cons name rest =>
      obtain ⟨entries, hentries, -⟩ := follow_cons_eq_ok h
      rw [hentries]
      rfl

section

variable {fs : FileSystem} {path : Path} {place : Location}

theorem Marks.follow (hsound : fs.IsSound) (h : fs.Marks path place) :
    ∃ start, fs.startOf path = .ok start ∧ ∀ through links rest,
      follow fs.rootLocation through links start (path.names ++ rest) =
        follow fs.rootLocation through links place rest := by
  induction h with
  | root => exact ⟨fs.rootLocation, rfl, fun _ _ _ => rfl⟩
  | working _ hworking => exact ⟨_, hworking, fun _ _ _ => rfl⟩
  | @above path place habove _ _ ih =>
      obtain ⟨start, hstart, hfollow⟩ := ih
      obtain ⟨entries, hentries⟩ := habove.isDirectory hsound
      refine ⟨start, hstart, fun through links rest => ?_⟩
      rw [Path.below, List.append_assoc, hfollow]
      exact follow_parent_cons hentries
  | @child path place name entries below habove hentries hlookup hshort ih =>
      obtain ⟨start, hstart, hfollow⟩ := ih
      obtain ⟨hname, -⟩ := habove.isEntryName hsound hentries hlookup
      refine ⟨start, hstart, fun through links rest => ?_⟩
      rw [Path.below, List.append_assoc, hfollow]
      exact follow_name_cons hentries hname.notSelf hname.notParent hshort hlookup
        (by simp [Node.kind])

theorem Marks.locate_below (hsound : fs.IsSound) (h : fs.Marks path place) {name : String}
    (hname : IsEntryName name) (hnoNul : '\x00' ∉ name.toList)
    (hfits : (path.below [name]).text.utf8ByteSize ≤ pathLimit) (through : Bool) :
    fs.locate through (path.below [name]) =
      (FileSystem.follow fs.rootLocation through linkLimit place [name]).mapError
        (.system · (path.below [name]).text) := by
  obtain ⟨start, hstart, hfollow⟩ := h.follow hsound
  have hnames : ∀ other ∈ (path.below [name]).names, (IsName other ∧ other ≠ ".") ∧
      '\x00' ∉ other.toList :=
    List.forall_mem_append.2 ⟨h.names hsound,
      List.forall_mem_singleton.2 ⟨⟨hname.toIsName, hname.notSelf⟩, hnoNul⟩⟩
  have hwritten : (path.below [name]).IsWritten :=
    ⟨h.root_mem, fun other hother => (hnames other hother).1⟩
  have hstart' : fs.startOf (path.below [name]) = .ok start := hstart
  rw [locate_eq, not_contains_nul hwritten fun other hother => (hnames other hother).2,
    if_neg Bool.false_ne_true, if_neg (Nat.not_lt.2 hfits), hstart', Except.bind,
    steps_text hwritten, if_neg (by simp [Path.below])]
  exact congrArg (Except.mapError (Failure.system · (path.below [name]).text))
    (hfollow through linkLimit [name])

theorem Marks.locate_entry (hsound : fs.IsSound) (h : fs.Marks path place) {name : String}
    {entries : List (String × Node)} {node : Node} (hentries : place.node = .directory entries)
    (hlookup : entries.lookup name = some node) (hshort : ¬ nameLimit < name.utf8ByteSize)
    (hfits : (path.below [name]).text.utf8ByteSize ≤ pathLimit) {through : Bool}
    (hthrough : node.kind = .link → through = false) :
    fs.locate through (path.below [name]) = .ok (place.child name node) := by
  obtain ⟨hname, hnoNul⟩ := h.isEntryName hsound hentries hlookup
  have hfollow : FileSystem.follow fs.rootLocation through linkLimit place [name] =
      .ok (place.child name node) := by
    rw [FileSystem.follow, hentries]
    simp only [if_neg hname.notSelf, if_neg hname.notParent, if_neg hshort, hlookup]
    cases node with
    | link target =>
        rw [hthrough rfl]
        rfl
    | file _ _ | pipe _ | directory _ => exact FileSystem.follow.eq_1 ..
  rw [h.locate_below hsound hname hnoNul hfits, hfollow]
  rfl

theorem Marks.locate_missing (hsound : fs.IsSound) (h : fs.Marks path place) {name : String}
    {entries : List (String × Node)} (hentries : place.node = .directory entries)
    (hlookup : entries.lookup name = none) (hname : IsEntryName name)
    (hnoNul : '\x00' ∉ name.toList) (hshort : ¬ nameLimit < name.utf8ByteSize)
    (hfits : (path.below [name]).text.utf8ByteSize ≤ pathLimit) (through : Bool) :
    fs.locate through (path.below [name]) =
      .error (.system .noEntry (path.below [name]).text) := by
  have hfollow : FileSystem.follow fs.rootLocation through linkLimit place [name] =
      .error .noEntry := by
    rw [FileSystem.follow, hentries]
    simp only [if_neg hname.notSelf, if_neg hname.notParent, if_neg hshort, hlookup]
  rw [h.locate_below hsound hname hnoNul hfits, hfollow]
  rfl

end

/-! ## Paths on the way -/

/-- A step on the way along written names: to the next name, or to the target of a link. -/
inductive Moves (fs : FileSystem) : Path × List String → Path × List String → Prop
  | self {path : Path} {names : List String} : Moves fs (path, "." :: names) (path, names)
  | parent {path : Path} {names : List String} : Moves fs (path, ".." :: names) (path.up, names)
  | entry {path : Path} {name : String} {names : List String} {place : Location} :
      name ≠ "." → name ≠ ".." → fs.locate false (path.below [name]) = .ok place →
        place.node.kind ≠ .link → Moves fs (path, name :: names) (path.below [name], names)
  | link {path : Path} {name target : String} {names : List String} {place : Location} :
      name ≠ "." → name ≠ ".." → fs.locate false (path.below [name]) = .ok place →
        place.node = .link target →
          Moves fs (path, name :: names) (path.startAt target, steps target ++ names)

def Accepts (fs : FileSystem) (start : Path × List String) : Prop :=
  ∀ path name names, Relation.ReflTransGen fs.Moves start (path, name :: names) →
    name ≠ "." → name ≠ ".." → (path.below [name]).text.utf8ByteSize ≤ pathLimit

theorem Accepts.move {fs : FileSystem} {start next : Path × List String} (h : fs.Accepts start)
    (hmove : fs.Moves start next) : fs.Accepts next :=
  fun path name names hmoves => h path name names (hmoves.head hmove)

section

variable {fs : FileSystem} {path : Path} {name : String} {names : List String}
  {place : Location}

theorem accepts_nil (fs : FileSystem) (path : Path) : fs.Accepts (path, []) := by
  intro path' name names hmoves
  obtain ⟨⟨⟩⟩ | ⟨next, ⟨⟩, -⟩ := hmoves.cases_head

theorem accepts_self (h : fs.Accepts (path, names)) : fs.Accepts (path, "." :: names) := by
  intro path' name' names' hmoves hself hparent
  obtain hstart | ⟨next, hmove, hmoves⟩ := hmoves.cases_head
  · cases hstart
    exact absurd rfl hself
  · generalize hstart : (path, "." :: names) = start at hmove
    cases hmove with
    | self =>
        cases hstart
        exact h path' name' names' hmoves hself hparent
    | parent => simp at hstart
    | entry hself' | link hself' =>
        cases hstart
        exact absurd rfl hself'

theorem Moves.of_name {next : Path × List String} (hself : name ≠ ".") (hparent : name ≠ "..")
    (hlocate : fs.locate false (path.below [name]) = .ok place)
    (h : fs.Moves (path, name :: names) next) :
    place.node.kind ≠ .link ∧ next = (path.below [name], names) ∨
      ∃ target, place.node = .link target ∧ next = (path.startAt target, steps target ++ names) := by
  generalize hstart : (path, name :: names) = start at h
  cases h with
  | self =>
      cases hstart
      exact absurd rfl hself
  | parent =>
      cases hstart
      exact absurd rfl hparent
  | entry _ _ hlocate' hkind =>
      cases hstart
      rw [hlocate] at hlocate'
      cases hlocate'
      exact .inl ⟨hkind, rfl⟩
  | link _ _ hlocate' hnode =>
      cases hstart
      rw [hlocate] at hlocate'
      cases hlocate'
      exact .inr ⟨_, hnode, rfl⟩

theorem accepts_cons (hself : name ≠ ".") (hparent : name ≠ "..")
    (hlocate : fs.locate false (path.below [name]) = .ok place)
    (hentry : place.node.kind ≠ .link → fs.Accepts (path.below [name], names))
    (hlink : ∀ target, place.node = .link target →
      fs.Accepts (path.startAt target, steps target ++ names)) :
    fs.Accepts (path, name :: names) := by
  intro path' name' names' hmoves hself' hparent'
  obtain hstart | ⟨next, hmove, hmoves⟩ := hmoves.cases_head
  · cases hstart
    exact Nat.not_lt.1 (locate_eq_ok_iff.1 hlocate).2.1
  · obtain ⟨hkind, rfl⟩ | ⟨target, hnode, rfl⟩ := hmove.of_name hself hparent hlocate
    · exact hentry hkind path' name' names' hmoves hself' hparent'
    · exact hlink target hnode path' name' names' hmoves hself' hparent'

end

theorem leading_steps (text : String) : leading (steps text) = leading (partsOf text) := by
  have hfilter (parts : List (List Char)) :
      leading ((parts.filter (!·.isEmpty)).map String.ofList) =
        leading (parts.map String.ofList) := by
    induction parts with
    | nil => rfl
    | cons part parts ih =>
        by_cases hpart : part = []
        · subst hpart
          exact ih.trans (leading_cons_of_spare (.inl rfl) _).symm
        · rw [List.filter_cons_of_pos (by simpa using hpart), List.map_cons, List.map_cons, leading,
            leading, List.filter_cons, List.filter_cons]
          rw [leading, leading] at ih
          rw [ih]
  unfold steps partsOf
  dsimp only
  split
  · rw [List.map_append, leading, List.filter_append, ← leading, hfilter]
    exact List.append_nil _
  · exact hfilter _

theorem leading_steps_text {path : Path} (hpath : path.IsWritten) :
    leading (steps path.text) = leading path.names := by
  rw [steps_text hpath]
  split
  · rename_i hnone
    rw [hnone]
    decide
  · rfl

section

variable {τ : Type} {fs : FileSystem} {record : τ} {path last : Path} {place target : Location}

theorem Marks.startAt (h : fs.Marks path place) (text : String) :
    fs.Marks (path.startAt text) (if text.startsWith "/" then fs.rootLocation else place) := by
  rw [startsWith_slash, Path.startAt]
  split
  · exact .root
  · exact h

theorem isNoLink_of_locate (h : fs.locate false path = .ok place) (hkind : place.node.kind ≠ .link) :
    IsNoLink (Session.Rests fs record) Session.host path :=
  ⟨_, Session.answers_status (status_eq_ok_iff.2 ⟨place, h, rfl⟩), by rwa [Node.kind_status]⟩

theorem isLinkTo_of_locate {text : String} (h : fs.locate false path = .ok place)
    (hnode : place.node = .link text) :
    IsLinkTo (Session.Rests fs record) Session.host path text := by
  have htarget : fs.linkTarget path = .ok text := by rw [linkTarget, h, Except.map, hnode]
  have hstatus := status_eq_ok_iff.2 ⟨place, h, rfl⟩
  exact ⟨⟨_, Session.answers_status hstatus, by rw [Node.kind_status, hnode]; rfl⟩,
    Session.answers_linkTarget htarget⟩

/-- Names that the system follows to a directory lead to its path, through as many links.  By
induction on the links that are left and, for each number of them, on the names. -/
theorem exists_resolves (hsound : fs.IsSound) (htarget : target.node.kind = .directory)
    (links : Nat) (names rest : List String) (hmarks : fs.Marks path place)
    (haccepts : fs.Accepts (path, names ++ rest))
    (hfollow : follow fs.rootLocation true links place (names ++ rest) = .ok target) :
    ∃ last found passed left,
      Resolves (Session.Rests fs record) Session.host path names last passed ∧
        fs.Marks last found ∧ fs.Accepts (last, rest) ∧
          follow fs.rootLocation true left found rest = .ok target ∧ left + passed = links := by
  induction links using Nat.strongRecOn generalizing path place names rest with
  | ind links ihlinks =>
      induction names generalizing path place with
      | nil => exact ⟨path, place, 0, links, .done, hmarks, haccepts, hfollow, rfl⟩
      | cons name names ihnames =>
          rw [List.cons_append] at haccepts hfollow
          obtain ⟨entries, hentries, hcases⟩ := follow_cons_eq_ok hfollow
          obtain ⟨rfl, hnext⟩ | ⟨rfl, hnext⟩ |
            ⟨hself, hparent, hshort, node, hlookup, hnode⟩ := hcases
          · obtain ⟨last, found, passed, left, hresolves, hrest⟩ :=
              ihnames hmarks (haccepts.move .self) hnext
            exact ⟨last, found, passed, left, .self (.inr rfl) hresolves, hrest⟩
          · obtain ⟨last, found, passed, left, hresolves, hrest⟩ :=
              ihnames (hmarks.up hsound) (haccepts.move .parent) hnext
            exact ⟨last, found, passed, left, .parent hresolves, hrest⟩
          have hname := (hmarks.isEntryName hsound hentries hlookup).1
          have hlocate := hmarks.locate_entry hsound hentries hlookup hshort
            (haccepts path name _ .refl hself hparent) fun _ => rfl
          obtain ⟨hkind, hnext⟩ | ⟨text, left, rfl, rfl, hnext⟩ := hnode
          · obtain ⟨below, rfl⟩ := eq_directory_of_kind (kind_of_follow hnext htarget)
            obtain ⟨last, found, passed, left, hresolves, hrest⟩ :=
              ihnames (hmarks.child hentries hlookup hshort)
                (haccepts.move (.entry hself hparent hlocate hkind)) hnext
            exact ⟨last, found, passed, left,
              .entry hname (isNoLink_of_locate hlocate hkind) hresolves, hrest⟩
          · have hmove := haccepts.move (.link hself hparent hlocate rfl)
            obtain ⟨end', found, passed, left', hend, hmarks', haccepts', hfollow', hleft⟩ :=
              ihlinks left (Nat.lt_succ_self left) _ _ (hmarks.startAt text) hmove hnext
            obtain ⟨last, found', passed', left'', hlast, hmarks'', haccepts'', hfollow'', hleft'⟩ :=
              ihlinks left' (by omega) _ _ hmarks' haccepts' hfollow'
            have hparts : Resolves (Session.Rests fs record) Session.host (path.startAt text)
                (partsOf text) end' passed := by
              refine .of_leading ?_
              rw [← leading_steps]
              exact hend.leading
            refine ⟨last, found', passed + 1 + passed', left'', ?_, hmarks'', haccepts'',
              hfollow'', by omega⟩
            exact .link hname (isLinkTo_of_locate hlocate rfl) hparts hlast

end

/-! ## Canonical paths -/

section

variable {τ : Type} {fs : FileSystem} {record : τ} {path : Path} {place : Location}
  {names : List String}

theorem follow_of_leads {base : Location} (htidy : base.IsTidy) (h : base.Leads names place)
    (root : Location) (through : Bool) (links : Nat) (rest : List String) :
    follow root through links base (names ++ rest) = follow root through links place rest ∨
      follow root through links base (names ++ rest) = .error .nameTooLong := by
  induction h generalizing rest with
  | base => exact .inl rfl
  | @child names place name entries below habove hentries hlookup ih =>
      have hname := htidy.isEntryName habove hentries hlookup
      rw [List.append_assoc]
      obtain hsame | hlong := ih ([name] ++ rest)
      · by_cases hshort : nameLimit < name.utf8ByteSize
        · refine .inr (hsame.trans ?_)
          rw [List.singleton_append, follow, hentries]
          simp only [if_neg hname.notSelf, if_neg hname.notParent, if_pos hshort]
        · exact .inl (hsame.trans
            (follow_name_cons hentries hname.notSelf hname.notParent hshort hlookup nofun))
      · exact .inr hlong

theorem IsSound.not_contains_nul (hsound : fs.IsSound) (h : fs.rootLocation.Leads names place) :
    Path.IsWritten ⟨"/", names⟩ ∧ (Path.text ⟨"/", names⟩).toList.contains '\x00' = false := by
  have hvalid := h.valid hsound.tidy
  have hwritten : Path.IsWritten ⟨"/", names⟩ :=
    ⟨by simp, fun name hname => ⟨(hvalid name hname).toIsName, (hvalid name hname).notSelf⟩⟩
  refine ⟨hwritten, Path.not_contains_nul hwritten ?_⟩
  clear hvalid hwritten
  induction h with
  | base => simp
  | child habove hentries hlookup ih =>
      have hname := List.mem_map_of_mem (f := Prod.fst) (Keyed.mem_of_lookup hlookup)
      exact List.forall_mem_append.2
        ⟨ih, List.forall_mem_singleton.2 (hsound.noNul habove hentries _ hname)⟩

theorem status_of_leads (hsound : fs.IsSound) (h : fs.rootLocation.Leads names place) :
    (∃ status, fs.status true ⟨"/", names⟩ = .ok status) ∨
      fs.status true ⟨"/", names⟩ = .error (.system .nameTooLong (Path.text ⟨"/", names⟩)) := by
  obtain ⟨hwritten, hnoNul⟩ := hsound.not_contains_nul h
  have hstart : fs.startOf ⟨"/", names⟩ = .ok fs.rootLocation := rfl
  rw [status, locate_eq, hnoNul, if_neg Bool.false_ne_true]
  split
  · exact .inr rfl
  · obtain ⟨entries, hroot⟩ := eq_directory_of_kind hsound.root
    have hself : follow fs.rootLocation true linkLimit fs.rootLocation ["."] =
        .ok fs.rootLocation := by
      rw [follow_self_cons hroot, follow]
    rw [hstart, steps_text hwritten, Except.bind]
    split
    · exact .inl ⟨_, by rw [hself]; rfl⟩
    · obtain hfree | hlong :=
        follow_of_leads hsound.tidy h fs.rootLocation true linkLimit []
      · rw [List.append_nil, follow] at hfree
        exact .inl ⟨_, by rw [hfree]; rfl⟩
      · rw [List.append_nil] at hlong
        exact .inr (by rw [hlong]; rfl)

theorem Marks.join (hsound : fs.IsSound) (h : fs.Marks path place) :
    (fs.workingPath.join path).root = "/" ∧
      collapse (fs.workingPath.join path).names = place.names := by
  induction h with
  | root => exact ⟨rfl, rfl⟩
  | @working place hleads _ =>
      have hnames : place.names = fs.working := by
        simpa [rootLocation, Location.names] using hleads.names_eq
      have hkept := collapse_of_valid fun name hname => (hleads.valid hsound.tidy name hname).notParent
      refine ⟨rfl, ?_⟩
      rw [hnames, ← hkept]
      simp [Path.join, isAbsolute, workingPath]
  | above _ _ _ ih =>
      rw [join_below]
      refine ⟨ih.1, ?_⟩
      rw [Path.below, collapse_append_singleton, if_pos rfl, ih.2, Location.names_parent]
  | child habove hentries hlookup _ ih =>
      have hname := (habove.isEntryName hsound hentries hlookup).1
      rw [join_below]
      refine ⟨ih.1, ?_⟩
      rw [Path.below, collapse_append_singleton, if_neg hname.notParent, ih.2,
        Location.names_child]

theorem answers_settled (hsound : fs.IsSound) (h : fs.Marks path place) :
    Act.Answers (Session.Rests fs record) (settled Session.host path) (.ok ⟨"/", place.names⟩) := by
  obtain ⟨hroot, hnames⟩ := h.join hsound
  obtain ⟨names, hleads⟩ := h.leads
  have hplace : place.names = names := by simpa [rootLocation, Location.names] using hleads.names_eq
  have hworking : Act.Answers (Session.Rests fs record) (Session.host (τ := τ)).workingDirectory
      (.ok fs.workingPath) := Session.answers_ask fun files => .ok files.workingPath
  refine hworking.bind ?_
  have hfound : ({ fs.workingPath.join path with
      names := collapse (fs.workingPath.join path).names } : Path) = ⟨"/", place.names⟩ :=
    Path.mk.injEq .. |>.mpr ⟨hroot, hnames⟩
  dsimp only
  rw [hfound]
  rw [hplace]
  obtain ⟨status, hok⟩ | hlong := status_of_leads hsound hleads
  · exact (Session.answers_status hok).attempt.bind (.pure _)
  · exact (Session.answers_status hlong).attempt.bind (.pure _)

theorem answers_canonical (hsound : fs.IsSound) (hpath : path.IsWritten)
    (hlocate : fs.locate true path = .ok place) (hplace : place.node.kind = .directory)
    (haccepts : fs.Accepts (path.origin, steps path.text)) :
    Act.Answers (Session.Rests fs record) (path.canonical Session.host)
      (.ok ⟨"/", place.names⟩) := by
  obtain ⟨-, -, start, hstart, hfollow⟩ := locate_eq_ok_iff.1 hlocate
  have hmarks : fs.Marks path.origin start := by
    unfold origin
    unfold startOf at hstart
    split
    · rename_i habsolute
      rw [if_pos habsolute] at hstart
      cases hstart
      exact .root
    · rename_i habsolute
      rw [if_neg habsolute] at hstart
      obtain ⟨working, hleads, hworking⟩ := hsound.working
      rw [hworking] at hstart
      cases hstart
      exact .working hleads hworking
  rw [← List.append_nil (steps path.text)] at haccepts hfollow
  obtain ⟨last, found, passed, left, hresolves, hmarks', -, hfollow', hle⟩ :=
    exists_resolves hsound hplace linkLimit _ _ hmarks haccepts hfollow
  rw [follow] at hfollow'
  cases hfollow'
  have hnames : Resolves (Session.Rests fs record) Session.host path.origin path.names last passed := by
    refine .of_leading ?_
    rw [← leading_steps_text hpath]
    exact hresolves.leading
  have hbudget : passed ≤ followLimit := by
    have hlimits : linkLimit ≤ followLimit := by decide
    omega
  obtain ⟨followed, hanswers, -⟩ :=
    hnames.answers (Session.rests_ofFiles fs record) hbudget noted_nil awaits_nil
  rw [canonical_eq]
  exact hanswers.bind (answers_settled hsound hmarks')

end

end FileSystem

end FileSelection
