import FileSelection.FileSystem.Basic
import FileSelection.Keyed
import FileSelection.Proofs.Path.Written
import Mathlib.Data.List.Basic

/-!
# Ways down in a file system

Where a path leads is settled name by name, so that the path of an entry leads to the place of its
directory and from there to the entry.  Unless the entry is a link, that place lies physically in
the directory, however many links were followed on the way to the directory.
-/

namespace FileSelection

open FileSelection.Path FileSelection.Text

/-! ## Places below a directory -/

/-- What an entry of a directory can be called: no name for the directory itself or the one above
it. -/
structure Path.IsEntryName (name : String) : Prop extends IsName name where
  notSelf : name ≠ "."
  notParent : name ≠ ".."

instance (name : String) : Decidable (Path.IsEntryName name) :=
  decidable_of_iff ((name ≠ "" ∧ '/' ∉ name.toList) ∧ name ≠ "." ∧ name ≠ "..")
    ⟨fun h => ⟨⟨h.1.1, h.1.2⟩, h.2.1, h.2.2⟩,
      fun h => ⟨⟨h.nonempty, h.noSlash⟩, h.notSelf, h.notParent⟩⟩

namespace Location

/-- Names lead from one place to another one, through real directories only. -/
inductive Leads (base : Location) : List String → Location → Prop
  | base : Leads base [] base
  | child {names : List String} {place : Location} {name : String}
      {entries below : List (String × Node)} :
      Leads base names place → place.node = .directory entries →
        entries.lookup name = some (.directory below) →
          Leads base (names ++ [name]) (place.child name (.directory below))

/-- The entries of a directory, here or below through real directories, have names of their own. -/
def IsTidy (base : Location) : Prop :=
  ∀ {names place entries}, base.Leads names place → place.node = .directory entries →
    (entries.map Prod.fst).Nodup ∧ ∀ name ∈ entries.map Prod.fst, IsEntryName name

variable {base place : Location} {names : List String}

theorem names_child (place : Location) (name : String) (node : Node) :
    (place.child name node).names = place.names ++ [name] := by
  simp [Location.names, child]

theorem Leads.names_eq (h : base.Leads names place) : place.names = base.names ++ names := by
  induction h with
  | base => simp
  | child _ _ _ ih => rw [names_child, ih, List.append_assoc]

theorem Leads.isDirectory (h : base.Leads names place) (hbase : base.node.kind = .directory) :
    ∃ entries, place.node = .directory entries := by
  cases h with
  | base =>
      cases hnode : base.node with
      | directory entries => exact ⟨entries, rfl⟩
      | file _ _ | pipe _ | link _ =>
          rw [hnode] at hbase
          cases hbase
  | child _ _ _ => exact ⟨_, rfl⟩

theorem IsTidy.isEntryName {name : String} {entries : List (String × Node)} {node : Node}
    (htidy : base.IsTidy) (h : base.Leads names place) (hentries : place.node = .directory entries)
    (hlookup : entries.lookup name = some node) : IsEntryName name :=
  (htidy h hentries).2 name (List.mem_map_of_mem (f := Prod.fst) (Keyed.mem_of_lookup hlookup))

theorem Leads.valid (h : base.Leads names place) (htidy : base.IsTidy) :
    ∀ name ∈ names, IsEntryName name := by
  induction h with
  | base => simp
  | child habove hentries hlookup ih =>
      simpa [or_imp, forall_and] using ⟨ih, htidy.isEntryName habove hentries hlookup⟩

end Location

theorem Node.kind_status (node : Node) : node.status.kind = node.kind := by
  cases node with
  | file _ _ | pipe _ | link _ | directory _ => rfl

namespace FileSystem

/-! ## Following names -/

section

variable {root location place : Location} {through : Bool} {links : Nat} {names : List String}

theorem exists_follow_append (h : follow root true links location names = .ok place) :
    ∃ left, ∀ through rest, rest ≠ [] →
      follow root through links location (names ++ rest) = follow root through left place rest := by
  -- only steps that are taken remain; a link at the end of `names` is followed, since more comes
  fun_induction follow root true links location names with
  | case1 links location =>
      cases h
      exact ⟨links, fun _ _ _ => rfl⟩
  | case2 links location rest entries hentries ih =>
      obtain ⟨left, hleft⟩ := ih h
      refine ⟨left, fun through more hmore => ?_⟩
      rw [← hleft through more hmore, List.cons_append, follow, hentries]
      rfl
  | case3 links location rest entries hentries hnotSelf ih =>
      obtain ⟨left, hleft⟩ := ih h
      refine ⟨left, fun through more hmore => ?_⟩
      rw [← hleft through more hmore, List.cons_append, follow, hentries]
      rfl
  | case8 location name rest entries hentries hnotSelf hnotParent hshort target hlookup hthrough
        links start ih =>
      obtain ⟨left, hleft⟩ := ih h
      refine ⟨left, fun through more hmore => ?_⟩
      rw [← hleft through more hmore, List.cons_append, follow, hentries]
      simp only [hnotSelf, hnotParent, hshort, hlookup, if_false]
      simp [hmore, start]
  | case9 links location name rest entries hentries hnotSelf hnotParent hshort node hnode hlookup
        ih =>
      obtain ⟨left, hleft⟩ := ih h
      refine ⟨left, fun through more hmore => ?_⟩
      rw [← hleft through more hmore, List.cons_append, follow, hentries]
      simp only [hnotSelf, hnotParent, hshort, hlookup, if_false]
  | case6 _ _ _ _ _ _ _ _ _ _ _ hthrough => simp at hthrough
  | case4 | case5 | case7 | case10 => cases h

theorem follow_self (h : follow root through links location ["."] = .ok place) :
    location = place := by
  rw [follow] at h
  cases hnode : location.node with
  | directory entries =>
      rw [hnode] at h
      simp only [if_true, follow] at h
      exact Except.ok.inj h
  | file _ _ | pipe _ | link _ =>
      rw [hnode] at h
      cases h

theorem follow_entry {name : String} {entries : List (String × Node)} (hname : IsEntryName name)
    (hentries : location.node = .directory entries)
    (h : follow root true links location [name] = .ok place) :
    ∃ node, entries.lookup name = some node ∧
      follow root false links location [name] = .ok (location.child name node) ∧
      (node.kind ≠ .link → place = location.child name node) := by
  rw [follow, hentries] at h
  simp only [hname.notSelf, hname.notParent, if_false] at h
  rw [follow, hentries]
  simp only [hname.notSelf, hname.notParent, if_false]
  split at h
  · cases h
  · rename_i hshort
    rw [if_neg hshort]
    cases hlookup : entries.lookup name with
    | none =>
        rw [hlookup] at h
        cases h
    | some node =>
        refine ⟨node, rfl, ?_⟩
        cases node with
        | link target => exact ⟨by simp, fun hkind => absurd rfl hkind⟩
        | file _ _ | pipe _ | directory _ =>
            simp only [hlookup, follow] at h ⊢
            cases h
            exact ⟨trivial, fun _ => rfl⟩

end

/-! ## Following paths -/

theorem status_eq_ok_iff {fs : FileSystem} {through : Bool} {path : Path} {status : Status} :
    fs.status through path = .ok status ↔
      ∃ place, fs.locate through path = .ok place ∧ place.node.status = status := by
  unfold FileSystem.status
  cases fs.locate through path with
  | ok place => simp [Except.map]
  | error failure => simp [Except.map]

theorem namesIn_of_locate {fs : FileSystem} {path : Path} {place : Location}
    {entries : List (String × Node)} (h : fs.locate true path = .ok place)
    (hentries : place.node = .directory entries) : fs.namesIn path = .ok (entries.map Prod.fst) := by
  rw [namesIn, h, Except.bind, hentries]

theorem steps_of_splitAt {text : String} {names : List String} (slashes : Nat)
    (h : splitAt ['/'] text.toList = List.replicate slashes [] ++ names.map String.toList)
    (hne : names ≠ []) (hnames : ∀ name ∈ names, IsName name) : steps text = names := by
  have hsegments : ∀ segment ∈ names.map String.toList, segment ≠ [] := by
    simpa using fun name hname => (hnames name hname).nonempty
  have hfilter : (names.map String.toList).filter (!·.isEmpty) = names.map String.toList :=
    List.filter_eq_self.2 fun segment hsegment => by simpa using hsegments segment hsegment
  have hlast : (List.replicate slashes [] ++ names.map String.toList).getLast? ≠ some [] := by
    rw [List.getLast?_append_of_ne_nil _ (by simpa using hne)]
    exact fun hlast => hsegments [] (List.mem_of_getLast? hlast) rfl
  have hpart : ((List.replicate slashes [] ++ names.map String.toList).getLast? == some []) =
      false := beq_eq_false_iff_ne.2 hlast
  unfold steps
  simp only [h, hpart, List.filter_append, hfilter]
  simp

theorem steps_text {path : Path} (hpath : path.IsWritten) :
    steps path.text = if path.names = [] then ["."] else path.names := by
  obtain ⟨root, names⟩ := path
  have hroot : root = "" ∨ root = "/" ∨ root = "//" := by simpa using hpath.root
  by_cases hne : names = []
  · subst hne
    obtain rfl | rfl | rfl := hroot
    · decide
    · decide
    · decide
  · have hnames : ∀ name ∈ names, IsName name := fun name hname => (hpath.names name hname).1
    have hslash : ∀ segment ∈ names.map String.toList, '/' ∉ segment := by
      simpa using fun name hname => (hnames name hname).noSlash
    have hsplit := splitAt_joined (by simpa using hne) hslash
    have hmark (rest : List Char) : splitAt ['/'] (['/'] ++ rest) = [] :: splitAt ['/'] rest :=
      splitAt_mark_append (by simp) rest
    have htext := toList_text ⟨root, names⟩
    rw [if_neg (by simp [hne])] at htext
    simp only [hne, if_false]
    obtain rfl | rfl | rfl := hroot
    · exact steps_of_splitAt 0 (by rw [htext]; exact hsplit) hne hnames
    · refine steps_of_splitAt 1 ?_ hne hnames
      rw [htext, show "/".toList = ['/'] from rfl, hmark, hsplit]
      rfl
    · refine steps_of_splitAt 2 ?_ hne hnames
      rw [htext, show "//".toList = ['/'] ++ ['/'] from rfl, List.append_assoc, hmark, hmark,
        hsplit]
      rfl

def startOf (fs : FileSystem) (path : Path) : Except SystemError Location :=
  if path.isAbsolute then .ok fs.rootLocation else fs.workingLocation

theorem locate_eq (fs : FileSystem) (through : Bool) (path : Path) :
    fs.locate through path =
      if path.text.toList.contains '\x00' then .error .nulInPath
      else if pathLimit < path.text.utf8ByteSize then .error (.system .nameTooLong path.text)
      else ((fs.startOf path).bind fun start =>
        follow fs.rootLocation through linkLimit start (steps path.text)).mapError
          (.system · path.text) := by
  have hfound : (do
      let start ← if path.isAbsolute then pure fs.rootLocation else fs.workingLocation
      follow fs.rootLocation through linkLimit start (steps path.text)) =
        (fs.startOf path).bind fun start =>
          follow fs.rootLocation through linkLimit start (steps path.text) := by
    unfold startOf
    cases path.isAbsolute with
    | true => rfl
    | false => rfl
  unfold locate
  simp only [hfound]
  congr 2
  cases (fs.startOf path).bind fun start =>
    follow fs.rootLocation through linkLimit start (steps path.text) with
  | ok location => rfl
  | error error => rfl

theorem locate_eq_ok_iff {fs : FileSystem} {through : Bool} {path : Path} {place : Location} :
    fs.locate through path = .ok place ↔
      path.text.toList.contains '\x00' = false ∧ ¬ pathLimit < path.text.utf8ByteSize ∧
        ∃ start, fs.startOf path = .ok start ∧
          follow fs.rootLocation through linkLimit start (steps path.text) = .ok place := by
  rw [locate_eq]
  split
  · rename_i hnul
    simp only [hnul, reduceCtorEq, false_and]
  · rename_i hnul
    split
    · rename_i hlong
      simp only [hlong, not_true_eq_false, reduceCtorEq, false_and, and_false]
    · rename_i hshort
      simp only [hnul, hshort, not_false_eq_true, true_and]
      cases fs.startOf path with
      | error error => simp [Except.bind, Except.mapError]
      | ok start =>
          cases hfollow : follow fs.rootLocation through linkLimit start (steps path.text) with
          | error _ => simp [Except.bind, Except.mapError, hfollow]
          | ok location => simp [Except.bind, Except.mapError, hfollow]

section

variable {fs : FileSystem} {path : Path} {place found : Location} {name : String}
  {entries : List (String × Node)}

theorem locate_name (hname : IsEntryName name) (hnoNul : name.toList.contains '\x00' = false)
    (hshort : ¬ nameLimit < name.utf8ByteSize) (through : Bool) :
    FileSystem.locate ⟨.directory entries, []⟩ through (ofText name) =
      (follow ⟨.directory entries, []⟩ through linkLimit ⟨.directory entries, []⟩ [name]).mapError
        (.system · name) := by
  have htext : text ⟨"", [name]⟩ = name := by simp [text]
  have hsteps : steps name = [name] := by
    have hsteps := steps_text (isWritten_ofText name)
    rwa [ofText_isName hname.toIsName hname.notSelf, htext, if_neg (by simp)] at hsteps
  have hstart : startOf ⟨.directory entries, []⟩ ⟨"", [name]⟩ = .ok ⟨.directory entries, []⟩ := by
    rw [startOf, if_neg (by simp [isAbsolute]), workingLocation]
    exact follow.eq_1 ..
  have hfits : ¬ pathLimit < name.utf8ByteSize := by
    unfold nameLimit at hshort
    unfold pathLimit
    omega
  rw [ofText_isName hname.toIsName hname.notSelf, locate_eq, htext, hnoNul,
    if_neg Bool.false_ne_true, if_neg hfits, hstart, hsteps]
  rfl

/-- The path of an entry leads to the place of its directory and from there to the entry; only a
link leads to another place. -/
theorem locate_child (hpath : path.IsWritten) (hname : IsEntryName name)
    (hplace : fs.locate true path = .ok place) (hentries : place.node = .directory entries)
    (h : fs.locate true (path.child name) = .ok found) :
    ∃ node, entries.lookup name = some node ∧
      fs.locate false (path.child name) = .ok (place.child name node) ∧
      (node.kind ≠ .link → found = place.child name node) := by
  obtain ⟨hnul, hshort, start, hstart, hfollow⟩ := locate_eq_ok_iff.1 h
  obtain ⟨-, -, start', hstart', hfollow'⟩ := locate_eq_ok_iff.1 hplace
  have hchild : path.child name = path.below [name] := child_eq_below hname.toIsName hname.notSelf
  have hwritten : (path.child name).IsWritten := by
    rw [hchild]
    exact hpath.below (by simpa using ⟨hname.toIsName, hname.notSelf⟩)
  have hsame : fs.startOf (path.child name) = fs.startOf path := by rw [hchild]; rfl
  have hsteps : steps (path.child name).text = path.names ++ [name] := by
    rw [steps_text hwritten, hchild]
    exact if_neg (by simp [below])
  obtain rfl : start = start' := by
    rw [hsame, hstart'] at hstart
    exact (Except.ok.inj hstart).symm
  have hpath : ∃ left, ∀ through, follow fs.rootLocation through linkLimit start
      (path.names ++ [name]) = follow fs.rootLocation through left place [name] := by
    rw [steps_text hpath] at hfollow'
    split at hfollow'
    · rename_i hnone
      rw [hnone, follow_self hfollow']
      exact ⟨linkLimit, fun _ => rfl⟩
    · obtain ⟨left, hleft⟩ := exists_follow_append hfollow'
      exact ⟨left, fun through => hleft through [name] (by simp)⟩
  obtain ⟨left, hleft⟩ := hpath
  rw [hsteps, hleft] at hfollow
  obtain ⟨node, hlookup, hfalse, hreal⟩ := follow_entry hname hentries hfollow
  refine ⟨node, hlookup, locate_eq_ok_iff.2 ⟨hnul, hshort, start, hstart, ?_⟩, hreal⟩
  rw [hsteps, hleft, hfalse]

end

theorem status_root {fs : FileSystem} {entries : List (String × Node)}
    (hroot : fs.root = .directory entries) : fs.status true ⟨"/", []⟩ = .ok ⟨.directory, 0, 0⟩ := by
  refine status_eq_ok_iff.2 ⟨fs.rootLocation, locate_eq_ok_iff.2 ⟨?_, ?_, _, rfl, ?_⟩, ?_⟩
  · decide
  · decide
  · rw [show steps (Path.text ⟨"/", []⟩) = ["."] by decide, follow, rootLocation, hroot]
    simp [follow]
  · rw [rootLocation, hroot]
    rfl

theorem status_of_long {fs : FileSystem} {entries : List (String × Node)} {name : String}
    (hroot : fs.root = .directory entries) (hname : IsName name) (hnul : '\x00' ∉ name.toList)
    (hlong : nameLimit < name.utf8ByteSize) (hfits : name.utf8ByteSize < pathLimit) :
    fs.status true ⟨"/", [name]⟩ = .error (.system .nameTooLong (Path.text ⟨"/", [name]⟩)) := by
  have hne {other : String} (hother : other.utf8ByteSize ≤ nameLimit) : name ≠ other := by
    rintro rfl
    omega
  have hdot : name ≠ "." := hne (by decide)
  have hdots : name ≠ ".." := hne (by decide)
  have htext : Path.text ⟨"/", [name]⟩ = "/" ++ name := rfl
  have hwritten : Path.IsWritten ⟨"/", [name]⟩ :=
    ⟨by simp, List.forall_mem_singleton.2 ⟨hname, hdot⟩⟩
  have hsteps : steps (Path.text ⟨"/", [name]⟩) = [name] := steps_text hwritten
  have hunmarked : (Path.text ⟨"/", [name]⟩).toList.contains '\x00' = false := by
    rw [htext, String.toList_append, Bool.eq_false_iff, ne_eq, List.contains_iff_mem]
    simpa using hnul
  have hsize : ¬ pathLimit < (Path.text ⟨"/", [name]⟩).utf8ByteSize := by
    have hslash : "/".utf8ByteSize = 1 := by decide
    rw [htext, String.utf8ByteSize_append]
    omega
  have hfollow : follow fs.rootLocation true linkLimit fs.rootLocation [name] =
      .error .nameTooLong := by
    unfold follow
    simp only [rootLocation, hroot, if_neg hdot, if_neg hdots, if_pos hlong]
  have habsolute : Path.isAbsolute ⟨"/", [name]⟩ = true := rfl
  unfold status locate
  simp only [hunmarked, if_neg hsize, hsteps, habsolute]
  rw [if_neg Bool.false_ne_true]
  simp only [if_true, pure_bind, hfollow]
  rfl

end FileSystem

end FileSelection
