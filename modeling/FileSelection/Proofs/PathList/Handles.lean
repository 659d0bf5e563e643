import FileSelection.Proofs.CopyPlan.Targets
import FileSelection.Proofs.PathList.Traversal
import FileSelection.Proofs.Sequence.Gathering

/-!
# What a path list reports twice

A traversal of a path list reports no relative path twice, whatever happens to the list and to the
file system meanwhile.  Several relative paths may lead to one path, though: relative paths are told
apart as texts, and paths by their names.
-/

namespace FileSelection

open FileSelection.Path

/-! ## Entries of different members -/

/-- The entries are those of different members.  Two paths are the same exactly if the relative
paths have the same names. -/
structure PathList.TellsApart (list : PathList) (entries : List Entry) : Prop where
  members : ∀ entry ∈ entries, entry.relative ∈ list.members ∧ entry = list.entryOf entry.relative
  relatives : (entries.map (·.relative)).Nodup
  path_eq_iff : ∀ first ∈ entries, ∀ second ∈ entries,
    first.path = second.path ↔ (ofText first.relative).names = (ofText second.relative).names
  nodup_iff : (entries.map (·.path)).Nodup ↔
    (entries.map fun entry => (ofText entry.relative).names).Nodup

theorem Path.below_injective (directory : Path) : Function.Injective directory.below := by
  intro names names' h
  have hnames : directory.names ++ names = directory.names ++ names' := congrArg Path.names h
  exact List.append_cancel_left hnames

namespace PathList

structure AreMembers (list : PathList) (members : List String) : Prop where
  nodup : members.Nodup
  subset : members ⊆ list.members

variable {list : PathList} {members fewer : List String}

theorem AreMembers.sublist (h : list.AreMembers members) (hfewer : List.Sublist fewer members) :
    list.AreMembers fewer where
  nodup := h.nodup.sublist hfewer
  subset := List.Subset.trans hfewer.subset h.subset

theorem areMembers_ordered (h : list.members.Nodup) (bottomUp : Bool) :
    list.AreMembers (list.ordered bottomUp) where
  nodup := by
    unfold ordered
    split
    · exact List.nodup_reverse.2 h
    · exact h
  subset _ hmember := mem_of_mem_ordered hmember

theorem path_entryOf {member : String} (h : ¬ IsRooted member) :
    (list.entryOf member).path = list.directory.below (ofText member).names := by
  have hbelow : CopyPlan.below list.directory (list.entryOf member) =
      list.directory.below (ofText member).names := CopyPlan.below_eq h
  exact hbelow

theorem AreMembers.tellsApart (h : list.AreMembers members)
    (hlist : ∀ member ∈ list.members, ¬ IsRooted member) :
    list.TellsApart (members.map list.entryOf) := by
  have hpath : ∀ member ∈ members,
      (list.entryOf member).path = list.directory.below (ofText member).names :=
    fun member hmember => path_entryOf (hlist member (h.subset hmember))
  refine ⟨?_, ?_, ?_, ?_⟩
  · exact List.forall_mem_map.2 fun member hmember => ⟨h.subset hmember, rfl⟩
  · have hrelatives : (members.map list.entryOf).map (·.relative) = members := by
      rw [List.map_map]
      exact List.map_id members
    rw [hrelatives]
    exact h.nodup
  · rw [List.forall_mem_map]
    intro first hfirst
    rw [List.forall_mem_map]
    intro second hsecond
    rw [hpath first hfirst, hpath second hsecond]
    exact (below_injective list.directory).eq_iff
  · have hpaths : (members.map list.entryOf).map (·.path) =
        ((members.map list.entryOf).map fun entry => (ofText entry.relative).names).map
          list.directory.below := by
      rw [List.map_map, List.map_map, List.map_map]
      exact List.map_congr_left hpath
    rw [hpaths]
    exact List.nodup_map_iff (below_injective list.directory)

end PathList

/-! ## Traversals -/

section

variable {σ α : Type} {host : Host σ} {sequence : Sequence σ α} {change : Entry → α}

theorem PathList.sublist_of_forM {list : PathList}
    (hvalue : ∀ entry before value after,
      sequence.value entry before = some (.ok (some value), after) → value = change entry)
    {members : List String} {gathered gathered' : List α} {state last : σ}
    {result : Except Failure Unit}
    (h : (members.forM fun member => Act.handOver (sequence.pickMember host list member))
      (gathered, state) = some (result, gathered', last)) :
    ∃ reported, List.Sublist reported members ∧
      gathered' =
        (reported.map fun member => change (list.entryOf member)).reverse ++ gathered := by
  induction members generalizing gathered state with
  | nil =>
      cases h
      exact ⟨[], .slnil, rfl⟩
  | cons member members ih =>
      obtain ⟨_, ⟨gathered₁, middle⟩, hmember, h⟩ | ⟨failure, ⟨gathered₁, middle⟩, hmember, heq⟩ :=
        Act.bind_eq_some_iff.1 h
      · obtain ⟨answer, hpick, hhands⟩ := Act.handsOver_of_handOver hmember
        obtain ⟨reported, hsublist, rfl⟩ := ih h
        cases hhands with
        | nothing => exact ⟨reported, hsublist.cons member, rfl⟩
        | @value value =>
            obtain ⟨before, hmade⟩ := Sequence.value_of_pickMember hpick
            obtain rfl := hvalue _ _ _ _ hmade
            exact ⟨member :: reported, hsublist.cons_cons member, by simp⟩
      · obtain ⟨answer, hpick, hhands⟩ := Act.handsOver_of_handOver hmember
        cases heq
        cases hhands with
        | failure => exact ⟨[], List.nil_sublist _, rfl⟩

end

/-! ## Iterations -/

section

variable {σ α : Type} {host : Host σ} {directory : Path} {list : PathList} {change : Entry → α}

def Iteration.Position.Leaves (list : PathList) (taken : List String) : Position → Prop
  | .fresh => taken = []
  | .listing rest => list.AreMembers (taken ++ rest)
  | .walking _ | .over => list.AreMembers taken

theorem Iteration.Position.Leaves.areMembers {taken : List String} {position : Position}
    (h : position.Leaves list taken) : list.AreMembers taken := by
  cases position with
  | fresh =>
      obtain rfl : taken = [] := h
      exact ⟨List.nodup_nil, List.nil_subset _⟩
  | listing rest =>
      have hall : list.AreMembers (taken ++ rest) := h
      exact hall.sublist (List.sublist_append_left _ _)
  | _ => exact h

theorem Iteration.Position.Leaves.entered {iteration : Iteration σ α} {taken members : List String}
    {current : PathList} (h : iteration.position.Leaves list taken)
    (hcurrent : list.AreMembers current.members)
    (hentered : iteration.entered (.listed current) = .listing members) :
    list.AreMembers (taken ++ members) := by
  obtain ⟨sequence, position⟩ := iteration
  cases position with
  | fresh =>
      obtain rfl : taken = [] := h
      cases hentered
      have hordered := PathList.areMembers_ordered hcurrent.nodup sequence.bottomUp
      exact ⟨hordered.nodup, List.Subset.trans hordered.subset hcurrent.subset⟩
  | listing rest =>
      cases hentered
      exact h
  | _ => cases hentered

/-- What has been taken are values of different members of the list. -/
def Reader.DrawsFrom (list : PathList) (change : Entry → α) (reader : Reader σ α) : Prop :=
  ∃ taken : List String, reader.taken = taken.map (fun member => change (list.entryOf member)) ∧
    reader.iteration.position.Leaves list taken

theorem Reader.DrawsFrom.closed {reader : Reader σ α} (h : reader.DrawsFrom list change)
    (ending : Option (Except Failure Unit)) :
    DrawsFrom list change ⟨reader.iteration.closed, reader.taken, ending⟩ := by
  obtain ⟨taken, htaken, hleaves⟩ := h
  exact ⟨taken, htaken, hleaves.areMembers⟩

theorem Reader.DrawsFrom.ask {reader following : Reader σ α} {current : PathList} {state last : σ}
    (h : reader.DrawsFrom list change) (hcurrent : list.AreMembers current.members)
    (hdirectory : current.directory = list.directory)
    (hvalue : ∀ entry before value after,
      reader.iteration.sequence.value entry before = some (.ok (some value), after) →
        value = change entry)
    (hask : reader.ask host (.listed current) state = some (.ok following, last)) :
    following.DrawsFrom list change := by
  obtain ⟨answer, middle, hanswer, hreceive⟩ := Act.bind_eq_ok_iff.1 hask
  cases hreceive
  have hnext := Act.attempt_eq_ok_iff.1 hanswer
  match answer, hnext with
  | .error failure, _ => exact h.closed _
  | .ok (none, iteration), hnext =>
      obtain rfl := (Iteration.following_of_next hnext).2 rfl
      exact h.closed _
  | .ok (some value, iteration), hnext =>
      obtain ⟨taken, htaken, hleaves⟩ := h
      unfold Iteration.next at hnext
      cases hentered : reader.iteration.entered (.listed current : Collection σ) with
      | listing members =>
          rw [hentered] at hnext
          obtain ⟨⟨found, rest⟩, between, hfound, hpair⟩ := Act.bind_eq_ok_iff.1 hnext
          cases hpair
          obtain ⟨member, hsublist, before, after, hmade⟩ := Iteration.value_of_nextListed hfound
          obtain rfl := hvalue _ _ _ _ hmade
          refine ⟨taken ++ [member], ?_, ?_⟩
          · rw [List.map_append, ← htaken, PathList.entryOf_congr hdirectory]
            rfl
          · show list.AreMembers (taken ++ [member] ++ rest)
            rw [List.append_assoc]
            exact (hleaves.entered hcurrent hentered).sublist
              ((List.append_sublist_append_left taken).2 hsublist)
      | _ =>
          rw [hentered] at hnext
          cases hnext

theorem Reader.DrawsFrom.follow {events : List (PathList.Event σ)} {reader final : Reader σ α}
    {calls : List (List String)} {state last : σ} (h : reader.DrawsFrom list change)
    (hlist : list = (PathList.ofCalls directory calls).includes (events.flatMap (·.additions)))
    (hvalue : ∀ entry before value after,
      reader.iteration.sequence.value entry before = some (.ok (some value), after) →
        value = change entry)
    (hfollow : reader.follow host events (.ofCalls directory calls) state =
      some (.ok final, last)) : final.DrawsFrom list change := by
  induction events generalizing reader calls state with
  | nil =>
      cases hfollow
      exact h
  | cons event events ih =>
      cases event with
      | includes paths =>
          rw [Reader.follow, ← PathList.ofCalls_append_singleton] at hfollow
          refine ih h ?_ hvalue hfollow
          rw [hlist, List.flatMap_cons, PathList.ofCalls_append_singleton, PathList.includes_append]
          rfl
      | other action =>
          obtain ⟨_, middle, -, hrest⟩ := Act.bind_eq_ok_iff.1 hfollow
          exact ih h hlist hvalue hrest
      | request =>
          obtain ⟨following, middle, hask, hrest⟩ := Act.bind_eq_ok_iff.1 hfollow
          have hcurrent : list.AreMembers (PathList.ofCalls directory calls).members := by
            refine ⟨(PathList.sortedLT_ofCalls directory calls).nodup, fun member hmember => ?_⟩
            rw [hlist]
            exact PathList.mem_includes_iff.2 (.inr hmember)
          have hdirectory : (PathList.ofCalls directory calls).directory = list.directory := by
            rw [hlist]
            rfl
          refine ih (h.ask hcurrent hdirectory hvalue hask) hlist ?_ hrest
          rw [Reader.sequence_of_ask hask]
          exact hvalue

end

/-! ## Plans -/

theorem CopyPlan.keys_add (plan : CopyPlan) (source target : Path) :
    (plan.add source target).targets.map Prod.fst =
      if source ∈ plan.targets.map Prod.fst then plan.targets.map Prod.fst
      else plan.targets.map Prod.fst ++ [source] :=
  Keyed.keys_put source target plan.targets

theorem CopyPlan.length_foldl_add (entries : List Entry) (target : Entry → Path) (plan : CopyPlan) :
    (entries.foldl (fun grown entry => grown.add entry.path (target entry)) plan).targets.length =
      plan.targets.length +
        ((entries.map (·.path)).toFinset \ (plan.targets.map Prod.fst).toFinset).card := by
  induction entries generalizing plan with
  | nil => simp
  | cons entry entries ih =>
      have hlength : (plan.add entry.path (target entry)).targets.length =
          ((plan.add entry.path (target entry)).targets.map Prod.fst).length := by
        rw [List.length_map]
      rw [List.foldl_cons, ih, hlength, keys_add, List.map_cons, List.toFinset_cons]
      split
      · rename_i hmem
        rw [List.length_map, Finset.insert_sdiff_of_mem _ (List.mem_toFinset.2 hmem)]
      · rename_i hnew
        have hrest : (entries.map (·.path)).toFinset \
            (plan.targets.map Prod.fst ++ [entry.path]).toFinset =
              ((entries.map (·.path)).toFinset \ (plan.targets.map Prod.fst).toFinset).erase
                entry.path := by
          ext path
          simp only [Finset.mem_sdiff, Finset.mem_erase, List.mem_toFinset, List.mem_append,
            List.mem_singleton]
          tauto
        rw [hrest, Finset.insert_sdiff_of_notMem _ (fun hmem => hnew (List.mem_toFinset.1 hmem)),
          ← Finset.card_erase_add_one (Finset.mem_insert_self _ _), Finset.erase_insert_eq_erase,
          List.length_append, List.length_map, List.length_singleton]
        omega

theorem CopyPlan.length_foldl_add_eq_iff (entries : List Entry) (target : Entry → Path)
    (plan : CopyPlan) :
    (entries.foldl (fun grown entry => grown.add entry.path (target entry)) plan).targets.length =
        plan.targets.length + entries.length ↔
      (entries.map (·.path)).Nodup ∧
        ∀ entry ∈ entries, entry.path ∉ plan.targets.map Prod.fst := by
  rw [length_foldl_add, Nat.add_left_cancel_iff]
  have hsubset : (entries.map (·.path)).toFinset \ (plan.targets.map Prod.fst).toFinset ⊆
      (entries.map (·.path)).toFinset := Finset.sdiff_subset
  have hle := Finset.card_le_card hsubset
  have hlength : (entries.map (·.path)).toFinset.card ≤ entries.length := by
    simpa using (entries.map (·.path)).toFinset_card_le
  constructor
  · intro h
    have hall : (entries.map (·.path)).toFinset \ (plan.targets.map Prod.fst).toFinset =
        (entries.map (·.path)).toFinset :=
      Finset.eq_of_subset_of_card_le hsubset (hlength.trans h.ge)
    refine ⟨?_, fun entry hentry hkey => ?_⟩
    · rw [hall] at h
      have hcard : (entries.map (·.path) : Multiset Path).toFinset.card =
          Multiset.card (entries.map (·.path) : Multiset Path) := by
        rw [Multiset.coe_card, List.length_map]
        exact h
      exact Multiset.coe_nodup.1 (Multiset.toFinset_card_eq_card_iff_nodup.1 hcard)
    · have hmem : entry.path ∈ (entries.map (·.path)).toFinset :=
        List.mem_toFinset.2 (List.mem_map_of_mem hentry)
      rw [← hall] at hmem
      exact (Finset.mem_sdiff.1 hmem).2 (List.mem_toFinset.2 hkey)
  · rintro ⟨hnodup, hnew⟩
    have hdisjoint :
        Disjoint (entries.map (·.path)).toFinset (plan.targets.map Prod.fst).toFinset := by
      rw [List.disjoint_toFinset_iff_disjoint]
      rintro path hmem hkey
      obtain ⟨entry, hentry, rfl⟩ := List.mem_map.1 hmem
      exact hnew entry hentry hkey
    rw [Finset.sdiff_eq_self_of_disjoint hdisjoint, List.toFinset_card_of_nodup hnodup,
      List.length_map]

/-! ## Handles -/

section

variable {σ α : Type} {host : Host σ}

theorem PathList.tellsApart_of_readAll {list : PathList} (hnodup : list.members.Nodup)
    (hunrooted : ∀ member ∈ list.members, ¬ IsRooted member) {bottomUp : Bool}
    {entries : List Entry} {failure : Option Failure} {state last : σ}
    (h : ((Collection.listed list).pairs .any bottomUp).readAll host (.listed list) state =
      some (.ok (entries, failure), last)) : list.TellsApart entries := by
  rw [Sequence.readAll, map_eq_pure_bind] at h
  obtain ⟨⟨gathered, _⟩, middle, hgathering, hvalues⟩ := Act.bind_eq_ok_iff.1 h
  cases hvalues
  obtain ⟨result, hforEach⟩ := Act.gatheringAll_eq_ok hgathering
  rw [Sequence.forEach_listed] at hforEach
  have hvalue : ∀ entry (before : σ) value after,
      ((Collection.listed list).pairs .any bottomUp).value entry before =
        some (.ok (some value), after) → value = id entry := by
    rintro entry before value after ⟨⟩
    rfl
  obtain ⟨reported, hsublist, rfl⟩ := sublist_of_forM hvalue hforEach
  rw [List.append_nil, List.reverse_reverse]
  exact ((areMembers_ordered hnodup bottomUp).sublist hsublist).tellsApart hunrooted

/-- A path list reports none of its relative paths twice, whether it is traversed at once, to the
end or up to a failure, or value by value while it grows and anything else happens.  A path comes
twice exactly if two of the reported relative paths have the same names.  A plan gets a target for
each of the different paths that are new to it. -/
theorem PathList.reports_no_member_twice (host : Host σ) (directory : Path)
    (calls : List (List String)) :
    let list := ofCalls directory calls
    (∀ (bottomUp : Bool) (state last : σ) (entries : List Entry) (failure : Option Failure),
      ((Collection.listed list).pairs .any bottomUp).readAll host (.listed list) state =
        some (.ok (entries, failure), last) →
        list.TellsApart entries ∧
          ((Collection.listed list).handles .any bottomUp).readAll host (.listed list) state =
            some (.ok (entries.map (·.path), failure), last)) ∧
    (∀ (bottomUp : Bool) (events : List (Event σ)) (state last : σ) (reader : Reader σ Path),
      (Reader.start ((Collection.listed list).handles .any bottomUp)).follow host events list
          state = some (.ok reader, last) →
        ∃ entries, (list.includes (events.flatMap (·.additions))).TellsApart entries ∧
          reader.taken = entries.map (·.path)) ∧
    ∀ (plan grown : CopyPlan) (target : Entry → Path) (failure : Option Failure) (state last : σ),
      plan.addCollection host (.listed list) target state = some (.ok (grown, failure), last) →
        ∃ entries, list.TellsApart entries ∧
          ((Collection.listed list).pairs .any false).readAll host (.listed list) state =
            some (.ok (entries, failure), last) ∧
          grown.targets.length = plan.targets.length +
            ((entries.map (·.path)).toFinset \ (plan.targets.map Prod.fst).toFinset).card ∧
          (grown.targets.length = plan.targets.length + entries.length ↔
            (entries.map fun entry => (ofText entry.relative).names).Nodup ∧
              ∀ entry ∈ entries, entry.path ∉ plan.targets.map Prod.fst) := by
  have hnodup := (sortedLT_ofCalls directory calls).nodup
  have hunrooted : ∀ member ∈ (ofCalls directory calls).members, ¬ IsRooted member :=
    fun member => not_isRooted_of_mem_ofCalls
  refine ⟨?_, ?_, ?_⟩
  · intro bottomUp state last entries failure hpairs
    refine ⟨tellsApart_of_readAll hnodup hunrooted hpairs, ?_⟩
    have hhandles := Sequence.readAll_collect host (.listed (ofCalls directory calls)) (·.path)
      bottomUp none
    exact (congrFun hhandles state).trans (Act.map_of_ok hpairs)
  · intro bottomUp events state last reader hfollow
    have hlater : (ofCalls directory calls).includes (events.flatMap (·.additions)) =
        ofCalls directory (calls ++ [events.flatMap (·.additions)]) :=
      (ofCalls_append_singleton _ _ _).symm
    have hstart : (Reader.start ((Collection.listed (ofCalls directory calls)).handles .any
        bottomUp : Sequence σ Path)).DrawsFrom
          ((ofCalls directory calls).includes (events.flatMap (·.additions))) (·.path) :=
      ⟨[], rfl, rfl⟩
    have hvalue : ∀ entry (before : σ) value after,
        ((Collection.listed (ofCalls directory calls)).handles .any bottomUp).value entry before =
          some (.ok (some value), after) → value = entry.path := by
      rintro entry before value after ⟨⟩
      rfl
    obtain ⟨taken, htaken, hleaves⟩ := hstart.follow rfl hvalue hfollow
    refine ⟨_, hleaves.areMembers.tellsApart ?_, ?_⟩
    · rw [hlater]
      exact fun member => not_isRooted_of_mem_ofCalls
    · rw [htaken, List.map_map]
      rfl
  · intro plan grown target failure state last hadd
    rw [CopyPlan.addCollection_eq, map_eq_pure_bind] at hadd
    obtain ⟨⟨entries, _⟩, middle, hpairs, hgrown⟩ := Act.bind_eq_ok_iff.1 hadd
    cases hgrown
    have happart := tellsApart_of_readAll hnodup hunrooted hpairs
    refine ⟨entries, happart, hpairs, CopyPlan.length_foldl_add entries target plan, ?_⟩
    rw [CopyPlan.length_foldl_add_eq_iff, happart.nodup_iff]

end

/-! ## Two spellings -/

def spelledTwice : PathList := .ofCalls ⟨"/", []⟩ [["a", "a/"]]

theorem ordered_spelledTwice : spelledTwice.ordered false = ["a", "a/"] := by decide

theorem answers_pickMember_spelledTwice {α : Type} (change : Entry → α) :
    ∀ member ∈ spelledTwice.ordered false,
      Act.Answers (fun session : Session Unit => session.files = .filePair)
        (((Collection.listed spelledTwice).collect (fun entry => pure (some (change entry))) false
          none).pickMember Session.host spelledTwice member)
        (.ok (some (change ⟨⟨"/", ["a"]⟩, member⟩))) := by
  intro member hmember session hsession
  have hentry : spelledTwice.entryOf member = ⟨⟨"/", ["a"]⟩, member⟩ := by
    rw [ordered_spelledTwice] at hmember
    simp only [List.mem_cons, List.not_mem_nil, or_false] at hmember
    obtain rfl | rfl := hmember
    · decide
    · decide
  have hexists : Session.host.exists? (spelledTwice.entryOf member).path session =
      some (.ok true, session) := by
    rw [hentry]
    exact Act.bind_of_ok (status?_filePair hsession (by decide))
  refine ⟨session, hsession, (Act.bind_of_ok hexists).trans ?_⟩
  rw [hentry]
  rfl

theorem gives_handles_spelledTwice :
    ((Collection.listed spelledTwice).handles .any false).Gives
      (fun session : Session Unit => session.files = .filePair) Session.host (.listed spelledTwice)
      [⟨"/", ["a"]⟩, ⟨"/", ["a"]⟩] := by
  have hfiles : (Session.ofFiles FileSystem.filePair ()).files = .filePair := rfl
  have hgives : ((Collection.listed spelledTwice).handles .any false).Gives
      (fun session : Session Unit => session.files = .filePair) Session.host (.listed spelledTwice)
      ((spelledTwice.ordered false).filterMap fun _ => some ⟨"/", ["a"]⟩) :=
    Sequence.gives_listed hfiles (answers_pickMember_spelledTwice (·.path))
  rw [ordered_spelledTwice] at hgives
  exact hgives

theorem pairs_spelledTwice :
    ∃ last, ((Collection.listed spelledTwice).pairs .any false).readAll Session.host
      (.listed spelledTwice) (Session.ofFiles .filePair ()) =
        some (.ok ([⟨⟨"/", ["a"]⟩, "a"⟩, ⟨⟨"/", ["a"]⟩, "a/"⟩], none), last) := by
  have hfiles : (Session.ofFiles FileSystem.filePair ()).files = .filePair := rfl
  obtain ⟨last, -, hread⟩ :=
    Act.answers_forM_handOver (answers_pickMember_spelledTwice id) hfiles []
  have hforEach : ((Collection.listed spelledTwice).pairs .any false).forEach Session.host
      (.listed spelledTwice) (fun entry => Act.gather (entry :: ·))
        ([], Session.ofFiles .filePair ()) =
        some (.ok (), [⟨⟨"/", ["a"]⟩, "a/"⟩, ⟨⟨"/", ["a"]⟩, "a"⟩], last) := by
    rw [ordered_spelledTwice] at hread
    rw [Sequence.forEach_listed]
    exact hread
  exact ⟨last, Act.map_of_ok (Act.gatheringAll_of_ok hforEach)⟩

theorem spellings_are_added_once :
    spelledTwice.TellsApart [⟨⟨"/", ["a"]⟩, "a"⟩, ⟨⟨"/", ["a"]⟩, "a/"⟩] ∧
      (∃ reader last, (Reader.start ((Collection.listed spelledTwice).handles .any false)).follow
          Session.host [.request, .includes ["b"], .request] spelledTwice
            (Session.ofFiles .filePair ()) = some (.ok reader, last) ∧
        ∃ entries, (spelledTwice.includes ["b"]).TellsApart entries ∧
          reader.taken = entries.map (·.path)) ∧
      ∃ grown last, CopyPlan.empty.addCollection Session.host (.listed spelledTwice)
          (CopyPlan.below (ofText "out")) (Session.ofFiles .filePair ()) =
            some (.ok (grown, none), last) ∧ grown.targets.length = 1 := by
  obtain ⟨last, hpairs⟩ := pairs_spelledTwice
  obtain ⟨happart, htakes, hadds⟩ := PathList.reports_no_member_twice
    (Session.host : Host (Session Unit)) ⟨"/", []⟩ [["a", "a/"]]
  refine ⟨(happart _ _ _ _ _ hpairs).1, ?_, ?_⟩
  · obtain ⟨reader, htake, -, -⟩ := gives_handles_spelledTwice.take 2
    obtain ⟨after, -, hreader⟩ := htake (Session.ofFiles .filePair ()) rfl
    have hfirst : .request ∉ ([] : List (PathList.Event (Session Unit))) := List.not_mem_nil
    have hstays : (Reader.start ((Collection.listed spelledTwice).handles .any false)).follow
          Session.host [.request, .includes ["b"], .request] spelledTwice =
        (Reader.start ((Collection.listed spelledTwice).handles .any false)).take Session.host
          (.listed spelledTwice) 2 := Reader.follow_of_fresh hfirst _
    have hfollow := (congrFun hstays (Session.ofFiles .filePair ())).trans hreader
    exact ⟨reader, after, hfollow, htakes _ _ _ _ _ hfollow⟩
  · have hadded := congrFun (CopyPlan.addCollection_eq Session.host .empty (.listed spelledTwice)
      (CopyPlan.below (ofText "out"))) (Session.ofFiles .filePair ())
    rw [Act.map_of_ok hpairs] at hadded
    obtain ⟨entries, -, hreported, hlength, -⟩ := hadds _ _ _ _ _ _ hadded
    obtain rfl : [⟨⟨"/", ["a"]⟩, "a"⟩, ⟨⟨"/", ["a"]⟩, "a/"⟩] = entries := by
      have hsame := hpairs.symm.trans hreported
      cases hsame
      rfl
    exact ⟨_, last, hadded, hlength.trans (by decide)⟩

theorem two_spellings_share_a_handle :
    ¬ ∀ (calls : List (List String)) (before after : Session Unit) (handles : List Path),
      ((Collection.listed (.ofCalls ⟨"/", []⟩ calls)).handles .any false).toList Session.host
          (.listed (.ofCalls ⟨"/", []⟩ calls)) before = some (.ok handles, after) →
        handles.Nodup := by
  intro h
  obtain ⟨last, -, hlist⟩ :=
    gives_handles_spelledTwice.toList (Session.ofFiles FileSystem.filePair ()) rfl
  have hnodup : [(⟨"/", ["a"]⟩ : Path), ⟨"/", ["a"]⟩].Nodup := h [["a", "a/"]] _ _ _ hlist
  exact absurd hnodup (by decide)

end FileSelection
