import FileSelection.Proofs.PathList.Members
import FileSelection.Proofs.Sequence.Interleaving

/-!
# Traversals of a path list

As long as nothing changes, a traversal reports the members that lead somewhere in the order of the
list, however it is read.  A path comes before what lies below it, bottom-up after it, although
other paths may stand between them.  An iteration keeps to the members that the list had when the
first value was requested.
-/

namespace FileSelection

open FileSelection.Path

/-! ## Places in ordered lists -/

theorem Path.lt_below (above rest : String) : above < above ++ "/" ++ rest := by
  rw [String.append_assoc, String.lt_iff_toList_lt, String.toList_append]
  exact lt_append (by simp)

theorem lt_of_pairwise {α : Type} {before : α → α → Prop} [Std.Asymm before] {values : List α}
    (h : values.Pairwise before) {i j : Nat} {first second : α} (hi : values[i]? = some first)
    (hj : values[j]? = some second) (hbefore : before first second) : i < j := by
  obtain ⟨hi, rfl⟩ := List.getElem?_eq_some_iff.1 hi
  obtain ⟨hj, rfl⟩ := List.getElem?_eq_some_iff.1 hj
  obtain hlt | rfl | hgt := lt_trichotomy i j
  · exact hlt
  · exact absurd hbefore (Std.Irrefl.irrefl _)
  · exact absurd hbefore (Std.Asymm.asymm _ _ (List.pairwise_iff_getElem.1 h j i ‹_› ‹_› hgt))

/-! ## What is reported -/

namespace PathList

def reported (list : PathList) (found : String → Bool) (bottomUp : Bool) : List String :=
  (list.ordered bottomUp).filter found

variable {list : PathList} {found : String → Bool}

theorem reported_bottomUp : list.reported found true = (list.reported found false).reverse :=
  List.filter_reverse

theorem sortedLT_reported (h : list.members.SortedLT) : (list.reported found false).SortedLT :=
  (h.pairwise.filter found).sortedLT

theorem sortedGT_reported (h : list.members.SortedLT) : (list.reported found true).SortedGT := by
  rw [reported_bottomUp]
  exact (sortedLT_reported h).reverse

end PathList

/-! ## Reading a list -/

/-- In steady states a sequence gives these values and then ends, whether it is read at once or
value by value. -/
structure Sequence.Gives {σ α : Type} (steady : σ → Prop) (host : Host σ) (sequence : Sequence σ α)
    (collection : Collection σ) (values : List α) : Prop where
  toList : Act.Answers steady (sequence.toList host collection) (.ok values)
  take : ∀ count, ∃ reader,
    Act.Answers steady ((Reader.start sequence).take host collection count) (.ok reader) ∧
      reader.taken = values.take count ∧
      reader.ending = if values.length < count then some (.ok ()) else none

section

variable {σ α : Type} {host : Host σ} {steady : σ → Prop} {sequence : Sequence σ α}
  {list : PathList} {members : List String}

theorem Sequence.forEach_listed :
    sequence.forEach host (.listed list) (fun value => Act.gather (value :: ·)) =
      (list.ordered sequence.bottomUp).forM fun member =>
        Act.handOver (sequence.pickMember host list member) := by
  simp only [Iteration.handOver_pickMember]
  rfl

theorem Sequence.answers_pickMember {found : Bool} {member : String} {picked : Option α}
    (hfound : Act.Answers steady (host.exists? (list.entryOf member).path) (.ok found))
    (hpicked : Act.Answers steady (sequence.pick host (list.entryOf member)) (.ok picked)) :
    Act.Answers steady (sequence.pickMember host list member)
      (.ok (if found then picked else none)) := by
  refine .bind hfound ?_
  cases found with
  | true => exact hpicked
  | false => exact .pure none

theorem Act.answers_forM_handOver {ι : Type} {items : List ι} {action : ι → Act σ (Option α)}
    {answer : ι → Option α}
    (h : ∀ item ∈ items, Act.Answers steady (action item) (.ok (answer item))) {state : σ}
    (hstate : steady state) (gathered : List α) :
    ∃ last, steady last ∧
      (items.forM fun item => Act.handOver (action item)) (gathered, state) =
        some (.ok (), (items.filterMap answer).reverse ++ gathered, last) := by
  induction items generalizing gathered state with
  | nil => exact ⟨state, hstate, rfl⟩
  | cons item items ih =>
      obtain ⟨hitem, hrest⟩ := List.forall_mem_cons.1 h
      obtain ⟨middle, hmiddle, hhands⟩ := Act.answers_handOver hitem hstate gathered
      obtain ⟨last, hlast, hall⟩ := ih hrest hmiddle ((answer item).toList ++ gathered)
      refine ⟨last, hlast, (Act.bind_of_ok hhands).trans (hall.trans ?_)⟩
      cases hanswer : answer item with
      | none => rw [List.filterMap_cons_none hanswer, Option.toList_none, List.nil_append]
      | some value =>
          rw [List.filterMap_cons_some hanswer, Option.toList_some, List.reverse_cons,
            List.append_assoc]

theorem Iteration.yields_listing {answer : String → Option α}
    (hmembers : ∀ member ∈ members,
      Act.Answers steady (sequence.pickMember host list member) (.ok (answer member))) :
    Yields steady host (.listed list) ⟨sequence, .listing members⟩ (members.filterMap answer)
      (.ok ()) := by
  induction members with
  | nil => exact .ended (.bind (.pure _) (.pure _))
  | cons member members ih =>
      obtain ⟨hmember, hrest⟩ := List.forall_mem_cons.1 hmembers
      cases hanswer : answer member with
      | none =>
          rw [hanswer] at hmember
          rw [List.filterMap_cons_none hanswer]
          exact (ih hrest).of_member hmember
      | some value =>
          rw [hanswer] at hmember
          have hnext : Act.Answers steady (nextListed host sequence list (member :: members))
              (.ok (some value, members)) := by
            rw [nextListed_cons]
            exact .bind hmember (.pure _)
          rw [List.filterMap_cons_some hanswer]
          exact .value (.bind hnext (.pure _)) (ih hrest)

theorem Sequence.answers_forEach_listed {answer : String → Option α}
    (h : ∀ member ∈ list.ordered sequence.bottomUp,
      Act.Answers steady (sequence.pickMember host list member) (.ok (answer member))) :
    Act.Answers steady
      (Act.gathering []
        (sequence.forEach host (.listed list) fun value => Act.gather (value :: ·)))
      (.ok ((list.ordered sequence.bottomUp).filterMap answer).reverse) := by
  intro state hstate
  obtain ⟨last, hlast, hread⟩ := Act.answers_forM_handOver h hstate []
  refine ⟨last, hlast, ?_⟩
  rw [Act.gathering, forEach_listed, hread, List.append_nil]
  rfl

theorem Sequence.gives_listed {answer : String → Option α} {before : σ} (hbefore : steady before)
    (h : ∀ member ∈ list.ordered sequence.bottomUp,
      Act.Answers steady (sequence.pickMember host list member) (.ok (answer member))) :
    sequence.Gives steady host (.listed list)
      ((list.ordered sequence.bottomUp).filterMap answer) where
  toList := by
    rw [toList, map_eq_pure_bind, ← List.reverse_reverse (List.filterMap answer _)]
    exact .bind (answers_forEach_listed h) (.pure _)
  take count := by
    have hyields : Iteration.Yields steady host (.listed list) (.start sequence)
        ((list.ordered sequence.bottomUp).filterMap answer) (.ok ()) :=
      (Iteration.yields_listing h).congr fun _ hanswer => hanswer
    obtain ⟨reader, hreader, htaken, hending⟩ :=
      Reader.answers_take (Reader.start sequence) hbefore hyields rfl count
    exact ⟨reader, hreader, htaken, hending⟩

end

/-! ## Lists that grow meanwhile -/

inductive PathList.Event (σ : Type) where
  | includes (paths : List String)
  /-- Something that does not concern the list, such as a change to the file system. -/
  | other (action : Act σ Unit)
  | request

namespace PathList.Event

variable {σ : Type}

def additions : Event σ → List String
  | .includes paths => paths
  | .other _ | .request => []

def isAddition : Event σ → Bool
  | .includes _ => true
  | .other _ | .request => false

end PathList.Event

/-- Goes on with an iteration; each request finds the list as it is at that time. -/
def Reader.follow {σ α : Type} (host : Host σ) :
    List (PathList.Event σ) → PathList → Reader σ α → Act σ (Reader σ α)
  | [], _, reader => pure reader
  | .includes paths :: events, list, reader => reader.follow host events (list.includes paths)
  | .other action :: events, list, reader => do
      action
      reader.follow host events list
  | .request :: events, list, reader => do
      (← reader.ask host (.listed list)).follow host events list

section

variable {σ α : Type} {host : Host σ} {list other : PathList} {reader : Reader σ α}

theorem PathList.entryOf_congr (hdirectory : list.directory = other.directory) :
    list.entryOf = other.entryOf := by
  funext member
  rw [entryOf, entryOf, hdirectory]

theorem Iteration.nextListed_congr (hdirectory : list.directory = other.directory)
    (sequence : Sequence σ α) (members : List String) :
    nextListed host sequence list members = nextListed host sequence other members := by
  induction members with
  | nil => rfl
  | cons member members ih =>
      rw [nextListed_cons, nextListed_cons, Sequence.pickMember, Sequence.pickMember,
        PathList.entryOf_congr hdirectory, ih]

theorem Iteration.next_congr {iteration : Iteration σ α} (hstarted : iteration.position ≠ .fresh)
    (hdirectory : list.directory = other.directory) :
    iteration.next host (.listed list) = iteration.next host (.listed other) := by
  obtain ⟨sequence, position⟩ := iteration
  cases position with
  | fresh => exact absurd rfl hstarted
  | listing members => rw [next_listing, next_listing, nextListed_congr hdirectory]
  | _ => rfl

theorem Iteration.started_of_next {iteration following : Iteration σ α} {value : Option α}
    {state last : σ}
    (h : iteration.next host (.listed list) state = some (.ok (value, following), last)) :
    following.position ≠ .fresh := by
  cases value with
  | none =>
      rw [(following_of_next h).2 rfl]
      rintro ⟨⟩
  | some value =>
      unfold next at h
      cases hentered : iteration.entered (.listed list) with
      | listing members =>
          rw [hentered] at h
          obtain ⟨⟨found, rest⟩, middle, -, hpair⟩ := Act.bind_eq_ok_iff.1 h
          cases hpair
          rintro ⟨⟩
      | _ =>
          rw [hentered] at h
          cases h

theorem Reader.started_of_ask {following : Reader σ α} {state last : σ}
    (h : reader.ask host (.listed list) state = some (.ok following, last)) :
    following.iteration.position ≠ .fresh := by
  obtain ⟨answer, middle, hanswer, hreceive⟩ := Act.bind_eq_ok_iff.1 h
  cases hreceive
  have hnext := Act.attempt_eq_ok_iff.1 hanswer
  match answer, hnext with
  | .error failure, _ => rintro ⟨⟩
  | .ok (none, following), hnext => exact Iteration.started_of_next hnext
  | .ok (some value, following), hnext => exact Iteration.started_of_next hnext

theorem Reader.follow_of_started (hstarted : reader.iteration.position ≠ .fresh)
    (hdirectory : list.directory = other.directory) (events : List (PathList.Event σ)) :
    reader.follow host events list =
      reader.follow host (events.filter (!·.isAddition)) other := by
  induction events generalizing reader list with
  | nil => rfl
  | cons event events ih =>
      cases event with
      | includes paths => exact ih hstarted hdirectory
      | other action => exact bind_congr fun _ => ih hstarted hdirectory
      | request =>
          have hask : reader.ask host (.listed list) = reader.ask host (.listed other) := by
            rw [ask, ask, Iteration.next_congr hstarted hdirectory]
          refine (Act.bind_congr_of_ok fun _ _ _ hfollowing => ?_).trans (congrArg (· >>= _) hask)
          exact ih (started_of_ask hfollowing) hdirectory

theorem Reader.follow_of_fresh {first : List (PathList.Event σ)} (hfirst : .request ∉ first)
    (later : List (PathList.Event σ)) :
    reader.follow host (first ++ .request :: later) list =
      reader.follow host ((first ++ .request :: later).filter (!·.isAddition))
        (list.includes (first.flatMap (·.additions))) := by
  induction first generalizing list with
  | nil =>
      apply Act.bind_congr_of_ok
      intro _ following _ hfollowing
      exact follow_of_started (started_of_ask hfollowing) rfl later
  | cons event first ih =>
      obtain ⟨hevent, hrest⟩ := List.ne_and_not_mem_of_not_mem_cons hfirst
      cases event with
      | includes paths =>
          rw [List.flatMap_cons, PathList.Event.additions, ← PathList.includes_append]
          exact ih hrest
      | other action => exact bind_congr fun _ => ih hrest
      | request => exact absurd rfl hevent

end

/-! ## Order -/

/-- In steady states the list is traversed in its order, however it is read.  The members that lead
somewhere are those that `found` names. -/
structure PathList.IsTraversedInOrder {σ : Type} (steady : σ → Prop) (host : Host σ)
    (list : PathList) (found : String → Bool) : Prop where
  handed : ∀ bottomUp,
    Act.Answers steady
      (Act.gathering [] ((Collection.listed list).forEach host bottomUp
        fun entry => Act.gather (entry :: ·)))
      (.ok ((list.reported found bottomUp).map list.entryOf).reverse)
  given : ∀ {α : Type} (value : Entry → Act σ (Option α)) (only : Option (Rule σ)) (bottomUp : Bool)
      (picked : Entry → Option α),
    (∀ entry, Act.Answers steady
      (((Collection.listed list).collect value bottomUp only).pick host entry)
      (.ok (picked entry))) →
      ((Collection.listed list).collect value bottomUp only).Gives steady host (.listed list)
        ((list.reported found bottomUp).filterMap fun member => picked (list.entryOf member))
  reversed : list.reported found true = (list.reported found false).reverse
  /-- What lies below a path comes after it, whatever stands between them. -/
  topDown : ∀ {i j : Nat} {above rest : String}, (list.reported found false)[i]? = some above →
    (list.reported found false)[j]? = some (above ++ "/" ++ rest) → i < j
  bottomUp : ∀ {i j : Nat} {above rest : String}, (list.reported found true)[i]? = some above →
    (list.reported found true)[j]? = some (above ++ "/" ++ rest) → j < i

section

variable {σ : Type} {host : Host σ} {steady : σ → Prop} {before : σ} {list : PathList}
  {found : String → Bool}

theorem Sequence.answers_pickMember_of_mem {α : Type} {sequence : Sequence σ α}
    {picked : Entry → Option α}
    (hfound : ∀ member ∈ list.members,
      Act.Answers steady (host.exists? (list.entryOf member).path) (.ok (found member)))
    (hpicked : ∀ entry, Act.Answers steady (sequence.pick host entry) (.ok (picked entry))) :
    ∀ member ∈ list.ordered sequence.bottomUp,
      Act.Answers steady (sequence.pickMember host list member)
        (.ok (if found member then picked (list.entryOf member) else none)) := by
  intro member hmember
  exact answers_pickMember (hfound member (PathList.mem_of_mem_ordered hmember)) (hpicked _)

theorem PathList.isTraversedInOrder (hsorted : list.members.SortedLT) (hbefore : steady before)
    (hfound : ∀ member ∈ list.members,
      Act.Answers steady (host.exists? (list.entryOf member).path) (.ok (found member))) :
    list.IsTraversedInOrder steady host found where
  handed bottomUp := by
    have hpairs : Act.Answers steady
        (Act.gathering [] (((Collection.listed list).pairs .any bottomUp).forEach host
          (.listed list) fun entry => Act.gather (entry :: ·)))
        (.ok ((list.ordered bottomUp).filterMap fun member =>
          if found member then some (list.entryOf member) else none).reverse) :=
      Sequence.answers_forEach_listed
        (Sequence.answers_pickMember_of_mem hfound fun entry => .pure (some entry))
    rw [← List.filterMap_filter, List.filterMap_eq_map'] at hpairs
    exact hpairs
  given value only bottomUp picked hpicked := by
    rw [reported, List.filterMap_filter]
    exact Sequence.gives_listed hbefore (Sequence.answers_pickMember_of_mem hfound hpicked)
  reversed := reported_bottomUp
  topDown hi hj := lt_of_pairwise (sortedLT_reported hsorted).pairwise hi hj (lt_below _ _)
  bottomUp hi hj := lt_of_pairwise (sortedGT_reported hsorted).pairwise hj hi (lt_below _ _)

/-- However its paths were added, a path list has each of them once, without its leading slashes,
and in ascending order.  Where nothing changes, it is traversed in this order or the other way
round, and a path comes before what lies below it, or bottom-up after it.  An iteration keeps to the
members that the list has when the first value is requested. -/
theorem PathList.paths_in_order (host : Host σ) (directory : Path) (calls : List (List String)) :
    let list := ofCalls directory calls
    (list.members.SortedLT ∧ (∀ member ∈ list.members, ¬ IsRooted member) ∧
      list.members = (calls.flatten.map relativePart).toFinset.sort (· ≤ ·) ∧
      list.members.length = (calls.flatten.map relativePart).toFinset.card) ∧
    (∀ (steady : σ → Prop) (before : σ) (found : String → Bool), steady before →
      (∀ member ∈ list.members,
        Act.Answers steady (host.exists? (list.entryOf member).path) (.ok (found member))) →
        list.IsTraversedInOrder steady host found) ∧
    ∀ (α : Type) (sequence : Sequence σ α) (first later : List (Event σ)), .request ∉ first →
      (Reader.start sequence).follow host (first ++ .request :: later) list =
        (Reader.start sequence).follow host
          ((first ++ .request :: later).filter (!·.isAddition))
          (list.includes (first.flatMap (·.additions))) := by
  have hsorted := sortedLT_ofCalls directory calls
  refine ⟨⟨hsorted, fun member => not_isRooted_of_mem_ofCalls, members_ofCalls directory calls,
    length_members_ofCalls directory calls⟩, ?_, ?_⟩
  · intro steady before found hbefore hfound
    exact isTraversedInOrder hsorted hbefore hfound
  · intro α sequence first later hfirst
    exact Reader.follow_of_fresh hfirst later

end

def calledPair : PathList := .ofCalls ⟨"/", []⟩ [["/b"], ["a", "//b"]]

theorem pair_paths_in_order :
    calledPair.members = ["a", "b"] ∧
      ((Collection.listed calledPair).relatives .any true).Gives
        (fun session : Session Unit => session.files = .filePair) Session.host (.listed calledPair)
        ["b", "a"] ∧
      (Reader.start (pairRelatives "")).follow Session.host
          [.includes ["b"], .request, .includes ["c"], .request] (.ofCalls ⟨"/", []⟩ [["a"]]) =
        (Reader.start (pairRelatives "")).follow Session.host [.request, .request]
          (.ofCalls ⟨"/", []⟩ [["a"], ["b"]]) := by
  have hmembers : calledPair.members = ["a", "b"] := by decide
  obtain ⟨-, htraversed, -⟩ :=
    PathList.paths_in_order (Session.host : Host (Session Unit)) ⟨"/", []⟩ [["/b"], ["a", "//b"]]
  obtain ⟨-, -, hkept⟩ :=
    PathList.paths_in_order (Session.host : Host (Session Unit)) ⟨"/", []⟩ [["a"]]
  have hfiles : (Session.ofFiles FileSystem.filePair ()).files = .filePair := rfl
  have hfound : ∀ member ∈ calledPair.members,
      Act.Answers (fun session : Session Unit => session.files = .filePair)
        (Session.host.exists? (calledPair.entryOf member).path) (.ok true) := by
    rw [hmembers]
    intro member hmember session hsession
    have hpath : (calledPair.entryOf member).path = ⟨"/", [member]⟩ := by
      simp only [List.mem_cons, List.not_mem_nil, or_false] at hmember
      obtain rfl | rfl := hmember
      · decide
      · decide
    rw [hpath]
    exact ⟨session, hsession, Act.bind_of_ok (status?_filePair hsession hmember)⟩
  have hordered : calledPair.IsTraversedInOrder
      (fun session : Session Unit => session.files = .filePair) Session.host (fun _ => true) :=
    htraversed _ _ _ hfiles hfound
  refine ⟨hmembers, ?_, ?_⟩
  · have hgives := hordered.given (fun entry => pure (some entry.relative)) none true
      (fun entry => some entry.relative) fun entry => .pure _
    rw [PathList.reported, PathList.ordered, hmembers] at hgives
    exact hgives
  · exact hkept String (pairRelatives "") [.includes ["b"]] [.includes ["c"], .request] (by simp)

end FileSelection
