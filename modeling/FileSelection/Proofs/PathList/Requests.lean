import FileSelection.Proofs.PathList.Questions

/-!
# What a path list asks between requests

An iteration over the entries of a path list asks about the members that follow until one of them is
there.  However many requests are made, and whatever happens between them, it has asked about the
members so far as a traversal does, and it fails only at a path that is too long.
-/

namespace FileSelection

open FileSelection.Path

namespace PathList

section

variable {σ : Type} {host : Host σ} (hhost : host.Examines)

include hhost

/-! ## One request -/

theorem records_pickMember (list : PathList) (bottomUp : Bool) (member : String) (state : σ) :
    ∃ answer last, list.Answered member answer ∧
      Act.Records Prod.mk
        (((Collection.listed list).pairs .any bottomUp).pickMember host list member)
        (((Collection.listed list).pairs .any bottomUp).pickMember host.recorded list member) state
        ((Host.verdict answer).map fun found => if found then some (list.entryOf member) else none)
        [Question.call list ⟨member, answer⟩] last := by
  obtain ⟨answer, last, hanswered, hexists⟩ := exists_answer hhost list member state
  refine ⟨answer, last, hanswered, ?_⟩
  cases hverdict : Host.verdict answer with
  | ok found =>
      rw [hverdict] at hexists
      refine hexists.bind ?_
      cases found with
      | true => exact .pure _ _ _
      | false => exact .pure _ _ _
  | error failure =>
      rw [hverdict] at hexists
      exact hexists.bind_error

omit hhost in
def givenBy : Except Failure (Option Entry × List String) → List Entry
  | .ok (some entry, _) => [entry]
  | .ok (none, _) | .error _ => []

theorem records_nextListed (list : PathList) (bottomUp : Bool) (members : List String) (state : σ) :
    ∃ questions result last, list.Trace members questions (result.map Prod.snd) ∧
      list.foundBy questions = givenBy result ∧ (∀ rest, result = .ok (none, rest) → rest = []) ∧
      Act.Records Prod.mk
        (Iteration.nextListed host ((Collection.listed list).pairs .any bottomUp) list members)
        (Iteration.nextListed host.recorded ((Collection.listed list).pairs .any bottomUp) list
          members)
        state result (questions.map (Question.call list)) last := by
  induction members generalizing state with
  | nil =>
      refine ⟨[], .ok (none, []), state, .pause, rfl, ?_, .pure _ _ _⟩
      rintro _ ⟨⟩
      rfl
  | cons member members ih =>
      rw [Iteration.nextListed_cons, Iteration.nextListed_cons]
      obtain ⟨answer, middle, hanswered, hpick⟩ :=
        records_pickMember hhost list bottomUp member state
      cases hanswered with
      | found =>
          exact ⟨_, .ok (some (list.entryOf member), members), middle, .goOn (by simp) .pause, rfl,
            by simp, hpick.bind (.pure _ _ _)⟩
      | @absent failure habsent hshort =>
          obtain ⟨questions, result, last, htrace, hfound, hover, hrest⟩ := ih middle
          rw [Host.verdict_of_absent habsent] at hpick
          exact ⟨⟨member, .error failure⟩ :: questions, result, last,
            .goOn (by simpa using hshort) htrace, hfound, hover, hpick.bind hrest⟩
      | tooLong =>
          exact ⟨_, .error (list.tooLong member), middle, .stop, rfl, by simp, hpick.bind_error⟩

end

/-- How far an iteration over the entries of a list has come. -/
structure Progress where
  position : Iteration.Position
  taken : List Entry
  ending : Option (Except Failure Unit)

def Progress.reader (σ : Type) (list : PathList) (bottomUp : Bool) (progress : Progress) :
    Reader σ Entry :=
  ⟨⟨(Collection.listed list).pairs .any bottomUp, progress.position⟩, progress.taken,
    progress.ending⟩

inductive Progress.Stands (list : PathList) (bottomUp : Bool) :
    Progress → Except Failure (List String) → Prop
  | fresh {taken : List Entry} : Stands list bottomUp ⟨.fresh, taken, none⟩
      (.ok (list.ordered bottomUp))
  | listing {rest : List String} {taken : List Entry} :
      Stands list bottomUp ⟨.listing rest, taken, none⟩ (.ok rest)
  | ended {taken : List Entry} : Stands list bottomUp ⟨.over, taken, some (.ok ())⟩ (.ok [])
  | failed {taken : List Entry} {failure : Failure} :
      Stands list bottomUp ⟨.over, taken, some (.error failure)⟩ (.error failure)

/-- After so many requests, these questions have been asked, and the entries that were there have
been given, one for each request until the end. -/
structure Progress.HasAsked (list : PathList) (bottomUp : Bool) (requests : Nat)
    (questions : List Question) (progress : Progress) : Prop where
  trace : ∃ outcome, progress.Stands list bottomUp outcome ∧
    list.Trace (list.ordered bottomUp) questions outcome
  taken : progress.taken = list.foundBy questions
  given : progress.ending = none → progress.taken.length = requests

theorem Progress.hasAsked_start (list : PathList) (bottomUp : Bool) :
    HasAsked list bottomUp 0 [] ⟨.fresh, [], none⟩ where
  trace := ⟨_, .fresh, .pause⟩
  taken := rfl
  given _ := rfl

def Progress.after (taken : List Entry) : Except Failure (Option Entry × List String) → Progress
  | .ok (some entry, rest) => ⟨.listing rest, taken ++ [entry], none⟩
  | .ok (none, _) => ⟨.over, taken, some (.ok ())⟩
  | .error failure => ⟨.over, taken, some (.error failure)⟩

theorem Progress.HasAsked.after {list : PathList} {bottomUp : Bool} {requests : Nat}
    {questions more : List Question} {position : Iteration.Position} {taken : List Entry}
    {members : List String} {result : Except Failure (Option Entry × List String)}
    (h : HasAsked list bottomUp requests questions ⟨position, taken, none⟩)
    (htrace : list.Trace (list.ordered bottomUp) questions (.ok members))
    (hmore : list.Trace members more (result.map Prod.snd))
    (hfound : list.foundBy more = givenBy result)
    (hover : ∀ rest, result = .ok (none, rest) → rest = []) :
    HasAsked list bottomUp (requests + 1) (questions ++ more) (.after taken result) := by
  have hall := htrace.trans hmore
  have htaken : taken = list.foundBy questions := h.taken
  match result with
  | .ok (some entry, rest) =>
      refine ⟨⟨_, .listing, hall⟩, ?_, fun _ => ?_⟩
      · rw [foundBy_append, hfound, ← htaken]
        rfl
      · have hlength : taken.length = requests := h.given rfl
        rw [Progress.after, List.length_append, hlength, List.length_singleton]
  | .ok (none, rest) =>
      obtain rfl := hover rest rfl
      refine ⟨⟨_, .ended, hall⟩, ?_, by rintro ⟨⟩⟩
      rw [foundBy_append, hfound, ← htaken]
      exact (List.append_nil taken).symm
  | .error failure =>
      refine ⟨⟨_, .failed, hall⟩, ?_, by rintro ⟨⟩⟩
      rw [foundBy_append, hfound, ← htaken]
      exact (List.append_nil taken).symm

theorem Progress.ask_entered {σ : Type} {host : Host σ} {list : PathList} {bottomUp : Bool}
    {position : Iteration.Position} {members : List String} {taken : List Entry}
    {state last : σ} {result : Except Failure (Option Entry × List String)}
    (hentered : (⟨(Collection.listed list).pairs .any bottomUp, position⟩ :
      Iteration σ Entry).entered (.listed list) = .listing members)
    (h : Iteration.nextListed host ((Collection.listed list).pairs .any bottomUp) list members
      state = some (result, last)) :
    (reader σ list bottomUp ⟨position, taken, none⟩).ask host (.listed list) state =
      some (.ok ((Progress.after taken result).reader σ list bottomUp), last) := by
  have hnext : (⟨(Collection.listed list).pairs .any bottomUp, position⟩ :
      Iteration σ Entry).next host (.listed list) = do
        let (value, members) ←
          Iteration.nextListed host ((Collection.listed list).pairs .any bottomUp) list members
        return (value, ⟨(Collection.listed list).pairs .any bottomUp,
          if value.isSome then .listing members else .over⟩) := by
    unfold Iteration.next
    rw [hentered]
  have hattempt : ((⟨(Collection.listed list).pairs .any bottomUp, position⟩ :
      Iteration σ Entry).next host (.listed list)).attempt state =
        some (.ok (result.map fun (value, members) =>
          (value, ⟨(Collection.listed list).pairs .any bottomUp,
            if value.isSome then .listing members else .over⟩)), last) := by
    rw [Act.attempt_eq_ok_iff, hnext]
    cases result with
    | ok answer => exact Act.bind_of_ok h
    | error failure => exact Act.bind_of_error h
  refine (Act.bind_of_ok hattempt).trans ?_
  match result with
  | .ok (some entry, rest) | .ok (none, rest) | .error failure => rfl

def Progress.GoesOn {σ : Type} (host : Host σ) (list : PathList) (bottomUp : Bool) (requests : Nat)
    (questions : List Question) (progress : Progress) (state : σ) : Prop :=
  ∃ following more last, HasAsked list bottomUp (requests + 1) (questions ++ more) following ∧
    (progress.reader σ list bottomUp).ask host (.listed list) state =
      some (.ok (following.reader σ list bottomUp), last) ∧
    ∀ record, (progress.reader (List Walk.Call × σ) list bottomUp).ask host.recorded (.listed list)
      (record, state) =
        some (.ok (following.reader _ list bottomUp), record ++ more.map (Question.call list), last)

def Event.Continues {σ : Type} : Event σ → Prop
  | .includes _ => False
  | .other action => ∀ state, ∃ last, action state = some (.ok (), last)
  | .request => True

def Event.isRequest {σ : Type} : Event σ → Bool
  | .request => true
  | .includes _ | .other _ => false

def Event.beside {σ ρ : Type} : Event σ → Event (ρ × σ)
  | .includes paths => .includes paths
  | .other action => .other action.beside
  | .request => .request

section

variable {σ : Type} {host : Host σ} (hhost : host.Examines) {list : PathList} {bottomUp : Bool}
  {requests : Nat} {questions : List Question}

include hhost

theorem Progress.HasAsked.goesOn_entered {position : Iteration.Position} {taken : List Entry}
    {members : List String}
    (h : HasAsked list bottomUp requests questions ⟨position, taken, none⟩)
    (htrace : list.Trace (list.ordered bottomUp) questions (.ok members))
    (hentered : ∀ τ, (⟨(Collection.listed list).pairs .any bottomUp, position⟩ :
      Iteration τ Entry).entered (.listed list) = .listing members) (state : σ) :
    GoesOn host list bottomUp requests questions ⟨position, taken, none⟩ state := by
  obtain ⟨more, result, last, hmore, hfound, hover, hrecords⟩ :=
    records_nextListed hhost list bottomUp members state
  exact ⟨_, more, last, h.after htrace hmore hfound hover, ask_entered (hentered σ) hrecords.run,
    fun record => ask_entered (hentered _) (hrecords.recorded record)⟩

omit hhost in
theorem Progress.HasAsked.goesOn_over {taken : List Entry} {result : Except Failure Unit}
    (h : HasAsked list bottomUp requests questions ⟨.over, taken, some result⟩) (state : σ) :
    GoesOn host list bottomUp requests questions ⟨.over, taken, some result⟩ state := by
  refine ⟨⟨.over, taken, some result⟩, [], state, ?_, ?_, fun record => ?_⟩
  · rw [List.append_nil]
    exact ⟨h.trace, h.taken, by rintro ⟨⟩⟩
  · rw [Reader.ask_of_over rfl rfl]
    rfl
  · rw [Reader.ask_of_over rfl rfl, List.map_nil, List.append_nil]
    rfl

theorem Progress.HasAsked.goesOn {progress : Progress}
    (h : progress.HasAsked list bottomUp requests questions) (state : σ) :
    GoesOn host list bottomUp requests questions progress state := by
  obtain ⟨outcome, hstands, htrace⟩ := h.trace
  cases hstands with
  | fresh | listing => exact h.goesOn_entered hhost htrace (fun _ => rfl) state
  | ended | failed => exact h.goesOn_over state

theorem Progress.HasAsked.follow {events : List (Event σ)} {progress : Progress}
    (h : progress.HasAsked list bottomUp requests questions)
    (hevents : ∀ event ∈ events, event.Continues) (state : σ) :
    ∃ following more last,
      HasAsked list bottomUp (requests + events.countP (·.isRequest)) (questions ++ more)
        following ∧
      (progress.reader σ list bottomUp).follow host events list state =
        some (.ok (following.reader σ list bottomUp), last) ∧
      ∀ record, (progress.reader (List Walk.Call × σ) list bottomUp).follow host.recorded
        (events.map (·.beside)) list (record, state) =
          some (.ok (following.reader _ list bottomUp),
            record ++ more.map (Question.call list), last) := by
  induction events generalizing progress requests questions state with
  | nil =>
      refine ⟨progress, [], state, ?_, rfl, fun record => ?_⟩
      · rw [List.append_nil]
        exact h
      · rw [List.map_nil, List.map_nil, List.append_nil]
        rfl
  | cons event events ih =>
      obtain ⟨hevent, hrest⟩ := List.forall_mem_cons.1 hevents
      cases event with
      | includes paths => exact absurd hevent not_false
      | other action =>
          obtain ⟨middle, haction⟩ := hevent state
          obtain ⟨following, more, last, hfollowing, hrun, hrecorded⟩ := ih h hrest middle
          refine ⟨following, more, last, ?_, (Act.bind_of_ok haction).trans hrun, fun record => ?_⟩
          · rw [List.countP_cons_of_neg (by simp [Event.isRequest])]
            exact hfollowing
          · have hbeside : action.beside (record, state) = some (.ok (), record, middle) :=
              Act.beside_eq_some_iff.2 ⟨haction, rfl⟩
            exact (Act.bind_of_ok hbeside).trans (hrecorded record)
      | request =>
          obtain ⟨between, asked, middle, hbetween, hask, hasked⟩ := h.goesOn hhost state
          obtain ⟨following, more, last, hfollowing, hrun, hrecorded⟩ := ih hbetween hrest middle
          refine ⟨following, asked ++ more, last, ?_, (Act.bind_of_ok hask).trans hrun,
            fun record => ?_⟩
          · rw [List.countP_cons_of_pos rfl, ← List.append_assoc, Nat.add_comm _ 1, ← Nat.add_assoc]
            exact hfollowing
          · rw [List.map_append, ← List.append_assoc]
            exact (Act.bind_of_ok (hasked record)).trans (hrecorded _)

omit hhost in
theorem length_ordered (list : PathList) (bottomUp : Bool) :
    (list.ordered bottomUp).length = list.members.length := by
  unfold ordered
  split
  · exact List.length_reverse
  · rfl

omit hhost in
theorem Progress.HasAsked.requests_le {bottomUp : Bool} {requests : Nat} {progress : Progress}
    {rest : List String}
    (h : progress.HasAsked list bottomUp requests questions)
    (htrace : list.Trace (list.ordered bottomUp) questions (.ok rest))
    (hgoing : progress.ending = none) : requests ≤ list.members.length := by
  have hasked : questions.length + rest.length = list.members.length := by
    rw [← length_ordered list bottomUp, ← htrace.members_of_ok, List.length_append, List.length_map]
  have hfound : (list.foundBy questions).length ≤ questions.length := by
    rw [foundBy, List.length_map]
    exact List.length_filter_le _ _
  rw [← h.given hgoing, h.taken]
  omega

omit hhost in
theorem Progress.HasAsked.completes {bottomUp : Bool} {requests : Nat} {progress : Progress}
    (h : progress.HasAsked list bottomUp requests questions)
    (hshort : list.NoneTooLong questions) :
    progress.ending = none ∧ requests ≤ list.members.length ∨
      progress.ending = some (.ok ()) ∧ questions.map (·.member) = list.ordered bottomUp := by
  obtain ⟨outcome, hstands, htrace⟩ := h.trace
  cases hstands with
  | fresh | listing => exact .inl ⟨rfl, h.requests_le htrace rfl⟩
  | ended => exact .inr ⟨rfl, (List.append_nil _).symm.trans htrace.members_of_ok⟩
  | failed =>
      obtain ⟨question, hquestion, hlong⟩ := htrace.exists_tooLong
      exact absurd hlong (hshort question hquestion)

/-! ## The whole -/

/-- A traversal asks about the members in turn and reports those that are there when they are asked
about.  It is cut short only by a path that is too long, whatever else happens meanwhile. -/
theorem traversal_fails_only_at_long_path (list : PathList) (bottomUp : Bool) (state : σ) :
    (∀ act : Entry → Act σ Unit,
      (∀ entry before, ∃ after, act entry before = some (.ok (), after)) →
        ∃ questions, ∃ result : Except Failure Unit, ∃ last,
          list.Trace (list.ordered bottomUp) questions (result.map fun () => []) ∧
          (list.NoneTooLong questions →
            result = .ok () ∧ questions.map (·.member) = list.ordered bottomUp) ∧
          Act.Records Act.beneath ((Collection.listed list).forEach host bottomUp (handing act))
            ((Collection.listed list).forEach host.recorded bottomUp
              (handing fun entry => (act entry).beside))
            ([], state) result (questions.map (Question.call list))
            ((list.foundBy questions).reverse, last)) ∧
    (∃ questions, ∃ result : Except Failure Unit, ∃ last,
      list.Trace (list.ordered bottomUp) questions (result.map fun () => []) ∧
      (list.NoneTooLong questions →
        result = .ok () ∧ questions.map (·.member) = list.ordered bottomUp) ∧
      Act.Records Prod.mk
        (((Collection.listed list).pairs .any bottomUp).toList host (.listed list))
        (((Collection.listed list).pairs .any bottomUp).toList host.recorded (.listed list)) state
        (result.map fun () => list.foundBy questions) (questions.map (Question.call list)) last) ∧
    ∀ events : List (Event σ), (∀ event ∈ events, event.Continues) →
      ∃ progress questions last,
        Progress.HasAsked list bottomUp (events.countP (·.isRequest)) questions progress ∧
        (list.NoneTooLong questions →
          progress.ending = none ∧ events.countP (·.isRequest) ≤ list.members.length ∨
          progress.ending = some (.ok ()) ∧
            questions.map (·.member) = list.ordered bottomUp) ∧
        (Reader.start ((Collection.listed list).pairs .any bottomUp)).follow host events list
          state = some (.ok (progress.reader σ list bottomUp), last) ∧
        (Reader.start ((Collection.listed list).pairs .any bottomUp)).follow host.recorded
          (events.map (·.beside)) list ([], state) =
            some (.ok (progress.reader _ list bottomUp),
              questions.map (Question.call list), last) := by
  refine ⟨?_, ?_, ?_⟩
  · intro act hact
    obtain ⟨questions, result, last, htrace, hrecords⟩ :=
      traverses_at_once hhost list bottomUp hact state
    exact ⟨questions, result, last, htrace, htrace.completes, hrecords⟩
  · obtain ⟨questions, result, last, htrace, hrecords⟩ := lists_at_once hhost list bottomUp state
    exact ⟨questions, result, last, htrace, htrace.completes, hrecords⟩
  · intro events hevents
    obtain ⟨progress, questions, last, hasked, hrun, hrecorded⟩ :=
      (Progress.hasAsked_start list bottomUp).follow hhost hevents state
    rw [Nat.zero_add, List.nil_append] at hasked
    exact ⟨progress, questions, last, hasked, hasked.completes, hrun, hrecorded []⟩

end

/-! ## A name that is too long -/

theorem toList_of_tooLong {σ : Type} {host : Host σ} {list : PathList} {bottomUp : Bool}
    {member : String} {members : List String} {state last : σ}
    (hordered : list.ordered bottomUp = member :: members)
    (hstatus : host.status true (list.entryOf member).path state =
      some (.error (list.tooLong member), last)) :
    ((Collection.listed list).pairs .any bottomUp).toList host (.listed list) state =
      some (.error (list.tooLong member), last) := by
  have hexists : host.exists? (list.entryOf member).path state =
      some (.error (list.tooLong member), last) := Host.exists?_of_status hstatus
  have hvisit : visitMember host list (fun _ => pure ()) member ([], state) =
      some (.error (list.tooLong member), [], last) :=
    Act.bind_of_error (Act.beside_eq_some_iff.2 ⟨hexists, rfl⟩)
  have hforEach : (Collection.listed list).forEach host bottomUp (handing fun _ => pure ())
      ([], state) = some (.error (list.tooLong member), [], last) := by
    show (list.ordered bottomUp).forM (visitMember host list fun _ => pure ()) ([], state) = _
    rw [hordered]
    exact Act.bind_of_error hvisit
  have hgathering : Act.gathering [] (((Collection.listed list).pairs .any bottomUp).forEach host
      (.listed list) fun entry => Act.gather (entry :: ·)) state =
        some (.error (list.tooLong member), last) := by
    rw [gather_eq_handing, Collection.forEach_pairs]
    unfold Act.gathering
    rw [hforEach]
    rfl
  rw [Sequence.toList, map_eq_pure_bind]
  exact Act.bind_of_error hgathering

end PathList

namespace FileSystem

theorem status_longName :
    filePair.status true ⟨"/", [longName]⟩ =
      .error (.system .nameTooLong (Path.text ⟨"/", [longName]⟩)) := by
  have hsize := utf8ByteSize_longName
  refine status_of_long rfl isName_longName (not_mem_longName (by decide)) ?_ ?_
  · rw [hsize]
    decide
  · rw [hsize]
    decide

end FileSystem

def longList : PathList := .ofCalls ⟨"/", []⟩ [[FileSystem.longName]]

theorem ordered_longList : longList.ordered false = [FileSystem.longName] := by
  have hrelative : PathList.relativePart FileSystem.longName = FileSystem.longName :=
    PathList.relativePart_eq_self FileSystem.isName_longName.not_isRooted
  show [PathList.relativePart FileSystem.longName] = _
  rw [hrelative]

theorem path_longList :
    (longList.entryOf FileSystem.longName).path = ⟨"/", [FileSystem.longName]⟩ := by
  have hdot : FileSystem.longName ≠ "." := FileSystem.longName_ne (by decide)
  rw [PathList.entryOf, ofText_isName FileSystem.isName_longName hdot]
  rfl

theorem status_longList {session : Session Unit} (hfiles : session.files = .filePair) :
    Session.host.status true (longList.entryOf FileSystem.longName).path session =
      some (.error (longList.tooLong FileSystem.longName), session) := by
  rw [PathList.tooLong, path_longList]
  exact Session.host_status hfiles FileSystem.status_longName

theorem toList_longList :
    ((Collection.listed longList).pairs .any false).toList Session.host (.listed longList)
        (Session.ofFiles .filePair ()) =
      some (.error (longList.tooLong FileSystem.longName), Session.ofFiles .filePair ()) :=
  PathList.toList_of_tooLong ordered_longList (status_longList rfl)

theorem traversals_fail_at_long_name :
    (∃ questions, ∃ result : Except Failure Unit, ∃ last,
      longList.Trace [FileSystem.longName] questions (result.map fun () => []) ∧
      (Collection.listed longList).forEach Session.host false
        (PathList.handing fun _ => (pure () : Act (Session Unit) Unit))
          ([], Session.ofFiles .filePair ()) =
            some (result, (longList.foundBy questions).reverse, last)) ∧
    (∃ questions, longList.Trace [FileSystem.longName] questions
        (.error (longList.tooLong FileSystem.longName)) ∧
      ((Collection.listed longList).pairs .any false).toList Session.host (.listed longList)
          (Session.ofFiles .filePair ()) =
        some (.error (longList.tooLong FileSystem.longName), Session.ofFiles .filePair ())) ∧
    ∃ progress questions last,
      PathList.Progress.HasAsked longList false 2 questions progress ∧
      (Reader.start ((Collection.listed longList).pairs .any false)).follow Session.host
        [.request, .other (pure ()), .request] longList (Session.ofFiles .filePair ()) =
          some (.ok (progress.reader (Session Unit) longList false), last) := by
  obtain ⟨hwalk, ⟨questions, result, last, htrace, -, hrecords⟩, hiterate⟩ :=
    PathList.traversal_fails_only_at_long_path Session.examines_host longList false
      (Session.ofFiles FileSystem.filePair ())
  rw [ordered_longList] at hwalk htrace
  refine ⟨?_, ⟨questions, ?_, toList_longList⟩, ?_⟩
  · obtain ⟨questions, result, last, htrace, -, hrecords⟩ :=
      hwalk (fun _ => pure ()) fun _ before => ⟨before, rfl⟩
    exact ⟨questions, result, last, htrace, hrecords.run⟩
  · have hsame := toList_longList.symm.trans hrecords.run
    cases result with
    | ok value => cases hsame
    | error failure =>
        cases hsame
        exact htrace
  · have hevents : ∀ event ∈ ([.request, .other (pure ()), .request] :
        List (PathList.Event (Session Unit))), event.Continues := by
      simp only [List.forall_mem_cons]
      exact ⟨trivial, fun before => ⟨before, rfl⟩, trivial, List.forall_mem_nil _⟩
    obtain ⟨progress, questions, last, hasked, -, hrun, -⟩ := hiterate _ hevents
    exact ⟨progress, questions, last, hasked, hrun⟩

/-- It does happen that a traversal of a path list fails. -/
theorem path_list_traversal_can_fail :
    ¬ ∀ (calls : List (List String)) (failure : Failure) (before after : Session Unit),
      ((Collection.listed (.ofCalls ⟨"/", []⟩ calls)).pairs .any false).toList Session.host
          (.listed (.ofCalls ⟨"/", []⟩ calls)) before ≠ some (.error failure, after) := by
  intro h
  exact h _ _ _ _ toList_longList

end FileSelection
