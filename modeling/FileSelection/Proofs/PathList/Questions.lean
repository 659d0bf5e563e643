import FileSelection.Proofs.PathList.Traversal
import FileSelection.Proofs.Sequence.Gathering
import FileSelection.Proofs.Walk.Calls
import FileSelection.Proofs.Walk.Lenient

/-!
# What a path list asks

A traversal of a path list examines each path when it comes to it and reports those that are found
then.  A path at which nothing can be is passed over, whatever the reason, except for one that is
too long for the system: with it the traversal fails.
-/

namespace FileSelection

open FileSelection.Path

/-! ## Whether a path exists -/

theorem Path.Refused.meansAbsent {path : Path} {failure : Failure} (h : path.Refused failure)
    (hshort : failure ≠ .system .nameTooLong path.text) : Host.meansAbsent failure = true := by
  cases h with
  | nul => rfl
  | @system error hdirectory =>
      cases error with
      | noEntry | notDirectory | linkLoop => rfl
      | isDirectory => exact absurd rfl hdirectory
      | nameTooLong => exact absurd rfl hshort

def Host.verdict : Except Failure Status → Except Failure Bool
  | .ok _ => .ok true
  | .error failure => if meansAbsent failure then .ok false else .error failure

theorem Host.verdict_of_absent {failure : Failure} (h : meansAbsent failure = true) :
    verdict (.error failure) = .ok false := if_pos h

theorem Host.exists?_of_status {σ : Type} {host : Host σ} {path : Path} {state last : σ}
    {answer : Except Failure Status} (h : host.status true path state = some (answer, last)) :
    host.exists? path state = some (verdict answer, last) := by
  cases answer with
  | ok status => exact Act.bind_of_ok (status?_of_ok h)
  | error failure =>
      cases habsent : meansAbsent failure with
      | true =>
          rw [verdict_of_absent habsent]
          exact Act.bind_of_ok (status?_of_absent h habsent)
      | false =>
          rw [verdict, habsent]
          exact Act.bind_of_error (status?_of_present h habsent)

theorem Host.records_exists? {σ : Type} {host : Host σ} {path : Path} {state last : σ}
    {answer : Except Failure Status} (h : host.status true path state = some (answer, last)) :
    Act.Records Prod.mk (host.exists? path) (host.recorded.exists? path) state (verdict answer)
      [Walk.Call.examine true path answer] last where
  run := exists?_of_status h
  recorded record := by
    apply exists?_of_status
    simp only [Host.recorded, Act.recording, h]

/-! ## Questions -/

namespace PathList

structure Question where
  member : String
  answer : Except Failure Status

def Question.call (list : PathList) (question : Question) : Walk.Call :=
  .examine true (list.entryOf question.member).path question.answer

def Question.isFound (question : Question) : Bool := question.answer.isOk

def foundBy (list : PathList) (questions : List Question) : List Entry :=
  (questions.filter (·.isFound)).map fun question => list.entryOf question.member

def tooLong (list : PathList) (member : String) : Failure :=
  .system .nameTooLong (list.entryOf member).path.text

/-- The members are asked about in turn, and this is what it comes to: some of them are left, or a
path is too long. -/
inductive Trace (list : PathList) :
    List String → List Question → Except Failure (List String) → Prop
  | pause {members : List String} : Trace list members [] (.ok members)
  | goOn {member : String} {members : List String} {answer : Except Failure Status}
      {questions : List Question} {outcome : Except Failure (List String)} :
      answer ≠ .error (list.tooLong member) → Trace list members questions outcome →
        Trace list (member :: members) (⟨member, answer⟩ :: questions) outcome
  | stop {member : String} {members : List String} :
      Trace list (member :: members) [⟨member, .error (list.tooLong member)⟩]
        (.error (list.tooLong member))

variable {list : PathList} {members rest : List String} {questions more : List Question}
  {outcome : Except Failure (List String)}

theorem Trace.trans (h : list.Trace members questions (.ok rest))
    (hrest : list.Trace rest more outcome) : list.Trace members (questions ++ more) outcome := by
  generalize hfirst : Except.ok rest = first at h
  induction h with
  | pause =>
      cases hfirst
      exact hrest
  | goOn hanswer _ ih => exact .goOn hanswer (ih hfirst)
  | stop => cases hfirst

theorem foundBy_append (questions more : List Question) :
    list.foundBy (questions ++ more) = list.foundBy questions ++ list.foundBy more := by
  simp only [foundBy, List.filter_append, List.map_append]

theorem Trace.members_of_ok (h : list.Trace members questions (.ok rest)) :
    questions.map (·.member) ++ rest = members := by
  generalize houtcome : Except.ok rest = outcome at h
  induction h with
  | pause =>
      cases houtcome
      rfl
  | goOn _ _ ih => exact congrArg _ (ih houtcome)
  | stop => cases houtcome

def NoneTooLong (list : PathList) (questions : List Question) : Prop :=
  ∀ question ∈ questions, question.answer ≠ .error (list.tooLong question.member)

theorem Trace.exists_tooLong {failure : Failure}
    (h : list.Trace members questions (.error failure)) :
    ∃ question ∈ questions, question.answer = .error (list.tooLong question.member) := by
  generalize houtcome : Except.error failure = outcome at h
  induction h with
  | pause => cases houtcome
  | goOn _ _ ih =>
      obtain ⟨question, hquestion, hlong⟩ := ih houtcome
      exact ⟨question, List.mem_cons_of_mem _ hquestion, hlong⟩
  | stop => exact ⟨_, List.mem_cons_self, rfl⟩

theorem Trace.completes {result : Except Failure Unit}
    (h : list.Trace members questions (result.map fun () => []))
    (hshort : list.NoneTooLong questions) :
    result = .ok () ∧ questions.map (·.member) = members := by
  cases result with
  | ok value => exact ⟨rfl, (List.append_nil _).symm.trans h.members_of_ok⟩
  | error failure =>
      obtain ⟨question, hquestion, hlong⟩ := h.exists_tooLong
      exact absurd hlong (hshort question hquestion)

inductive Answered (list : PathList) (member : String) : Except Failure Status → Prop
  | found {status : Status} : Answered list member (.ok status)
  | absent {failure : Failure} : Host.meansAbsent failure = true → failure ≠ list.tooLong member →
      Answered list member (.error failure)
  | tooLong : Answered list member (.error (list.tooLong member))

section

variable {σ : Type} {host : Host σ} (hhost : host.Examines)

include hhost

theorem exists_answer (list : PathList) (member : String) (state : σ) :
    ∃ answer last, list.Answered member answer ∧
      Act.Records Prod.mk (host.exists? (list.entryOf member).path)
        (host.recorded.exists? (list.entryOf member).path) state (Host.verdict answer)
        [Question.call list ⟨member, answer⟩] last := by
  obtain ⟨answer, last, hstatus, hrefused⟩ := hhost true (list.entryOf member).path state
  refine ⟨answer, last, ?_, Host.records_exists? hstatus⟩
  cases answer with
  | ok status => exact .found
  | error failure =>
      by_cases hlong : failure = list.tooLong member
      · rw [hlong]
        exact .tooLong
      · exact .absent ((hrefused failure rfl).meansAbsent hlong) hlong

/-! ## Traversals at once -/

omit hhost in
def handing (act : Entry → Act σ Unit) (entry : Entry) : Act (List Entry × σ) Unit := do
  Act.gather (entry :: ·)
  (act entry).beside

omit hhost in
theorem gather_eq_handing :
    (fun entry => Act.gather (entry :: ·)) =
      (handing fun _ => pure () : Entry → Act (List Entry × σ) Unit) := rfl

def visitMember (host : Host σ) (list : PathList) (act : Entry → Act σ Unit) (member : String) :
    Act (List Entry × σ) Unit := do
  if ← (host.exists? (list.entryOf member).path).beside then handing act (list.entryOf member)

variable {act : Entry → Act σ Unit}

omit hhost in
theorem records_handing (hact : ∀ entry state, ∃ last, act entry state = some (.ok (), last))
    (entry : Entry) (handed : List Entry) (state : σ) :
    ∃ last, Act.Records (Act.beneath : List Walk.Call → List Entry × σ → _) (handing act entry)
      (handing (fun entry => (act entry).beside) entry) (handed, state) (.ok ()) []
      (entry :: handed, last) := by
  obtain ⟨last, hdone⟩ := hact entry state
  exact ⟨last, (Act.Records.gather _ handed state).bind ((Act.Records.of_run hdone).beside _)⟩

theorem records_visitMember (hact : ∀ entry state, ∃ last, act entry state = some (.ok (), last))
    (list : PathList) (member : String) (handed : List Entry) (state : σ) :
    ∃ answer last, list.Answered member answer ∧
      Act.Records Act.beneath (visitMember host list act member)
        (visitMember host.recorded list (fun entry => (act entry).beside) member) (handed, state)
        ((Host.verdict answer).map fun _ => ()) [Question.call list ⟨member, answer⟩]
        ((list.foundBy [⟨member, answer⟩]).reverse ++ handed, last) := by
  obtain ⟨answer, middle, hanswered, hexists⟩ := exists_answer hhost list member state
  have hasked := hexists.beside handed
  cases hanswered with
  | @found status =>
      obtain ⟨last, hhanded⟩ := records_handing hact (list.entryOf member) handed middle
      exact ⟨.ok status, last, .found, hasked.bind hhanded⟩
  | @absent failure habsent hshort =>
      rw [Host.verdict_of_absent habsent] at hasked
      refine ⟨.error failure, middle, .absent habsent hshort, ?_⟩
      rw [Host.verdict_of_absent habsent]
      exact hasked.bind (.pure _ _ _)
  | tooLong => exact ⟨_, middle, .tooLong, hasked.bind_error⟩

theorem records_forM (hact : ∀ entry state, ∃ last, act entry state = some (.ok (), last))
    (list : PathList) (members : List String) (handed : List Entry) (state : σ) :
    ∃ questions result last, list.Trace members questions (result.map fun () => []) ∧
      Act.Records Act.beneath (members.forM (visitMember host list act))
        (members.forM (visitMember host.recorded list fun entry => (act entry).beside))
        (handed, state) result (questions.map (Question.call list))
        ((list.foundBy questions).reverse ++ handed, last) := by
  induction members generalizing handed state with
  | nil => exact ⟨[], .ok (), state, .pause, .pure _ _ _⟩
  | cons member members ih =>
      obtain ⟨answer, middle, hanswered, hvisit⟩ :=
        records_visitMember hhost hact list member handed state
      have hgoOn (hanswer : answer ≠ .error (list.tooLong member))
          (hverdict : (Host.verdict answer).map (fun _ => ()) = .ok ()) :
          ∃ questions result last,
            list.Trace (member :: members) questions (result.map fun () => []) ∧
            Act.Records Act.beneath ((member :: members).forM (visitMember host list act))
              ((member :: members).forM
                (visitMember host.recorded list fun entry => (act entry).beside))
              (handed, state) result (questions.map (Question.call list))
              ((list.foundBy questions).reverse ++ handed, last) := by
        obtain ⟨questions, result, last, htrace, hrest⟩ :=
          ih ((list.foundBy [⟨member, answer⟩]).reverse ++ handed) middle
        rw [hverdict] at hvisit
        rw [← List.append_assoc, ← List.reverse_append, ← foundBy_append] at hrest
        exact ⟨_, result, last, .goOn hanswer htrace, hvisit.bind hrest⟩
      cases hanswered with
      | found => exact hgoOn (by simp) rfl
      | @absent failure habsent hshort =>
          refine hgoOn (by simpa using hshort) ?_
          rw [Host.verdict_of_absent habsent]
          rfl
      | tooLong => exact ⟨_, .error (list.tooLong member), middle, .stop, hvisit.bind_error⟩

theorem traverses_at_once (list : PathList) (bottomUp : Bool) {act : Entry → Act σ Unit}
    (hact : ∀ entry state, ∃ last, act entry state = some (.ok (), last)) (state : σ) :
    ∃ questions, ∃ result : Except Failure Unit, ∃ last,
      list.Trace (list.ordered bottomUp) questions (result.map fun () => []) ∧
      Act.Records Act.beneath ((Collection.listed list).forEach host bottomUp (handing act))
        ((Collection.listed list).forEach host.recorded bottomUp
          (handing fun entry => (act entry).beside))
        ([], state) result (questions.map (Question.call list))
        ((list.foundBy questions).reverse, last) := by
  obtain ⟨questions, result, last, htrace, hrecords⟩ :=
    records_forM hhost hact list (list.ordered bottomUp) [] state
  rw [List.append_nil] at hrecords
  exact ⟨questions, result, last, htrace, hrecords⟩

theorem lists_at_once (list : PathList) (bottomUp : Bool) (state : σ) :
    ∃ questions, ∃ result : Except Failure Unit, ∃ last,
      list.Trace (list.ordered bottomUp) questions (result.map fun () => []) ∧
      Act.Records Prod.mk
        (((Collection.listed list).pairs .any bottomUp).toList host (.listed list))
        (((Collection.listed list).pairs .any bottomUp).toList host.recorded (.listed list)) state
        (result.map fun () => list.foundBy questions) (questions.map (Question.call list))
        last := by
  have hnothing (entry : Entry) (state : σ) :
      ∃ last, (pure () : Act σ Unit) state = some (.ok (), last) := ⟨state, rfl⟩
  obtain ⟨questions, result, last, htrace, hrecords⟩ :=
    traverses_at_once hhost list bottomUp hnothing state
  refine ⟨questions, result, last, htrace, ?_⟩
  unfold Sequence.toList
  rw [gather_eq_handing, gather_eq_handing, Collection.forEach_pairs, Collection.forEach_pairs]
  have hresult : (result.map fun () => (list.foundBy questions).reverse).map List.reverse =
      result.map fun () => list.foundBy questions := by
    cases result with
    | ok value => exact congrArg _ (List.reverse_reverse _)
    | error failure => rfl
  rw [← hresult]
  exact hrecords.gathering.map List.reverse

end

end PathList

end FileSelection
