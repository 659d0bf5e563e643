import FileSelection.Collection
import FileSelection.Proofs.Act

/-!
# Two ways to read a sequence

As long as nothing changes, an iteration that is asked again and again gives the values that are
handed over when the sequence is read at once, and it ends in the same way.
-/

namespace FileSelection

/-! ## What stays the same -/

/-- The system gives the same answers in all steady states. -/
structure Host.IsStill {σ : Type} (host : Host σ) (steady : σ → Prop) : Prop where
  names : ∀ path, Act.Repeats steady (host.names path)
  status : ∀ follow path, Act.Repeats steady (host.status follow path)
  note : ∀ note, Act.Repeats steady (host.note note)

/-- A condition of the caller's own depends on nothing but the entry. -/
def Rule.IsPure {σ : Type} (steady : σ → Prop) : Rule σ → Prop
  | .custom test => ∀ entry, Act.Repeats steady (test entry)
  | .matching _ | .kind _ => True

structure RuleSet.IsPure {σ : Type} (steady : σ → Prop) (rules : RuleSet σ) : Prop where
  includes : ∀ rule ∈ rules.includes, rule.IsPure steady
  excludes : ∀ rule ∈ rules.excludes, rule.IsPure steady
  prunes : ∀ rule ∈ rules.prunes, rule.IsPure steady

def Collection.IsPure {σ : Type} (steady : σ → Prop) : Collection σ → Prop
  | .selected selection => selection.rules.IsPure steady
  | .listed _ => True

structure Sequence.IsPure {σ α : Type} (steady : σ → Prop) (sequence : Sequence σ α) : Prop where
  only : ∀ rule ∈ sequence.only, rule.IsPure steady
  value : ∀ entry, Act.Repeats steady (sequence.value entry)

section

variable {σ : Type} {host : Host σ} {steady : σ → Prop} (hhost : host.IsStill steady)

include hhost

theorem Host.IsStill.repeats_status? (follow : Bool) (path : Path) :
    Act.Repeats steady (host.status? follow path) := by
  refine .bind (.attempt (hhost.status follow path)) fun result => ?_
  cases result with
  | ok status => exact .pure _
  | error failure =>
      cases h : Host.meansAbsent failure with
      | true => simpa [h] using .pure none
      | false => simpa [h] using .throw failure

theorem Host.IsStill.repeats_hasKind (follow : Bool) (kind : Kind) (path : Path) :
    Act.Repeats steady (host.hasKind follow kind path) :=
  .bind (hhost.repeats_status? follow path) fun _ => .pure _

theorem Host.IsStill.repeats_exists? (path : Path) : Act.Repeats steady (host.exists? path) :=
  .bind (hhost.repeats_status? true path) fun _ => .pure _

theorem Rule.IsPure.repeats_holds {rule : Rule σ} (hrule : rule.IsPure steady) (entry : Entry) :
    Act.Repeats steady (rule.holds host entry) := by
  cases rule with
  | matching matcher =>
      simp only [holds]
      cases matcher.needsKind with
      | true => exact .bind (hhost.repeats_hasKind true .directory entry.path) fun _ => .pure _
      | false => exact .pure (matcher.accepts false entry.relative)
  | kind test =>
      cases test with
      | everything => exact .pure true
      | isFile => exact hhost.repeats_hasKind true .file entry.path
      | notFile => exact .bind (hhost.repeats_hasKind true .file entry.path) fun _ => .pure _
      | isDirectory => exact hhost.repeats_hasKind true .directory entry.path
      | notDirectory =>
          exact .bind (hhost.repeats_hasKind true .directory entry.path) fun _ => .pure _
  | custom test => exact hrule entry

theorem Rule.repeats_anyHolds {rules : List (Rule σ)} (hrules : ∀ rule ∈ rules, rule.IsPure steady)
    (entry : Entry) : Act.Repeats steady (Rule.anyHolds host rules entry) := by
  induction rules with
  | nil => exact .pure false
  | cons rule rules ih =>
      obtain ⟨hfirst, hrest⟩ := List.forall_mem_cons.1 hrules
      refine .bind (hfirst.repeats_holds hhost entry) fun holds => ?_
      cases holds with
      | true => exact .pure true
      | false => exact ih hrest

variable {rules : RuleSet σ} (hrules : rules.IsPure steady)

include hrules

theorem RuleSet.IsPure.repeats_accepts (entry : Entry) :
    Act.Repeats steady (rules.accepts host entry) := by
  have hexcluded : Act.Repeats steady
      (do return !(← Rule.anyHolds host rules.excludes entry) : Act σ Bool) :=
    .bind (Rule.repeats_anyHolds hhost hrules.excludes entry) fun _ => .pure _
  unfold RuleSet.accepts
  cases rules.includes.isEmpty with
  | true => exact hexcluded
  | false =>
      refine .bind (Rule.repeats_anyHolds hhost hrules.includes entry) fun included => ?_
      cases included with
      | true => exact hexcluded
      | false => exact .pure false

theorem RuleSet.IsPure.repeats_mayDescend (entry : Entry) :
    Act.Repeats steady (rules.mayDescend host entry) :=
  .bind (Rule.repeats_anyHolds hhost hrules.prunes entry) fun _ => .pure _

end

/-! ## Steps that stay the same -/

section

variable {σ α : Type} {host : Host σ} {steady : σ → Prop} (hhost : host.IsStill steady)

include hhost

theorem Walk.repeats_listNames (strict : Bool) (directory : Path) :
    Act.Repeats steady (listNames host strict directory) := by
  refine .bind (.attempt (hhost.names directory)) fun result => ?_
  cases result with
  | ok names => exact .pure _
  | error failure =>
      cases h : strict || !failure.isSystem with
      | true => simpa [h] using .throw failure
      | false => simpa [h] using .bind (hhost.note _) fun _ => .pure []

theorem Walk.repeats_isDescendable (walk : Walk σ) (path : Path) :
    Act.Repeats steady (walk.isDescendable host path) := by
  have hdirectory : Act.Repeats steady (host.isDirectory path) :=
    hhost.repeats_hasKind true .directory path
  unfold isDescendable
  cases walk.followLinks with
  | true => exact hdirectory
  | false =>
      refine .bind (hhost.repeats_hasKind false .link path) fun isLink => ?_
      cases isLink with
      | true => exact .pure false
      | false => exact hdirectory

theorem Walk.repeats_perform {walk : Walk σ}
    (haccept : ∀ entry, Act.Repeats steady (walk.accept entry))
    (hdescend : ∀ entry, Act.Repeats steady (walk.mayDescend entry)) (task : Task) :
    Act.Repeats steady (walk.perform host task) := by
  cases task with
  | enter directory relative =>
      exact .bind (repeats_listNames hhost walk.strict directory) fun _ => .pure _
  | visit entry => exact .pure _
  | descend entry =>
      have henters : Act.Repeats steady (walk.entersInto host entry) := by
        refine .bind (repeats_isDescendable hhost walk entry.path) fun descendable => ?_
        cases descendable with
        | true => exact hdescend entry
        | false => exact .pure false
      refine .bind henters fun enters => ?_
      cases enters with
      | true => exact .pure _
      | false => exact .pure _
  | report entry =>
      refine .bind (haccept entry) fun accepted => ?_
      cases accepted with
      | true => exact .pure _
      | false => exact .pure _

theorem Sequence.IsPure.repeats_pick {sequence : Sequence σ α} (hsequence : sequence.IsPure steady)
    (entry : Entry) : Act.Repeats steady (sequence.pick host entry) := by
  unfold pick
  cases honly : sequence.only with
  | none => exact hsequence.value entry
  | some rule =>
      refine .bind ((hsequence.only rule honly).repeats_holds hhost entry) fun kept => ?_
      cases kept with
      | true => exact hsequence.value entry
      | false => exact .pure none

omit hhost in
theorem Walk.repeats_advance {walk : Walk σ} {pick : Entry → Act σ (Option α)}
    (hperform : ∀ task, Act.Repeats steady (walk.perform host task))
    (hpick : ∀ entry, Act.Repeats steady (pick entry)) (stack : List Task) :
    Act.Repeats steady (walk.advance host pick stack) := by
  cases stack with
  | nil => exact .pure _
  | cons task rest =>
      refine .bind (hperform task) fun (found, tasks) => ?_
      cases found with
      | none => exact .pure _
      | some entry =>
          refine .bind (hpick entry) fun value => ?_
          cases value with
          | none => exact .pure _
          | some value => exact .pure _

variable {sequence : Sequence σ α} (hsequence : sequence.IsPure steady)

include hsequence

theorem Selection.repeats_advance {selection : Selection σ}
    (hrules : selection.rules.IsPure steady) (stack : List Walk.Task) :
    Act.Repeats steady
      ((selection.walk host sequence.bottomUp).advance host (sequence.pick host) stack) :=
  Walk.repeats_advance
    (Walk.repeats_perform hhost (hrules.repeats_accepts hhost) (hrules.repeats_mayDescend hhost))
    (hsequence.repeats_pick hhost) stack

end

/-! ## Members of a path list -/

section

variable {σ α : Type} {host : Host σ} {steady : σ → Prop} {sequence : Sequence σ α}
  {list : PathList}

def Sequence.pickMember (host : Host σ) (sequence : Sequence σ α) (list : PathList)
    (relative : String) : Act σ (Option α) := do
  let entry := list.entryOf relative
  if ← host.exists? entry.path then sequence.pick host entry else pure none

theorem Iteration.nextListed_cons (relative : String) (rest : List String) :
    nextListed host sequence list (relative :: rest) =
      (do
        match ← sequence.pickMember host list relative with
        | some value => return (some value, rest)
        | none => nextListed host sequence list rest) := by
  rw [nextListed, Sequence.pickMember, bind_assoc]
  refine bind_congr fun found => ?_
  cases found with
  | true => rfl
  | false => rfl

theorem Sequence.IsPure.repeats_pickMember (hhost : host.IsStill steady)
    (hsequence : sequence.IsPure steady) (relative : String) :
    Act.Repeats steady (sequence.pickMember host list relative) := by
  refine .bind (hhost.repeats_exists? _) fun found => ?_
  cases found with
  | true => exact hsequence.repeats_pick hhost _
  | false => exact .pure none

theorem Iteration.repeats_nextListed (hhost : host.IsStill steady)
    (hsequence : sequence.IsPure steady) (members : List String) :
    Act.Repeats steady (nextListed host sequence list members) := by
  induction members with
  | nil => exact .pure _
  | cons relative rest ih =>
      rw [nextListed_cons]
      refine .bind (hsequence.repeats_pickMember hhost relative) fun value => ?_
      cases value with
      | some value => exact .pure _
      | none => exact ih

end

/-! ## Iterations -/

namespace Iteration

variable {σ α : Type} {host : Host σ} {steady : σ → Prop} {sequence : Sequence σ α}

theorem next_walking {selection : Selection σ} (stack : List Walk.Task) :
    (⟨sequence, .walking stack⟩ : Iteration σ α).next host (.selected selection) = do
      let (value, tasks) ←
        (selection.walk host sequence.bottomUp).next host (sequence.pick host) stack
      return (value, ⟨sequence, if value.isSome then .walking tasks else .over⟩) := rfl

theorem next_listing {list : PathList} (members : List String) :
    (⟨sequence, .listing members⟩ : Iteration σ α).next host (.listed list) = do
      let (value, members) ← nextListed host sequence list members
      return (value, ⟨sequence, if value.isSome then .listing members else .over⟩) := rfl

theorem repeats_next {collection : Collection σ} {iteration : Iteration σ α}
    (hhost : host.IsStill steady) (hcollection : collection.IsPure steady)
    (hsequence : iteration.sequence.IsPure steady) :
    Act.Repeats steady (iteration.next host collection) := by
  unfold next
  cases collection with
  | selected selection =>
      cases iteration.entered (.selected selection) with
      | walking stack =>
          refine .bind ?_ fun _ => .pure _
          exact .loop (Selection.repeats_advance hhost hsequence hcollection) stack
      | _ => exact .pure _
  | listed list =>
      cases iteration.entered (.listed list) with
      | listing members => exact .bind (repeats_nextListed hhost hsequence members) fun _ => .pure _
      | _ => exact .pure _

/-- An iteration that is asked again and again gives the values and then ends with the result. -/
inductive Yields (steady : σ → Prop) (host : Host σ) (collection : Collection σ) :
    Iteration σ α → List α → Except Failure Unit → Prop
  | ended {iteration following : Iteration σ α} :
      Act.Answers steady (iteration.next host collection) (.ok (none, following)) →
        Yields steady host collection iteration [] (.ok ())
  | failure {iteration : Iteration σ α} {failure : Failure} :
      Act.Answers steady (iteration.next host collection) (.error failure) →
        Yields steady host collection iteration [] (.error failure)
  | value {iteration following : Iteration σ α} {value : α} {values : List α}
      {result : Except Failure Unit} :
      Act.Answers steady (iteration.next host collection) (.ok (some value, following)) →
        Yields steady host collection following values result →
          Yields steady host collection iteration (value :: values) result

theorem Yields.congr {collection : Collection σ} {iteration other : Iteration σ α}
    {values : List α} {result : Except Failure Unit}
    (h : Yields steady host collection iteration values result)
    (hother : ∀ answer, Act.Answers steady (iteration.next host collection) answer →
      Act.Answers steady (other.next host collection) answer) :
    Yields steady host collection other values result := by
  cases h with
  | ended hnext => exact .ended (hother _ hnext)
  | failure hnext => exact .failure (hother _ hnext)
  | value hnext hrest => exact .value (hother _ hnext) hrest

end Iteration

/-! ## Handing values over -/

def Act.handOver {σ α : Type} (action : Act σ (Option α)) : Act (List α × σ) Unit := do
  match ← action.beside with
  | some value => Act.gather (value :: ·)
  | none => pure ()

inductive HandsOver {α : Type} (gathered : List α) :
    Except Failure (Option α) → Except Failure Unit → List α → Prop
  | failure {failure : Failure} : HandsOver gathered (.error failure) (.error failure) gathered
  | nothing : HandsOver gathered (.ok none) (.ok ()) gathered
  | value {value : α} : HandsOver gathered (.ok (some value)) (.ok ()) (value :: gathered)

section

variable {σ α : Type} {state last : σ} {gathered gathered' : List α}

theorem Act.handsOver_of_handOver {action : Act σ (Option α)} {result : Except Failure Unit}
    (h : handOver action (gathered, state) = some (result, gathered', last)) :
    ∃ answer, action state = some (answer, last) ∧ HandsOver gathered answer result gathered' := by
  obtain ⟨value, middle, hdone, h⟩ | ⟨failure, middle, hdone, heq⟩ := beside_bind_eq_some_iff.1 h
  · cases value with
    | some value =>
        cases h
        exact ⟨_, hdone, .value⟩
    | none =>
        cases h
        exact ⟨_, hdone, .nothing⟩
  · cases heq
    exact ⟨_, hdone, .failure⟩

theorem Act.answers_handOver {steady : σ → Prop} {action : Act σ (Option α)} {found : Option α}
    (h : Answers steady action (.ok found)) (hstate : steady state) (gathered : List α) :
    ∃ last, steady last ∧
      handOver action (gathered, state) = some (.ok (), found.toList ++ gathered, last) := by
  obtain ⟨last, hlast, haction⟩ := h state hstate
  have hbeside : action.beside (gathered, state) = some (.ok found, gathered, last) :=
    beside_eq_some_iff.2 ⟨haction, rfl⟩
  refine ⟨last, hlast, ?_⟩
  rw [handOver, bind_of_ok hbeside]
  cases found with
  | none => rfl
  | some found => rfl

theorem Walk.advance_of_follow {host : Host σ} {walk : Walk σ} {pick : Entry → Act σ (Option α)}
    {task : Task} {rest : List Task} {result : Except Failure (List Task ⊕ Unit)}
    (h : walk.follow host (fun entry => Act.handOver (pick entry)) (task :: rest)
      (gathered, state) = some (result, gathered', last)) :
    (∃ failure, result = .error failure ∧ gathered' = gathered ∧
      walk.advance host pick (task :: rest) state = some (.error failure, last)) ∨
    ∃ following, result = .ok (.inl following) ∧
      ((gathered' = gathered ∧
        walk.advance host pick (task :: rest) state = some (.ok (.inl following), last)) ∨
      ∃ value, gathered' = value :: gathered ∧
        walk.advance host pick (task :: rest) state =
          some (.ok (.inr (some value, following)), last)) := by
  obtain ⟨⟨found, tasks⟩, middle, hdone, h⟩ | ⟨failure, middle, hdone, heq⟩ :=
    Act.beside_bind_eq_some_iff.1 h
  · cases found with
    | none =>
        cases h
        exact .inr ⟨_, rfl, .inl ⟨rfl, Act.bind_of_ok hdone⟩⟩
    | some entry =>
        obtain ⟨_, ⟨gathered₂, after⟩, hvisit, h⟩ | ⟨failure, ⟨gathered₂, after⟩, hvisit, heq⟩ :=
          Act.bind_eq_some_iff.1 h
        · obtain ⟨answer, hpick, hhands⟩ := Act.handsOver_of_handOver hvisit
          cases h
          cases hhands with
          | nothing =>
              exact .inr ⟨_, rfl, .inl ⟨rfl, (Act.bind_of_ok hdone).trans (Act.bind_of_ok hpick)⟩⟩
          | value =>
              exact .inr ⟨_, rfl, .inr ⟨_, rfl,
                (Act.bind_of_ok hdone).trans (Act.bind_of_ok hpick)⟩⟩
        · obtain ⟨answer, hpick, hhands⟩ := Act.handsOver_of_handOver hvisit
          cases heq
          cases hhands with
          | failure =>
              exact .inl ⟨_, rfl, rfl, (Act.bind_of_ok hdone).trans (Act.bind_of_error hpick)⟩
  · cases heq
    exact .inl ⟨failure, rfl, rfl, Act.bind_of_error hdone⟩

end

namespace Iteration

variable {σ α : Type} {host : Host σ} {steady : σ → Prop} {sequence : Sequence σ α}
  (hhost : host.IsStill steady) (hsequence : sequence.IsPure steady)

include hhost hsequence

/-! ## Reading a selection -/

section

variable {selection : Selection σ} (hrules : selection.rules.IsPure steady)

omit hhost hsequence in
theorem Yields.of_step {stack following : List Walk.Task} {values : List α}
    {result : Except Failure Unit}
    (hstep : Act.Answers steady
      ((selection.walk host sequence.bottomUp).advance host (sequence.pick host) stack)
      (.ok (.inl following)))
    (h : Yields steady host (.selected selection) ⟨sequence, .walking following⟩ values result) :
    Yields steady host (.selected selection) ⟨sequence, .walking stack⟩ values result := by
  refine h.congr fun answer hanswer state hstate => ?_
  obtain ⟨middle, hmiddle, hadvance⟩ := hstep state hstate
  obtain ⟨last, hlast, hnext⟩ := hanswer middle hmiddle
  refine ⟨last, hlast, ?_⟩
  rw [next_walking, Act.bind_apply] at hnext ⊢
  rw [Walk.next, Act.loop_of_next hadvance]
  exact hnext

include hrules

theorem yields_of_follow {stack : List Walk.Task} {gathered gathered' : List α} {state last : σ}
    {result : Except Failure Unit} (hstate : steady state)
    (h : Act.Step.loop ((selection.walk host sequence.bottomUp).follow host
      fun entry => Act.handOver (sequence.pick host entry)) stack (gathered, state) =
        some (result, gathered', last)) :
    ∃ values, gathered' = values.reverse ++ gathered ∧
      Yields steady host (.selected selection) ⟨sequence, .walking stack⟩ values result := by
  have hrepeats := Selection.repeats_advance hhost hsequence hrules
  rw [Act.loop_eq_some_iff] at h
  generalize houtcome : (result, gathered', last) = outcome at h
  generalize hpair : (gathered, state) = pair at h
  -- The induction follows the steps of the walk.  A step that hands a value over ends one question
  -- and begins the next one; every other step is one on the way to an answer.
  induction h generalizing gathered state with
  | @value stack _ _ _ hstep =>
      cases hpair
      cases houtcome
      cases stack with
      | nil =>
          cases hstep
          exact ⟨[], rfl, .ended (.bind (.loop_of_value (.pure _)) (.pure _))⟩
      | cons task rest =>
          obtain ⟨_, heq, -⟩ | ⟨_, heq, -⟩ := Walk.advance_of_follow hstep
          · cases heq
          · cases heq
  | @failure stack _ _ _ hstep =>
      cases hpair
      cases houtcome
      cases stack with
      | nil => cases hstep
      | cons task rest =>
          obtain ⟨failure, heq, rfl, hadvance⟩ | ⟨_, heq, -⟩ := Walk.advance_of_follow hstep
          · cases heq
            have hanswer := (hrepeats _).answers hstate hadvance
            exact ⟨[], rfl, .failure (.bind_error (.loop_of_failure hanswer))⟩
          · cases heq
  | @next stack following _ middle _ hstep _ ih =>
      obtain ⟨gathered₁, middle⟩ := middle
      cases hpair
      cases stack with
      | nil => cases hstep
      | cons task rest =>
          obtain ⟨_, heq, -⟩ | ⟨_, heq, ⟨rfl, hadvance⟩ | ⟨value, rfl, hadvance⟩⟩ :=
            Walk.advance_of_follow hstep
          · cases heq
          · cases heq
            obtain ⟨values, hvalues, hyields⟩ :=
              ih ((hrepeats _).stays hstate hadvance) houtcome rfl
            exact ⟨values, hvalues, hyields.of_step ((hrepeats _).answers hstate hadvance)⟩
          · cases heq
            obtain ⟨values, hvalues, hyields⟩ :=
              ih ((hrepeats _).stays hstate hadvance) houtcome rfl
            have hanswer := (hrepeats _).answers hstate hadvance
            exact ⟨value :: values, by simpa using hvalues,
              .value (.bind (.loop_of_value hanswer) (.pure _)) hyields⟩

end

/-! ## Reading a path list -/

section

variable {list : PathList}

omit hhost hsequence in
theorem Yields.of_member {relative : String} {rest : List String} {values : List α}
    {result : Except Failure Unit}
    (hmember : Act.Answers steady (sequence.pickMember host list relative) (.ok none))
    (h : Yields steady host (.listed list) ⟨sequence, .listing rest⟩ values result) :
    Yields steady host (.listed list) ⟨sequence, .listing (relative :: rest)⟩ values result := by
  refine h.congr fun answer hanswer => ?_
  rw [next_listing, nextListed_cons, bind_assoc]
  exact .bind hmember hanswer

theorem yields_of_forM {members : List String} {gathered gathered' : List α} {state last : σ}
    {result : Except Failure Unit} (hstate : steady state)
    (h : (members.forM fun relative => Act.handOver (sequence.pickMember host list relative))
      (gathered, state) = some (result, gathered', last)) :
    ∃ values, gathered' = values.reverse ++ gathered ∧
      Yields steady host (.listed list) ⟨sequence, .listing members⟩ values result := by
  have hrepeats : ∀ relative, Act.Repeats steady (sequence.pickMember host list relative) :=
    hsequence.repeats_pickMember hhost
  induction members generalizing gathered state with
  | nil =>
      cases h
      exact ⟨[], rfl, .ended (.bind (.pure _) (.pure _))⟩
  | cons relative rest ih =>
      obtain ⟨_, ⟨gathered₁, middle⟩, hmember, h⟩ | ⟨failure, ⟨gathered₁, middle⟩, hmember, heq⟩ :=
        Act.bind_eq_some_iff.1 h
      · obtain ⟨answer, hpick, hhands⟩ := Act.handsOver_of_handOver hmember
        have hanswer := (hrepeats relative).answers hstate hpick
        obtain ⟨values, rfl, hyields⟩ := ih ((hrepeats relative).stays hstate hpick) h
        cases hhands with
        | nothing => exact ⟨values, rfl, hyields.of_member hanswer⟩
        | @value value =>
            have hnext : Act.Answers steady (nextListed host sequence list (relative :: rest))
                (.ok (some value, rest)) := by
              rw [nextListed_cons]
              exact .bind hanswer (.pure _)
            exact ⟨value :: values, by simp, .value (.bind hnext (.pure _)) hyields⟩
      · obtain ⟨answer, hpick, hhands⟩ := Act.handsOver_of_handOver hmember
        cases heq
        cases hhands with
        | failure =>
            have hanswer := (hrepeats relative).answers hstate hpick
            have hnext : Act.Answers steady (nextListed host sequence list (relative :: rest))
                (.error failure) := by
              rw [nextListed_cons]
              exact .bind_error hanswer
            exact ⟨[], rfl, .failure (.bind_error hnext)⟩

omit hhost hsequence in
theorem handOver_pickMember (relative : String) :
    Act.handOver (sequence.pickMember host list relative) =
      (do
        if ← (host.exists? (list.entryOf relative).path).beside then
          Act.handOver (sequence.pick host (list.entryOf relative))) := by
  rw [Act.handOver, Sequence.pickMember, Act.beside_bind, bind_assoc]
  refine bind_congr fun found => ?_
  cases found with
  | true => rfl
  | false => rfl

end

/-- An iteration gives the values that are handed over when the sequence is read at once, and ends
in the same way. -/
theorem yields_of_forEach {collection : Collection σ} (hcollection : collection.IsPure steady)
    {values : List α} {state last : σ} {result : Except Failure Unit} (hstate : steady state)
    (h : sequence.forEach host collection (fun value => Act.gather (value :: ·)) ([], state) =
      some (result, values.reverse, last)) :
    Yields steady host collection (start sequence) values result := by
  cases collection with
  | selected selection =>
      obtain ⟨found, hfound, hyields⟩ := yields_of_follow hhost hsequence hcollection hstate h
      obtain rfl : values = found := by simpa using hfound
      exact hyields.congr fun _ hanswer => hanswer
  | listed list =>
      have hmembers : ((list.ordered sequence.bottomUp).forM fun relative =>
          Act.handOver (sequence.pickMember host list relative)) ([], state) =
            some (result, values.reverse, last) := by
        simp only [handOver_pickMember]
        exact h
      obtain ⟨found, hfound, hyields⟩ := yields_of_forM hhost hsequence hstate hmembers
      obtain rfl : values = found := by simpa using hfound
      exact hyields.congr fun _ hanswer => hanswer

end Iteration

end FileSelection
