import FileSelection.Proofs.Sequence.Settings
import FileSelection.Proofs.Walk.CallProgress

/-!
# The calls of an iteration

An iteration is asked for one value after the other, and between two values anything may change.
Still all its calls are in the order of one walk, and none of them is made before its turn: what is
not listed yet when a value is given is listed as it then is.
-/

namespace FileSelection

open FileSelection.Act

variable {σ α : Type}

namespace Iteration

/-! ## Recorded iterations -/

def recordedNext (host : Host σ) (iteration : Iteration σ α) (selection : Selection σ) :
    Act (List Walk.Call × σ) (Option α × Iteration σ α) := do
  let sequence := iteration.sequence
  match iteration.entered (.selected selection) with
  | .walking tasks =>
      let walk := (selection.walk host sequence.bottomUp).recorded
      let (value, tasks) ←
        walk.next host.recorded (fun entry => (sequence.pick host entry).beside) tasks
      return (value, ⟨sequence, if value.isSome then .walking tasks else .over⟩)
  | _ => return (none, iteration.closed)

def after (sequence : Sequence σ α) (drawn : Option α × List Walk.Task) :
    Option α × Iteration σ α :=
  (drawn.1, ⟨sequence, if drawn.1.isSome then .walking drawn.2 else .over⟩)

/-- The calls on the way to the next value are those of a walk, if the iteration is not over. -/
def Adds (host : Host σ) (iteration : Iteration σ α) (selection : Selection σ) :
    Account Walk.Call (Option α × Iteration σ α) := fun result calls =>
  match iteration.entered (.selected selection) with
  | .walking stack => ∃ drawn, result = drawn.map (after iteration.sequence) ∧
      Walk.Draws iteration.sequence.bottomUp selection.followLinks (iteration.sequence.pick host)
        stack drawn calls
  | _ => result = .ok (none, iteration.closed) ∧ calls = []

theorem recounts_next {host : Host σ} (hhost : host.ListsEntries) (iteration : Iteration σ α)
    (selection : Selection σ) :
    Recounts (iteration.Adds host selection) (iteration.next host (.selected selection))
      (iteration.recordedNext host selection) := by
  unfold next recordedNext Adds
  cases hentered : iteration.entered (.selected selection) with
  | walking stack =>
      simp only
      refine (Walk.recounts_next host (selection.walk host iteration.sequence.bottomUp) hhost
        (iteration.sequence.pick host) stack).bind (fun drawn => .pure ?_) ?_
      · intro calls hdraws
        rw [List.append_nil]
        exact ⟨.ok drawn, rfl, hdraws⟩
      · intro failure calls hdraws
        exact ⟨.error failure, rfl, hdraws⟩
  | _ => exact .pure ⟨rfl, rfl⟩

/-! ## Histories -/

/-- The values that an iteration has given and the calls that were made for it so far.  For each
further value, the host, the state and the rules can be others than before.  At the end the
iteration is suspended; or it has failed, or is still on its way. -/
inductive History (original : Selection σ) (sequence : Sequence σ α) :
    List α → List Walk.Call → Option (Iteration σ α) → Prop
  | start : History original sequence [] [] (some (.start sequence))
  | next {host : Host σ} {selection : Selection σ} {basepath : String} {values : List α}
      {calls more : List Walk.Call} {iteration following : Iteration σ α} {value : Option α}
      {state last : σ} :
      History original sequence values calls (some iteration) → host.ListsEntries →
        original.IsReconfigured selection basepath →
          iteration.recordedNext host selection ([], state) =
            some (.ok (value, following), more, last) →
              History original sequence (values ++ value.toList) (calls ++ more) (some following)
  | fail {host : Host σ} {selection : Selection σ} {basepath : String} {values : List α}
      {calls more : List Walk.Call} {iteration : Iteration σ α} {failure : Failure}
      {state last : σ} :
      History original sequence values calls (some iteration) → host.ListsEntries →
        original.IsReconfigured selection basepath →
          iteration.recordedNext host selection ([], state) = some (.error failure, more, last) →
            History original sequence values (calls ++ more) none
  | during {host : Host σ} {selection : Selection σ} {basepath : String} {values : List α}
      {calls more : List Walk.Call} {iteration : Iteration σ α} {stack : List Walk.Task}
      {state last : σ} :
      History original sequence values calls (some iteration) → host.ListsEntries →
        original.IsReconfigured selection basepath →
          iteration.entered (.selected selection) = .walking stack →
            Passes ((selection.walk host sequence.bottomUp).recorded.advance host.recorded
              fun entry => (sequence.pick host entry).beside) stack ([], state) (more, last) →
                History original sequence values (calls ++ more) none

def StopsAt (original : Selection σ) (iteration : Iteration σ α) (stack : List Walk.Task) : Prop :=
  (∀ selection basepath, original.IsReconfigured selection basepath →
    iteration.entered (.selected selection) = .walking stack) ∨
  iteration.position = .over ∧ stack = []

/-- Where a history has come to in the one walk that it takes. -/
structure History.Follows (original : Selection σ) (sequence : Sequence σ α) (values : List α)
    (calls : List Walk.Call) (iteration : Iteration σ α) (stack : List Walk.Task) : Prop where
  sequence_eq : iteration.sequence = sequence
  stops : iteration.StopsAt original stack
  trace : Walk.Trace sequence.bottomUp original.followLinks
    (Walk.start original.directory sequence.basepath) calls (.ok stack)
  given : ∀ values' value, values = values' ++ [value] → iteration.position ≠ .over →
    ∃ earlier entry, calls = earlier ++ [.accept entry (.ok true)] ∧
      ∃ before after, sequence.value entry before = some (.ok (some value), after)

section

variable {original selection : Selection σ} {sequence : Sequence σ α} {host : Host σ}
  {basepath : String} {values : List α} {calls more : List Walk.Call}
  {iteration following : Iteration σ α} {stack : List Walk.Task} {state last : σ}

theorem followLinks_of_isReconfigured (h : original.IsReconfigured selection basepath) :
    selection.followLinks = original.followLinks := by
  rw [h]

theorem History.Follows.next {value : Option α}
    (h : History.Follows original sequence values calls iteration stack)
    (hselection : original.IsReconfigured selection basepath)
    (hadds : iteration.Adds host selection (.ok (value, following)) more) :
    ∃ rest, History.Follows original sequence (values ++ value.toList) (calls ++ more) following
      rest := by
  obtain ⟨rfl, hstops, htrace, -⟩ := h
  unfold Adds at hadds
  rw [followLinks_of_isReconfigured hselection] at hadds
  obtain hentered | ⟨hover, rfl⟩ := hstops
  · simp only [hentered selection basepath hselection] at hadds
    obtain ⟨drawn, hdrawn, hdraws⟩ := hadds
    obtain ⟨⟨drawn?, rest⟩, rfl⟩ : ∃ next, drawn = .ok next := by
      cases drawn with
      | ok next => exact ⟨next, rfl⟩
      | error failure => cases hdrawn
    obtain ⟨rfl, rfl⟩ := Prod.mk.inj (Except.ok.inj hdrawn)
    cases value with
    | none => exact ⟨[], rfl, .inr ⟨rfl, rfl⟩, htrace.trans rfl hdraws, fun _ _ _ h => absurd rfl h⟩
    | some value =>
        obtain ⟨hrest, earlier, entry, rfl, before, after, hpick⟩ := hdraws
        refine ⟨rest, rfl, .inl fun _ _ _ => rfl, htrace.trans rfl hrest, ?_⟩
        intro values' last hlast _
        obtain ⟨-, hvalue⟩ := List.append_inj' hlast rfl
        obtain rfl : value = last := (List.cons.inj hvalue).1
        obtain ⟨earlier', hvalue⟩ := Sequence.value_of_pick hpick
        exact ⟨calls ++ earlier, entry, (List.append_assoc _ _ _).symm, earlier', after, hvalue⟩
  · have hentered : iteration.entered (.selected selection) = .over := by
      simp [entered, hover]
    simp only [hentered] at hadds
    obtain ⟨heq, rfl⟩ := hadds
    obtain ⟨rfl, rfl⟩ := Prod.mk.inj (Except.ok.inj heq)
    exact ⟨[], rfl, .inr ⟨rfl, rfl⟩, by simpa using htrace, fun _ _ _ h => absurd rfl h⟩

theorem History.Follows.fail {failure : Failure}
    (h : History.Follows original sequence values calls iteration stack)
    (hselection : original.IsReconfigured selection basepath)
    (hadds : iteration.Adds host selection (.error failure) more) :
    ∃ outcome, Walk.Trace sequence.bottomUp original.followLinks
      (Walk.start original.directory sequence.basepath) (calls ++ more) outcome := by
  obtain ⟨rfl, hstops, htrace, -⟩ := h
  unfold Adds at hadds
  rw [followLinks_of_isReconfigured hselection] at hadds
  obtain hentered | ⟨hover, rfl⟩ := hstops
  · simp only [hentered selection basepath hselection] at hadds
    obtain ⟨drawn, -, hdraws⟩ := hadds
    obtain ⟨outcome, hrest⟩ := hdraws.trace
    exact ⟨outcome, htrace.trans rfl hrest⟩
  · have hentered : iteration.entered (.selected selection) = .over := by
      simp [entered, hover]
    simp only [hentered] at hadds
    cases hadds.1

theorem follows_start (original : Selection σ) (sequence : Sequence σ α) :
    History.Follows original sequence [] [] (start sequence)
      (Walk.start original.directory sequence.basepath) where
  sequence_eq := rfl
  stops := .inl fun selection basepath hselection => by
    rw [hselection]
    rfl
  trace := .pause
  given values' value heq := by simp at heq

theorem History.follows {reached : Option (Iteration σ α)}
    (h : History original sequence values calls reached) :
    (∃ outcome, Walk.Trace sequence.bottomUp original.followLinks
      (Walk.start original.directory sequence.basepath) calls outcome) ∧
    ∀ iteration, reached = some iteration →
      ∃ stack, History.Follows original sequence values calls iteration stack := by
  induction h with
  | start =>
      have hstart := follows_start original sequence
      refine ⟨⟨_, hstart.trace⟩, ?_⟩
      rintro _ ⟨⟩
      exact ⟨_, hstart⟩
  | @next host selection _ _ _ _ iteration _ _ _ _ _ hhost hselection hnext ih =>
      obtain ⟨stack, hfollows⟩ := ih.2 _ rfl
      obtain ⟨-, added, hadds, rfl⟩ :=
        (recounts_next hhost iteration selection).of_recorded hnext
      obtain ⟨rest, hrest⟩ := hfollows.next hselection hadds
      refine ⟨⟨_, hrest.trace⟩, ?_⟩
      rintro _ ⟨⟩
      exact ⟨rest, hrest⟩
  | @fail host selection _ _ _ _ iteration _ _ _ _ hhost hselection hfail ih =>
      obtain ⟨stack, hfollows⟩ := ih.2 _ rfl
      obtain ⟨-, added, hadds, rfl⟩ :=
        (recounts_next hhost iteration selection).of_recorded hfail
      exact ⟨hfollows.fail hselection hadds, by simp⟩
  | @during host selection _ _ _ _ iteration stack _ _ _ hhost hselection hentered hpasses ih =>
      obtain ⟨stack', rfl, hstops, htrace, -⟩ := ih.2 _ rfl
      obtain rfl : stack = stack' := by
        obtain hstops | ⟨hover, -⟩ := hstops
        · exact Position.walking.inj (hentered.symm.trans (hstops _ _ hselection))
        · simp [entered, hover] at hentered
      obtain ⟨outcome, hrest⟩ := Walk.trace_of_passes _ _ hhost hpasses
      have hrest : Walk.Trace _ selection.followLinks _ _ _ := hrest
      rw [followLinks_of_isReconfigured hselection] at hrest
      exact ⟨⟨outcome, htrace.trans rfl hrest⟩, by simp⟩

end

end Iteration

/-- The calls of an iteration are in order, whatever changes between them: no directory is listed
before its turn, and each entry is accepted or not at its own time.  A recorded iteration takes the
course of the iteration itself, so that the record tells of all iterations. -/
theorem iterations_call_in_order (original : Selection σ) (sequence : Sequence σ α) :
    (∀ (host : Host σ) (iteration : Iteration σ α) (selection : Selection σ) state result last,
      host.ListsEntries →
        (iteration.next host (.selected selection) state = some (result, last) ↔
          ∃ calls, iteration.recordedNext host selection ([], state) =
            some (result, calls, last))) ∧
    (∀ values calls reached, Iteration.History original sequence values calls reached →
      Walk.CallOrder original.directory sequence.basepath sequence.bottomUp original.followLinks
        calls) ∧
    (∀ values calls iteration, Iteration.History original sequence values calls (some iteration) →
      iteration.position = .over →
        ∀ entry, Walk.Visited original.directory sequence.basepath calls entry →
          Walk.Decided calls entry) ∧
    ∀ values value calls iteration,
      Iteration.History original sequence (values ++ [value]) calls (some iteration) →
        iteration.position ≠ .over →
          ∃ earlier entry, calls = earlier ++ [.accept entry (.ok true)] ∧
            (∃ before after, sequence.value entry before = some (.ok (some value), after)) ∧
            (sequence.bottomUp = false → ∀ directory names, .list directory names ∈ calls →
              directory.names < entry.path.names) := by
  refine ⟨fun host iteration selection state result last hhost => ?_, ?_, ?_, ?_⟩
  · have hrecounts := Iteration.recounts_next hhost iteration selection
    constructor
    · intro hnext
      obtain ⟨added, -, hrecorded⟩ := hrecounts.ends hnext []
      exact ⟨_, hrecorded⟩
    · rintro ⟨calls, hrecorded⟩
      exact (hrecounts.of_recorded hrecorded).1
  · intro values calls reached h
    obtain ⟨⟨outcome, htrace⟩, -⟩ := h.follows
    exact htrace.callOrder.1
  · intro values calls iteration h hover
    obtain ⟨stack, hfollows⟩ := h.follows.2 _ rfl
    refine hfollows.trace.callOrder.2 (congrArg _ ?_)
    obtain hstops | ⟨-, rfl⟩ := hfollows.stops
    · have hentered := hstops original original.basepath rfl
      simp [Iteration.entered, hover] at hentered
    · rfl
  · intro values value calls iteration h hunfinished
    obtain ⟨stack, hfollows⟩ := h.follows.2 _ rfl
    obtain ⟨earlier, entry, rfl, hvalue⟩ := hfollows.given values value rfl hunfinished
    refine ⟨earlier, entry, rfl, hvalue, fun htop directory names hlisted => ?_⟩
    have hbefore := hfollows.trace.callOrder.1.listedBefore htop
    have hearlier : Walk.Call.list directory names ∈ earlier := by simpa using hlisted
    exact (List.pairwise_append.1 hbefore).2.2 _ hearlier _ (List.mem_singleton_self _) directory
      entry rfl rfl

/-! ## A directory that is filled late -/

def filledLate : Host Bool where
  names path := fun filled =>
    some (.ok (if path.names = [] then ["d"] else if filled then ["x"] else []), filled)
  status _ path := pure ⟨if path.names = ["d"] then .directory else .file, 0, 0⟩
  linkTarget path := throw (.system .noEntry path.text)
  read _ := pure .empty
  workingDirectory := pure ⟨"/", []⟩
  note _ := pure ()

def lateSelection : Selection Bool := ⟨⟨"/", []⟩, .glob, true, false, true, "", .empty⟩

def lateRelatives : Sequence Bool String :=
  Collection.relatives (.selected lateSelection) .any false

theorem listsEntries_filledLate : filledLate.ListsEntries := by
  have hname (name : String) (h : name ∈ ["d", "x"]) : Path.IsEntryName name := by
    simp only [List.mem_cons, List.not_mem_nil, or_false] at h
    obtain rfl | rfl := h
    · exact ⟨⟨by decide, by decide⟩, by decide, by decide⟩
    · exact ⟨⟨by decide, by decide⟩, by decide, by decide⟩
  rintro path filled _ _ ⟨⟩
  split
  · exact ⟨by decide, by simpa using hname "d" (by decide)⟩
  · split
    · exact ⟨by decide, by simpa using hname "x" (by decide)⟩
    · exact ⟨.nil, by simp⟩

def earlyCalls : List Walk.Call :=
  [.list ⟨"/", []⟩ (.ok ["d"]), .accept ⟨⟨"/", ["d"]⟩, "d"⟩ (.ok true)]

def lateCalls : List Walk.Call :=
  [.examine true ⟨"/", ["d"]⟩ (.ok ⟨.directory, 0, 0⟩), .mayDescend ⟨⟨"/", ["d"]⟩, "d"⟩ (.ok true),
    .list ⟨"/", ["d"]⟩ (.ok ["x"]), .accept ⟨⟨"/", ["d", "x"]⟩, "d/x"⟩ (.ok true)]

theorem lateRelatives_history :
    Iteration.History lateSelection lateRelatives ["d"] earlyCalls
      (some ⟨lateRelatives, .walking [.descend ⟨⟨"/", ["d"]⟩, "d"⟩]⟩) ∧
    Iteration.History lateSelection lateRelatives ["d", "d/x"] (earlyCalls ++ lateCalls)
      (some ⟨lateRelatives, .walking [.descend ⟨⟨"/", ["d", "x"]⟩, "d/x"⟩]⟩) := by
  have henter (directory : Path) (name relative : String) (filled : Bool) (calls : List Walk.Call)
      (hnames : filledLate.names directory filled = some (.ok [name], filled)) :
      (lateSelection.walk filledLate false).recorded.advance filledLate.recorded
        (fun entry => (lateRelatives.pick filledLate entry).beside) [.enter directory relative]
          (calls, filled) =
        some (.ok (.inl [.visit (Walk.entryOf directory relative name)]),
          calls ++ [.list directory (.ok [name])], filled) := by
    have hrecorded : filledLate.recorded.names directory (calls, filled) =
        some (.ok [name], calls ++ [.list directory (.ok [name])], filled) := by
      simp only [Host.recorded, recording, hnames]
    have hperform : (lateSelection.walk filledLate false).recorded.perform filledLate.recorded
        (.enter directory relative) (calls, filled) = some (.ok (none, _), _) :=
      Walk.perform_enter_of_sorted relative hrecorded (List.pairwise_singleton _ _)
    exact bind_of_ok hperform
  have hearly : (Iteration.start lateRelatives).recordedNext filledLate lateSelection ([], false) =
      some (.ok (some "d", ⟨lateRelatives, .walking [.descend ⟨⟨"/", ["d"]⟩, "d"⟩]⟩),
        earlyCalls, false) :=
    bind_of_ok (loop_eq_some_iff.2 (.next (henter _ "d" _ _ _ rfl) (.next rfl (.value rfl))))
  have hbelow := henter ⟨"/", ["d"]⟩ "x" "d" true (lateCalls.take 2) rfl
  rw [Walk.entryOf, show Path.joinRelative "d" "x" = "d/x" by decide] at hbelow
  have hlate : (⟨lateRelatives, .walking [.descend ⟨⟨"/", ["d"]⟩, "d"⟩]⟩ :
      Iteration Bool String).recordedNext filledLate lateSelection ([], true) =
        some (.ok (some "d/x", ⟨lateRelatives, .walking [.descend ⟨⟨"/", ["d", "x"]⟩, "d/x"⟩]⟩),
          lateCalls, true) :=
    bind_of_ok (loop_eq_some_iff.2 (.next rfl (.next hbelow (.next rfl (.value rfl)))))
  have hsame : lateSelection.IsReconfigured lateSelection "" := rfl
  have hfirst := Iteration.History.start.next listsEntries_filledLate hsame hearly
  exact ⟨hfirst, hfirst.next listsEntries_filledLate hsame hlate⟩

theorem late_calls_in_order :
    Walk.CallOrder ⟨"/", []⟩ "" false true (earlyCalls ++ lateCalls) ∧
      ∀ directory names, .list directory names ∈ earlyCalls → directory.names < ["d"] := by
  obtain ⟨-, horder, -, hsuspended⟩ := iterations_call_in_order lateSelection lateRelatives
  refine ⟨horder _ _ _ lateRelatives_history.2, ?_⟩
  obtain ⟨earlier, entry, hcalls, -, hbefore⟩ :=
    hsuspended [] "d" _ _ lateRelatives_history.1 (by simp)
  obtain ⟨-, haccept⟩ := List.append_inj' (show earlyCalls.dropLast ++ [_] = _ from hcalls) rfl
  obtain ⟨rfl, -⟩ := Walk.Call.accept.inj (List.cons.inj haccept).1
  exact hbefore rfl

end FileSelection
