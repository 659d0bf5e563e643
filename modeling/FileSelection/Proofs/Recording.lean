import FileSelection.Proofs.Act

/-!
# Recorded actions

A recorded action does what the action does and adds to a record meanwhile.  What it adds is told by
a condition on the result and the additions, which is worked out along sequences and loops.  For a
single run the additions are given outright.
-/

namespace FileSelection.Act

variable {σ ρ α β ι : Type}

def recording (note : Except Failure α → ρ) (action : Act σ α) : Act (List ρ × σ) α :=
  fun (record, state) =>
    match action state with
    | some (result, state) => some (result, record ++ [note result], state)
    | none => none

abbrev Account (ρ α : Type) := Except Failure α → List ρ → Prop

/-- The recorded action ends as the action does, and adds to the record what the account tells. -/
structure Recounts (account : Account ρ α) (action : Act σ α) (recorded : Act (List ρ × σ) α) :
    Prop where
  ends : ∀ {state last : σ} {result : Except Failure α}, action state = some (result, last) →
    ∀ record, ∃ added, account result added ∧
      recorded (record, state) = some (result, record ++ added, last)
  never : ∀ {state : σ}, action state = none → ∀ record, recorded (record, state) = none

section

variable {account account' : Account ρ α} {action : Act σ α} {recorded : Act (List ρ × σ) α}

theorem Recounts.of_recorded {record record' : List ρ} {state last : σ}
    {result : Except Failure α} (h : Recounts account action recorded)
    (hrecorded : recorded (record, state) = some (result, record', last)) :
    action state = some (result, last) ∧
      ∃ added, account result added ∧ record' = record ++ added := by
  cases haction : action state with
  | none =>
      rw [h.never haction record] at hrecorded
      cases hrecorded
  | some outcome =>
      obtain ⟨added, hadded, hends⟩ := h.ends haction record
      rw [hends] at hrecorded
      cases hrecorded
      exact ⟨rfl, added, hadded, rfl⟩

theorem Recounts.mono (h : Recounts account action recorded)
    (haccount : ∀ result added, account result added → account' result added) :
    Recounts account' action recorded where
  ends haction record := by
    obtain ⟨added, hadded, hends⟩ := h.ends haction record
    exact ⟨added, haccount _ _ hadded, hends⟩
  never := h.never

theorem Recounts.pure {value : α} (h : account (.ok value) []) :
    Recounts account (pure value : Act σ α) (pure value) where
  ends {state last result} haction record := by
    cases haction
    exact ⟨[], h, by rw [List.append_nil]; rfl⟩
  never haction := by cases haction

theorem Recounts.throw {failure : Failure} (h : account (.error failure) []) :
    Recounts account (throw failure : Act σ α) (throw failure) where
  ends haction record := by
    cases haction
    exact ⟨[], h, by rw [List.append_nil]; rfl⟩
  never haction := by cases haction

theorem Recounts.beside (action : Act σ α) :
    Recounts (fun result added => added = [] ∧ ∃ state last, action state = some (result, last))
      action (action.beside : Act (List ρ × σ) α) where
  ends haction record := ⟨[], ⟨rfl, _, _, haction⟩, by simp [Act.beside, haction]⟩
  never haction record := by simp [Act.beside, haction]

theorem Recounts.recording (note : Except Failure α → ρ) (action : Act σ α) :
    Recounts (fun result added => added = [note result] ∧
        ∃ state last, action state = some (result, last)) action (action.recording note) where
  ends haction record :=
    ⟨_, ⟨rfl, _, _, haction⟩, by simp [Act.recording, haction]⟩
  never haction record := by simp [Act.recording, haction]

theorem Recounts.attempt (h : Recounts account action recorded) :
    Recounts (fun attempted added => ∃ result, attempted = .ok result ∧ account result added)
      action.attempt recorded.attempt where
  ends {state last attempted} hattempt record := by
    cases attempted with
    | ok result =>
        obtain ⟨added, hadded, hends⟩ := h.ends (attempt_eq_ok_iff.1 hattempt) record
        exact ⟨added, ⟨result, rfl, hadded⟩, attempt_eq_ok_iff.2 hends⟩
    | error failure =>
        unfold Act.attempt at hattempt
        split at hattempt <;> cases hattempt
  never {state} hattempt record := by
    cases haction : action state with
    | none => simp [Act.attempt, h.never haction record]
    | some outcome => simp [Act.attempt, haction] at hattempt

theorem Recounts.bind {first : Account ρ α} {account : Account ρ β} {next : α → Act σ β}
    {recordedNext : α → Act (List ρ × σ) β} (h : Recounts first action recorded)
    (hnext : ∀ value, Recounts
      (fun result more => ∀ added, first (.ok value) added → account result (added ++ more))
      (next value) (recordedNext value))
    (herror : ∀ failure added, first (.error failure) added → account (.error failure) added) :
    Recounts account (action >>= next) (recorded >>= recordedNext) where
  ends {state last result} hbind record := by
    obtain ⟨value, middle, haction, hrest⟩ | ⟨failure, middle, haction, heq⟩ :=
      bind_eq_some_iff.1 hbind
    · obtain ⟨added, hadded, hends⟩ := h.ends haction record
      obtain ⟨more, hmore, hlast⟩ := (hnext value).ends hrest (record ++ added)
      refine ⟨added ++ more, hmore added hadded, ?_⟩
      rw [bind_of_ok hends, hlast, List.append_assoc]
    · obtain ⟨added, hadded, hends⟩ := h.ends haction record
      cases heq
      exact ⟨added, herror failure added hadded, bind_of_error hends⟩
  never {state} hbind record := by
    rw [bind_apply] at hbind ⊢
    cases haction : action state with
    | none => rw [h.never haction record]; rfl
    | some outcome =>
        obtain ⟨result, middle⟩ := outcome
        obtain ⟨added, -, hends⟩ := h.ends haction record
        rw [haction] at hbind
        rw [hends]
        cases result with
        | ok value => exact (hnext value).never hbind _
        | error failure => cases hbind

end

section

variable {step : Step σ ι α} {recorded : Step (List ρ × σ) ι α} {account : ι → Account ρ α}

/-- What one step of a loop has to add so that the loop adds what is told. -/
def StepAccount (account : ι → Account ρ α) (place : ι) : Account ρ (ι ⊕ α)
  | .ok (.inl following), added =>
      ∀ result more, account following result more → account place result (added ++ more)
  | .ok (.inr value), added => account place (.ok value) added
  | .error failure, added => account place (.error failure) added

variable (hstep : ∀ place, Recounts (StepAccount account place) (step place) (recorded place))

include hstep

theorem LoopsTo.exists_recorded {place : ι} {state : σ} {outcome : Except Failure α × σ}
    (h : LoopsTo step place state outcome) (record : List ρ) :
    ∃ added, account place outcome.1 added ∧
      LoopsTo recorded place (record, state) (outcome.1, record ++ added, outcome.2) := by
  induction h generalizing record with
  | value hvalue =>
      obtain ⟨added, hadded, hends⟩ := (hstep _).ends hvalue record
      exact ⟨added, hadded, .value hends⟩
  | failure hfailure =>
      obtain ⟨added, hadded, hends⟩ := (hstep _).ends hfailure record
      exact ⟨added, hadded, .failure hends⟩
  | next hnext _ ih =>
      obtain ⟨added, hadded, hends⟩ := (hstep _).ends hnext record
      obtain ⟨more, hmore, hrest⟩ := ih (record ++ added)
      refine ⟨added ++ more, hadded _ _ hmore, .next hends ?_⟩
      rwa [← List.append_assoc]

theorem LoopsTo.unrecorded {place : ι} {record : List ρ} {state : σ}
    {outcome : Except Failure α × List ρ × σ}
    (h : LoopsTo recorded place (record, state) outcome) :
    LoopsTo step place state (outcome.1, outcome.2.2) := by
  generalize hpair : (record, state) = pair at h
  induction h generalizing record state with
  | @value place pair last value hvalue =>
      subst hpair
      exact .value ((hstep place).of_recorded hvalue).1
  | @failure place pair last failure hfailure =>
      subst hpair
      exact .failure ((hstep place).of_recorded hfailure).1
  | @next place following pair middle outcome hnext _ ih =>
      subst hpair
      exact .next ((hstep place).of_recorded hnext).1 (ih rfl)

theorem Recounts.loop (place : ι) :
    Recounts (account place) (step.loop place) (recorded.loop place) where
  ends hloop record := by
    obtain ⟨added, hadded, hends⟩ := (loop_eq_some_iff.1 hloop).exists_recorded hstep record
    exact ⟨added, hadded, loop_eq_some_iff.2 hends⟩
  never {state} hloop record := by
    cases hrecorded : recorded.loop place (record, state) with
    | none => rfl
    | some outcome =>
        have hends := (loop_eq_some_iff.1 hrecorded).unrecorded hstep
        rw [loop_eq_some_iff.2 hends] at hloop
        cases hloop

theorem Passes.of_recorded {place : ι} {record record' : List ρ} {state last : σ}
    (failure : Failure) (hnone : ∀ place, account place (.error failure) [])
    (hbroken : ∀ place result added, account place result added →
      account place (.error failure) added)
    (h : Passes recorded place (record, state) (record', last)) :
    ∃ added, account place (.error failure) added ∧ record' = record ++ added := by
  generalize hpair : (record, state) = pair at h
  generalize hpair' : (record', last) = pair' at h
  induction h generalizing record state with
  | @here place pair =>
      cases hpair.trans hpair'.symm
      exact ⟨[], hnone place, by simp⟩
  | @last place pair pair' result hlast =>
      subst hpair hpair'
      obtain ⟨-, added, hadded, rfl⟩ := (hstep place).of_recorded hlast
      refine ⟨added, ?_, rfl⟩
      match result, hadded with
      | .ok (.inl following), hadded => simpa using hadded (.error failure) [] (hnone following)
      | .ok (.inr value), hadded => exact hbroken place _ added hadded
      | .error cause, hadded => exact hbroken place _ added hadded
  | @next place following pair middle later hnext _ ih =>
      subst hpair
      obtain ⟨-, added, hadded, hmiddle⟩ := (hstep place).of_recorded hnext
      obtain ⟨more, hmore, rfl⟩ := ih (Prod.ext hmiddle.symm rfl) hpair'
      exact ⟨added ++ more, hadded _ more hmore, List.append_assoc _ _ _⟩

end

/-! ## Single runs -/

structure Records {τ : Type} (embed : List ρ → σ → τ) (action : Act σ α) (recorded : Act τ α)
    (state : σ) (result : Except Failure α) (added : List ρ) (last : σ) : Prop where
  run : action state = some (result, last)
  recorded : ∀ record,
    recorded (embed record state) = some (result, embed (record ++ added) last)

section

variable {τ : Type} {embed : List ρ → σ → τ} {action : Act σ α} {recorded : Act τ α}
  {state middle last : σ} {added more : List ρ}

theorem Records.pure (embed : List ρ → σ → τ) (value : α) (state : σ) :
    Records embed (Pure.pure value) (Pure.pure value) state (.ok value) [] state where
  run := rfl
  recorded record := by
    rw [List.append_nil]
    rfl

theorem Records.bind {value : α} {next : α → Act σ β} {next' : α → Act τ β}
    {result : Except Failure β}
    (h : Records embed action recorded state (.ok value) added middle)
    (hnext : Records embed (next value) (next' value) middle result more last) :
    Records embed (action >>= next) (recorded >>= next') state result (added ++ more) last where
  run := (bind_of_ok h.run).trans hnext.run
  recorded record := by
    rw [bind_of_ok (h.recorded record), hnext.recorded, List.append_assoc]

theorem Records.bind_error {failure : Failure} {next : α → Act σ β} {next' : α → Act τ β}
    (h : Records embed action recorded state (.error failure) added last) :
    Records embed (action >>= next) (recorded >>= next') state (.error failure) added last where
  run := bind_of_error h.run
  recorded record := bind_of_error (h.recorded record)

theorem Records.map {result : Except Failure α}
    (h : Records embed action recorded state result added last) (change : α → β) :
    Records embed (change <$> action) (change <$> recorded) state (result.map change) added
      last := by
  rw [map_eq_pure_bind, map_eq_pure_bind, ← List.append_nil added]
  cases result with
  | ok value => exact h.bind (.pure _ _ _)
  | error failure =>
      rw [List.append_nil]
      exact h.bind_error

end

section

variable {γ : Type} {state last : σ} {added : List ρ}

theorem Records.of_run {action : Act σ α} {result : Except Failure α}
    (h : action state = some (result, last)) :
    Records (Prod.mk : List ρ → σ → _) action action.beside state result [] last where
  run := h
  recorded record := by
    rw [List.append_nil]
    exact beside_eq_some_iff.2 ⟨h, rfl⟩

/-- The record stands between what is gathered and the state. -/
def beneath (record : List ρ) (pair : γ × σ) : γ × List ρ × σ :=
  (pair.1, record, pair.2)

theorem Records.beside {action : Act σ α} {recorded : Act (List ρ × σ) α}
    {result : Except Failure α}
    (h : Records Prod.mk action recorded state result added last) (gathered : γ) :
    Records beneath action.beside recorded.beside (gathered, state) result added
      (gathered, last) where
  run := beside_eq_some_iff.2 ⟨h.run, rfl⟩
  recorded record := beside_eq_some_iff.2 ⟨h.recorded record, rfl⟩

theorem Records.gather (change : γ → γ) (gathered : γ) (state : σ) :
    Records (beneath : List ρ → γ × σ → _) (Act.gather change) (Act.gather change)
      (gathered, state) (.ok ()) [] (change gathered, state) where
  run := rfl
  recorded record := by
    rw [List.append_nil]
    rfl

theorem Records.gathering {action : Act (γ × σ) Unit} {recorded : Act (γ × List ρ × σ) Unit}
    {start gathered : γ} {result : Except Failure Unit}
    (h : Records beneath action recorded (start, state) result added (gathered, last)) :
    Records Prod.mk (Act.gathering start action) (Act.gathering start recorded) state
      (result.map fun () => gathered) added last where
  run := by
    unfold Act.gathering
    rw [h.run]
  recorded record := by
    have hrecorded : recorded (start, record, state) =
      some (result, gathered, record ++ added, last) := h.recorded record
    unfold Act.gathering
    rw [hrecorded]

end

end FileSelection.Act
