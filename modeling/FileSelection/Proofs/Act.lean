import FileSelection.Act

/-!
# Laws of actions

What a sequence of actions ends with, and that a loop ends exactly when its steps lead to an end.
-/

namespace FileSelection.Act

variable {σ α β ι : Type}

section

variable {action : Act σ α} {next : α → Act σ β} {state middle : σ}

theorem bind_apply (action : Act σ α) (next : α → Act σ β) (state : σ) :
    (action >>= next) state = (action state).bind fun (result, middle) =>
      match result with
      | .ok value => next value middle
      | .error failure => some (.error failure, middle) := by
  show Option.bind (action state) _ = _
  congr 1
  funext ⟨result, middle⟩
  cases result <;> rfl

theorem bind_of_ok {value : α} (h : action state = some (.ok value, middle)) :
    (action >>= next) state = next value middle := by
  rw [bind_apply, h]
  rfl

theorem bind_of_error {failure : Failure} (h : action state = some (.error failure, middle)) :
    (action >>= next) state = some (.error failure, middle) := by
  rw [bind_apply, h]
  rfl

theorem bind_congr_of_ok {next' : α → Act σ β}
    (h : ∀ state value last, action state = some (.ok value, last) → next value = next' value) :
    action >>= next = action >>= next' := by
  funext state
  rw [bind_apply, bind_apply]
  match haction : action state with
  | some (.ok value, last) => exact congrFun (h state value last haction) last
  | some (.error failure, last) => rfl
  | none => rfl

theorem map_of_ok {value : α} {change : α → β} (h : action state = some (.ok value, middle)) :
    (change <$> action) state = some (.ok (change value), middle) := by
  rw [map_eq_pure_bind, bind_of_ok h]
  rfl

theorem bind_eq_some_iff {outcome : Except Failure β × σ} :
    (action >>= next) state = some outcome ↔
      (∃ value middle, action state = some (.ok value, middle) ∧ next value middle = some outcome) ∨
        ∃ failure middle, action state = some (.error failure, middle) ∧
          outcome = (.error failure, middle) := by
  constructor
  · intro h
    cases haction : action state with
    | none => simp [bind_apply, haction] at h
    | some first =>
        obtain ⟨result, middle⟩ := first
        cases result with
        | ok value => exact .inl ⟨value, middle, rfl, by rwa [bind_of_ok haction] at h⟩
        | error failure =>
            rw [bind_of_error haction] at h
            exact .inr ⟨failure, middle, rfl, (Option.some.inj h).symm⟩
  · rintro (⟨value, middle, haction, hnext⟩ | ⟨failure, middle, haction, rfl⟩)
    · rw [bind_of_ok haction, hnext]
    · exact bind_of_error haction

theorem bind_eq_ok_iff {value : β} {last : σ} :
    (action >>= next) state = some (.ok value, last) ↔
      ∃ first middle, action state = some (.ok first, middle) ∧
        next first middle = some (.ok value, last) := by
  rw [bind_eq_some_iff]
  refine or_iff_left ?_
  rintro ⟨_, _, -, ⟨⟩⟩

theorem attempt_eq_ok_iff {result : Except Failure α} {last : σ} :
    action.attempt state = some (.ok result, last) ↔ action state = some (result, last) := by
  unfold attempt
  cases action state with
  | none => simp
  | some outcome => simp [Prod.ext_iff]

theorem beside_eq_some_iff {γ : Type} {gathered gathered' : γ} {result : Except Failure α}
    {last : σ} :
    action.beside (gathered, state) = some (result, gathered', last) ↔
      action state = some (result, last) ∧ gathered' = gathered := by
  cases haction : action state with
  | none => simp [beside, haction]
  | some outcome =>
      simp only [beside, haction, Option.some.injEq, Prod.ext_iff]
      constructor
      · rintro ⟨hresult, hgathered, hlast⟩
        exact ⟨⟨hresult, hlast⟩, hgathered.symm⟩
      · rintro ⟨⟨hresult, hlast⟩, hgathered⟩
        exact ⟨hresult, hgathered.symm, hlast⟩

theorem beside_bind_eq_some_iff {γ : Type} {gathered : γ} {next : α → Act (γ × σ) β}
    {outcome : Except Failure β × γ × σ} :
    (action.beside >>= next) (gathered, state) = some outcome ↔
      (∃ value middle, action state = some (.ok value, middle) ∧
        next value (gathered, middle) = some outcome) ∨
      ∃ failure middle, action state = some (.error failure, middle) ∧
        outcome = (.error failure, gathered, middle) := by
  rw [bind_eq_some_iff]
  simp only [Prod.exists, beside_eq_some_iff]
  constructor
  · rintro (⟨value, _, middle, ⟨hdone, rfl⟩, hnext⟩ | ⟨failure, _, middle, ⟨hdone, rfl⟩, heq⟩)
    · exact .inl ⟨value, middle, hdone, hnext⟩
    · exact .inr ⟨failure, middle, hdone, heq⟩
  · rintro (⟨value, middle, hdone, hnext⟩ | ⟨failure, middle, hdone, heq⟩)
    · exact .inl ⟨value, gathered, middle, ⟨hdone, rfl⟩, hnext⟩
    · exact .inr ⟨failure, gathered, middle, ⟨hdone, rfl⟩, heq⟩

theorem beside_attempt {γ : Type} (action : Act σ α) :
    (action.attempt.beside : Act (γ × σ) (Except Failure α)) = action.beside.attempt := by
  funext ⟨gathered, state⟩
  simp only [beside, attempt]
  cases action state with
  | none => rfl
  | some outcome => rfl

theorem beside_pure {γ : Type} (value : α) :
    ((pure value : Act σ α).beside : Act (γ × σ) α) = pure value := rfl

theorem beside_bind {γ : Type} (action : Act σ α) (next : α → Act σ β) :
    ((action >>= next).beside : Act (γ × σ) β) =
      action.beside >>= fun value => (next value).beside := by
  funext ⟨gathered, state⟩
  rw [bind_apply, beside, bind_apply, beside]
  cases action state with
  | none => rfl
  | some outcome =>
      obtain ⟨result, middle⟩ := outcome
      cases result with
      | ok value => rfl
      | error failure => rfl

theorem gatheringAll_eq_ok {γ : Type} {start gathered : γ} {action : Act (γ × σ) Unit}
    {failure : Option Failure} {last : σ}
    (h : gatheringAll start action state = some (.ok (gathered, failure), last)) :
    ∃ result, action (start, state) = some (result, gathered, last) := by
  unfold gatheringAll at h
  split at h
  · rename_i haction
    cases h
    exact ⟨_, haction⟩
  · rename_i haction
    cases h
    exact ⟨_, haction⟩
  · cases h

theorem gatheringAll_of_ok {γ : Type} {start gathered : γ} {action : Act (γ × σ) Unit} {last : σ}
    (h : action (start, state) = some (.ok (), gathered, last)) :
    gatheringAll start action state = some (.ok (gathered, none), last) := by
  rw [gatheringAll, h]

theorem ofExcept_apply (result : Except Failure α) (state : σ) :
    ofExcept result state = some (result, state) := by
  cases result with
  | ok value | error failure => rfl

theorem ofExcept_bind (result : Except Failure α) (next : α → Except Failure β) :
    (ofExcept (result.bind next) : Act σ β) =
      ofExcept result >>= fun value => ofExcept (next value) := by
  cases result with
  | ok value | error failure => rfl

end

/-! ## Loops -/

/-- The steps of a loop lead from a place to an outcome. -/
inductive LoopsTo (step : Step σ ι α) : ι → σ → Except Failure α × σ → Prop
  | value {place : ι} {state last : σ} {value : α} :
      step place state = some (.ok (.inr value), last) → LoopsTo step place state (.ok value, last)
  | failure {place : ι} {state last : σ} {failure : Failure} :
      step place state = some (.error failure, last) →
        LoopsTo step place state (.error failure, last)
  | next {place following : ι} {state middle : σ} {outcome : Except Failure α × σ} :
      step place state = some (.ok (.inl following), middle) →
        LoopsTo step following middle outcome → LoopsTo step place state outcome

theorem loop_eq_some_iff {step : Step σ ι α} {place : ι} {state : σ}
    {outcome : Except Failure α × σ} :
    step.loop place state = some outcome ↔ LoopsTo step place state outcome := by
  constructor
  · refine Step.loop.partial_correctness step
      (fun place state outcome => LoopsTo step place state outcome) ?_ place state outcome
    intro approximation ih place state outcome h
    split at h
    · exact .next ‹_› (ih _ _ _ h)
    · cases h
      exact .value ‹_›
    · cases h
      exact .failure ‹_›
    · cases h
  · intro h
    induction h with
    | value hstep | failure hstep => rw [Step.loop, hstep]
    | next hstep _ ih => rw [Step.loop, hstep, ← ih]

section

variable {step : Step σ ι α} {place : ι} {state last : σ}

theorem loop_of_next {following : ι} (h : step place state = some (.ok (.inl following), last)) :
    step.loop place state = step.loop following last := by
  rw [Step.loop, h]

theorem loop_of_value {value : α} (h : step place state = some (.ok (.inr value), last)) :
    step.loop place state = some (.ok value, last) := by
  rw [Step.loop, h]

theorem loop_of_failure {failure : Failure} (h : step place state = some (.error failure, last)) :
    step.loop place state = some (.error failure, last) := by
  rw [Step.loop, h]

end

/-- A state that a loop passes through: after some steps, the last of which can end the loop. -/
inductive Passes (step : Step σ ι α) : ι → σ → σ → Prop
  | here {place : ι} {state : σ} : Passes step place state state
  | last {place : ι} {state last : σ} {result : Except Failure (ι ⊕ α)} :
      step place state = some (result, last) → Passes step place state last
  | next {place following : ι} {state middle later : σ} :
      step place state = some (.ok (.inl following), middle) →
        Passes step following middle later → Passes step place state later

/-! ## Constant answers -/

/-- From every steady state the action gives this result, and the state stays steady. -/
def Answers (steady : σ → Prop) (action : Act σ α) (result : Except Failure α) : Prop :=
  ∀ state, steady state → ∃ last, steady last ∧ action state = some (result, last)

section

variable {steady : σ → Prop} {action : Act σ α} {next : α → Act σ β}

theorem Answers.pure (value : α) : Answers steady (pure value) (.ok value) := by
  intro state hstate
  exact ⟨state, hstate, rfl⟩

theorem Answers.ofExcept (result : Except Failure α) :
    Answers steady (Act.ofExcept result) result := by
  intro state hstate
  exact ⟨state, hstate, ofExcept_apply result state⟩

theorem Answers.bind {value : α} {result : Except Failure β}
    (h : Answers steady action (.ok value)) (hnext : Answers steady (next value) result) :
    Answers steady (action >>= next) result := by
  intro state hstate
  obtain ⟨middle, hmiddle, haction⟩ := h state hstate
  obtain ⟨last, hlast, hrest⟩ := hnext middle hmiddle
  exact ⟨last, hlast, by rw [bind_of_ok haction, hrest]⟩

theorem Answers.bind_error {failure : Failure} (h : Answers steady action (.error failure)) :
    Answers steady (action >>= next) (.error failure) := by
  intro state hstate
  obtain ⟨last, hlast, haction⟩ := h state hstate
  exact ⟨last, hlast, bind_of_error haction⟩

theorem Answers.unique {result other : Except Failure α} {state : σ} (hstate : steady state)
    (h : Answers steady action result) (hother : Answers steady action other) : result = other := by
  obtain ⟨last, -, haction⟩ := h state hstate
  obtain ⟨last', -, haction'⟩ := hother state hstate
  rw [haction] at haction'
  exact congrArg Prod.fst (Option.some.inj haction')

theorem Answers.attempt {result : Except Failure α} (h : Answers steady action result) :
    Answers steady action.attempt (.ok result) := by
  intro state hstate
  obtain ⟨last, hlast, haction⟩ := h state hstate
  exact ⟨last, hlast, attempt_eq_ok_iff.2 haction⟩

end

/-! ## Answers that do not change -/

/-- Whenever the action gives a result in a steady state, it gives that result in all of them. -/
def Repeats (steady : σ → Prop) (action : Act σ α) : Prop :=
  ∀ state result last, steady state → action state = some (result, last) →
    Answers steady action result

section

variable {steady : σ → Prop} {action : Act σ α} {next : α → Act σ β}

theorem Repeats.answers {state last : σ} {result : Except Failure α} (h : Repeats steady action)
    (hstate : steady state) (haction : action state = some (result, last)) :
    Answers steady action result :=
  h state result last hstate haction

theorem Answers.repeats {result : Except Failure α} (h : Answers steady action result) :
    Repeats steady action := by
  intro state result' last hstate haction
  obtain ⟨middle, -, haction'⟩ := h state hstate
  rw [haction'] at haction
  cases haction
  exact h

theorem Repeats.stays {state last : σ} {result : Except Failure α} (h : Repeats steady action)
    (hstate : steady state) (haction : action state = some (result, last)) : steady last := by
  obtain ⟨last', hlast, haction'⟩ := h.answers hstate haction state hstate
  rw [haction'] at haction
  cases haction
  exact hlast

theorem Repeats.pure (value : α) : Repeats steady (Pure.pure value : Act σ α) :=
  (Answers.pure value).repeats

theorem Repeats.throw (failure : Failure) : Repeats steady (throw failure : Act σ α) :=
  (Answers.ofExcept (.error failure)).repeats

theorem Repeats.bind_of_ok (h : Repeats steady action)
    (hnext : ∀ state value last, action state = some (.ok value, last) →
      Repeats steady (next value)) :
    Repeats steady (action >>= next) := by
  intro state result last hstate hbind
  obtain ⟨value, middle, haction, hrest⟩ | ⟨failure, middle, haction, heq⟩ :=
    bind_eq_some_iff.1 hbind
  · have hrepeats := hnext state value middle haction
    exact (h.answers hstate haction).bind (hrepeats.answers (h.stays hstate haction) hrest)
  · cases heq
    exact (h.answers hstate haction).bind_error

theorem Repeats.bind (h : Repeats steady action) (hnext : ∀ value, Repeats steady (next value)) :
    Repeats steady (action >>= next) :=
  h.bind_of_ok fun _ value _ _ => hnext value

theorem Repeats.answers_of_bind {value : α} {result : Except Failure β} {state : σ}
    (hnext : Repeats steady (next value)) (hstate : steady state)
    (h : Answers steady action (.ok value)) (hbind : Answers steady (action >>= next) result) :
    Answers steady (next value) result := by
  obtain ⟨middle, hmiddle, haction⟩ := h state hstate
  obtain ⟨last, -, hboth⟩ := hbind state hstate
  exact hnext.answers hmiddle ((Act.bind_of_ok haction).symm.trans hboth)

theorem Repeats.attempt (h : Repeats steady action) : Repeats steady action.attempt := by
  intro state result last hstate hattempt
  cases result with
  | ok result => exact (h.answers hstate (attempt_eq_ok_iff.1 hattempt)).attempt
  | error failure =>
      unfold Act.attempt at hattempt
      split at hattempt <;> cases hattempt

theorem Answers.loop_of_next {step : Step σ ι α} {place following : ι}
    {result : Except Failure α} (h : Answers steady (step place) (.ok (.inl following)))
    (hrest : Answers steady (step.loop following) result) :
    Answers steady (step.loop place) result := by
  intro state hstate
  obtain ⟨middle, hmiddle, hstep⟩ := h state hstate
  obtain ⟨last, hlast, hloop⟩ := hrest middle hmiddle
  exact ⟨last, hlast, (Act.loop_of_next hstep).trans hloop⟩

theorem Answers.loop_of_value {step : Step σ ι α} {place : ι} {value : α}
    (h : Answers steady (step place) (.ok (.inr value))) :
    Answers steady (step.loop place) (.ok value) := by
  intro state hstate
  obtain ⟨last, hlast, hstep⟩ := h state hstate
  exact ⟨last, hlast, Act.loop_of_value hstep⟩

theorem Answers.loop_of_failure {step : Step σ ι α} {place : ι} {failure : Failure}
    (h : Answers steady (step place) (.error failure)) :
    Answers steady (step.loop place) (.error failure) := by
  intro state hstate
  obtain ⟨last, hlast, hstep⟩ := h state hstate
  exact ⟨last, hlast, Act.loop_of_failure hstep⟩

theorem Repeats.loop {step : Step σ ι α} (h : ∀ place, Repeats steady (step place)) (place : ι) :
    Repeats steady (step.loop place) := by
  intro state result last hstate hloop
  rw [loop_eq_some_iff] at hloop
  generalize houtcome : (result, last) = outcome at hloop
  induction hloop with
  | value hstep =>
      cases houtcome
      exact ((h _).answers hstate hstep).loop_of_value
  | failure hstep =>
      cases houtcome
      exact ((h _).answers hstate hstep).loop_of_failure
  | next hstep _ ih =>
      have hmiddle := (h _).stays hstate hstep
      exact ((h _).answers hstate hstep).loop_of_next (ih hmiddle houtcome)

end

/-! ## Actions that come to an end -/

/-- From every steady state the action ends, with whatever result, and the state stays steady. -/
def Halts (steady : σ → Prop) (action : Act σ α) : Prop :=
  ∀ state, steady state → ∃ result last, steady last ∧ action state = some (result, last)

section

variable {steady : σ → Prop} {action : Act σ α} {next : α → Act σ β}

theorem Answers.halts {result : Except Failure α} (h : Answers steady action result) :
    Halts steady action := fun state hstate => ⟨result, h state hstate⟩

theorem Halts.pure (value : α) : Halts steady (Pure.pure value : Act σ α) :=
  (Answers.pure value).halts

theorem Halts.throw (failure : Failure) : Halts steady (throw failure : Act σ α) :=
  (Answers.ofExcept (.error failure)).halts

theorem Halts.stays {state last : σ} {result : Except Failure α} (h : Halts steady action)
    (hstate : steady state) (haction : action state = some (result, last)) : steady last := by
  obtain ⟨result', last', hlast, haction'⟩ := h state hstate
  rw [haction'] at haction
  cases haction
  exact hlast

theorem Halts.bind (h : Halts steady action) (hnext : ∀ value, Halts steady (next value)) :
    Halts steady (action >>= next) := by
  intro state hstate
  obtain ⟨result, middle, hmiddle, haction⟩ := h state hstate
  cases result with
  | ok value =>
      rw [bind_of_ok haction]
      exact hnext value middle hmiddle
  | error failure => exact ⟨.error failure, middle, hmiddle, bind_of_error haction⟩

theorem Halts.beside {γ : Type} (h : Halts steady action) :
    Halts (fun pair : γ × σ => steady pair.2) action.beside := by
  rintro ⟨gathered, state⟩ hstate
  obtain ⟨result, last, hlast, haction⟩ := h state hstate
  exact ⟨result, (gathered, last), hlast, beside_eq_some_iff.2 ⟨haction, rfl⟩⟩

theorem Halts.loop {step : Step σ ι α} {remains : Nat → ι → Prop}
    (hstep : ∀ steps place, remains steps place → Halts steady (step place))
    (hnext : ∀ steps place state following last, remains steps place → steady state →
      step place state = some (.ok (.inl following), last) →
        ∃ fewer, fewer < steps ∧ remains fewer following)
    {steps : Nat} {place : ι} (h : remains steps place) : Halts steady (step.loop place) := by
  induction steps using Nat.strongRecOn generalizing place with
  | _ steps ih =>
      intro state hstate
      obtain ⟨result, middle, hmiddle, hdone⟩ := hstep steps place h state hstate
      match result, hdone with
      | .ok (.inr value), hdone => exact ⟨_, middle, hmiddle, loop_of_value hdone⟩
      | .error failure, hdone => exact ⟨_, middle, hmiddle, loop_of_failure hdone⟩
      | .ok (.inl following), hdone =>
          obtain ⟨fewer, hlt, hfewer⟩ := hnext steps place state following middle h hstate hdone
          obtain ⟨result, last, hlast, hrest⟩ := ih fewer hlt hfewer middle hmiddle
          exact ⟨result, last, hlast, (Act.loop_of_next hdone).trans hrest⟩

end

end FileSelection.Act
