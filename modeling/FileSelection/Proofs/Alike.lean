import FileSelection.Proofs.Act
import Mathlib.Data.Sum.Basic

/-!
# Actions side by side

Two actions are alike if from related states they end with related values, or with the same failure,
or not at all, and leave related states behind.  Sequences and loops of alike actions are alike.
-/

namespace FileSelection.Act

variable {σ τ α β γ δ ι κ : Type}

/-- How two actions can end side by side. -/
inductive Outcomes (states : σ → τ → Prop) (related : α → β → Prop) :
    Option (Except Failure α × σ) → Option (Except Failure β × τ) → Prop
  | value {value : α} {value' : β} {last : σ} {last' : τ} :
      related value value' → states last last' →
        Outcomes states related (some (.ok value, last)) (some (.ok value', last'))
  | failure {failure : Failure} {last : σ} {last' : τ} : states last last' →
      Outcomes states related (some (.error failure, last)) (some (.error failure, last'))
  | never : Outcomes states related none none

def Alike (states : σ → τ → Prop) (related : α → β → Prop) (action : Act σ α) (other : Act τ β) :
    Prop :=
  ∀ state state', states state state' → Outcomes states related (action state) (other state')

section

variable {states : σ → τ → Prop} {related : α → β → Prop} {action : Act σ α} {other : Act τ β}

theorem Outcomes.symm {first : Option (Except Failure α × σ)} {second : Option (Except Failure β × τ)}
    (h : Outcomes states related first second) : Outcomes (flip states) (flip related) second first := by
  cases h with
  | value hvalue hstates => exact .value hvalue hstates
  | failure hstates => exact .failure hstates
  | never => exact .never

theorem Alike.symm (h : Alike states related action other) :
    Alike (flip states) (flip related) other action :=
  fun _ _ hstates => (h _ _ hstates).symm

theorem Alike.mono {weaker : α → β → Prop} (h : Alike states related action other)
    (hweaker : ∀ value value', related value value' → weaker value value') :
    Alike states weaker action other := by
  intro state state' hstates
  have houtcomes := h state state' hstates
  generalize action state = first, other state' = second at houtcomes ⊢
  cases houtcomes with
  | value hvalue hlast => exact .value (hweaker _ _ hvalue) hlast
  | failure hlast => exact .failure hlast
  | never => exact .never

theorem Alike.refl (action : Act σ α) : Alike Eq Eq action action := by
  rintro state _ rfl
  cases action state with
  | none => exact .never
  | some outcome =>
      obtain ⟨result, last⟩ := outcome
      cases result with
      | ok value => exact .value rfl rfl
      | error failure => exact .failure rfl

theorem Alike.eq {other : Act σ α} (h : Alike Eq Eq action other) : action = other := by
  funext state
  generalize hfirst : action state = first
  generalize hsecond : other state = second
  have houtcomes := h state state rfl
  rw [hfirst, hsecond] at houtcomes
  cases houtcomes with
  | value hvalue hlast => rw [hvalue, hlast]
  | failure hlast => rw [hlast]
  | never => rfl

theorem Alike.pure {value : α} {value' : β} (h : related value value') :
    Alike states related (pure value) (pure value') :=
  fun _ _ hstates => .value h hstates

theorem Alike.given (h : Alike states related action other) :
    Alike states (fun value value' => related value value' ∧
      ∃ state last, action state = some (.ok value, last)) action other := by
  intro state state' hstates
  have houtcomes := h state state' hstates
  generalize hfirst : action state = first at houtcomes ⊢
  generalize other state' = second at houtcomes ⊢
  cases houtcomes with
  | value hvalue hlast => exact .value ⟨hvalue, state, _, hfirst⟩ hlast
  | failure hlast => exact .failure hlast
  | never => exact .never

theorem Alike.bind {following : γ → δ → Prop} {next : α → Act σ γ} {next' : β → Act τ δ}
    (h : Alike states related action other)
    (hnext : ∀ value value', related value value' →
      Alike states following (next value) (next' value')) :
    Alike states following (action >>= next) (other >>= next') := by
  intro state state' hstates
  rw [bind_apply, bind_apply]
  have houtcomes := h state state' hstates
  generalize action state = first, other state' = second at houtcomes ⊢
  cases houtcomes with
  | value hvalue hlast => exact hnext _ _ hvalue _ _ hlast
  | failure hlast => exact .failure hlast
  | never => exact .never

theorem Alike.map {mapped : γ → δ → Prop} {change : α → γ} {change' : β → δ}
    (h : Alike states related action other)
    (hchange : ∀ value value', related value value' → mapped (change value) (change' value')) :
    Alike states mapped (change <$> action) (change' <$> other) := by
  rw [map_eq_pure_bind, map_eq_pure_bind]
  exact h.bind fun _ _ hvalue => .pure (hchange _ _ hvalue)

theorem Alike.map_right (action : Act σ α) (change : α → β) :
    Alike Eq (fun value value' => value' = change value) action (change <$> action) := by
  have h : Alike Eq (fun value value' => value' = change value) (id <$> action) (change <$> action) :=
    (Alike.refl action).map fun _ _ hvalue => congrArg change hvalue.symm
  simpa using h

theorem Alike.eq_map {change : α → β} {other : Act σ β}
    (h : Alike Eq (fun value value' => value' = change value) action other) :
    other = change <$> action := by
  have hmapped : Alike Eq Eq (change <$> action) (id <$> other) := h.map fun _ _ hvalue => hvalue.symm
  simpa using hmapped.eq.symm

theorem Alike.attempt {attempted : Except Failure α → Except Failure β → Prop}
    (h : Alike states related action other)
    (hvalue : ∀ value value', related value value' → attempted (.ok value) (.ok value'))
    (hfailure : ∀ failure, attempted (.error failure) (.error failure)) :
    Alike states attempted action.attempt other.attempt := by
  intro state state' hstates
  have houtcomes := h state state' hstates
  unfold Act.attempt
  generalize action state = first, other state' = second at houtcomes ⊢
  cases houtcomes with
  | value hrelated hlast => exact .value (hvalue _ _ hrelated) hlast
  | failure hlast => exact .value (hfailure _) hlast
  | never => exact .never

end

/-! ## Gathering -/

section

variable {states : σ → τ → Prop} {related : α → β → Prop} {gathers : γ → δ → Prop}

/-- What is gathered is related as well as the states. -/
def Both (gathers : γ → δ → Prop) (states : σ → τ → Prop) (first : γ × σ) (second : δ × τ) : Prop :=
  gathers first.1 second.1 ∧ states first.2 second.2

theorem both_eq : Both (Eq : γ → γ → Prop) (Eq : σ → σ → Prop) = Eq := by
  funext first second
  simp [Both, Prod.ext_iff]

theorem Alike.beside {action : Act σ α} {other : Act τ β} (h : Alike states related action other) :
    Alike (Both gathers states) related action.beside other.beside := by
  rintro ⟨gathered, state⟩ ⟨gathered', state'⟩ ⟨hgathers, hstates⟩
  have houtcomes := h state state' hstates
  simp only [Act.beside]
  generalize action state = first, other state' = second at houtcomes ⊢
  cases houtcomes with
  | value hvalue hlast => exact .value hvalue ⟨hgathers, hlast⟩
  | failure hlast => exact .failure ⟨hgathers, hlast⟩
  | never => exact .never

theorem Alike.gather {change : γ → γ} {change' : δ → δ}
    (h : ∀ gathered gathered', gathers gathered gathered' →
      gathers (change gathered) (change' gathered')) :
    Alike (Both gathers states) Eq (Act.gather change) (Act.gather change') := by
  rintro ⟨gathered, state⟩ ⟨gathered', state'⟩ ⟨hgathers, hstates⟩
  exact .value rfl ⟨h _ _ hgathers, hstates⟩

theorem Alike.gathering {start : γ} {start' : δ} {action : Act (γ × σ) Unit}
    {other : Act (δ × τ) Unit} (hstart : gathers start start')
    (h : Alike (Both gathers states) Eq action other) :
    Alike states gathers (Act.gathering start action) (Act.gathering start' other) := by
  intro state state' hstates
  have houtcomes := h (start, state) (start', state') ⟨hstart, hstates⟩
  unfold Act.gathering
  generalize action (start, state) = first, other (start', state') = second at houtcomes ⊢
  cases houtcomes with
  | value _ hlast => exact .value hlast.1 hlast.2
  | failure hlast => exact .failure hlast.2
  | never => exact .never

end

/-! ## Loops -/

section

variable {states : σ → τ → Prop} {related : α → β → Prop} {places : ι → κ → Prop}
  {step : Step σ ι α} {step' : Step τ κ β}

theorem LoopsTo.alike {place : ι} {place' : κ} {state : σ} {state' : τ}
    {outcome : Except Failure α × σ} (h : LoopsTo step place state outcome)
    (hsteps : ∀ place place', places place place' →
      Alike states (Sum.LiftRel places related) (step place) (step' place'))
    (hplaces : places place place') (hstates : states state state') :
    ∃ outcome', LoopsTo step' place' state' outcome' ∧
      Outcomes states related (some outcome) (some outcome') := by
  induction h generalizing place' state' with
  | @value place state last value hstep =>
      have houtcomes := hsteps place place' hplaces state state' hstates
      rw [hstep] at houtcomes
      generalize hother : step' place' state' = second at houtcomes
      cases houtcomes with
      | value hvalue hlast =>
          cases hvalue with
          | inr hvalue => exact ⟨_, .value hother, .value hvalue hlast⟩
  | @failure place state last failure hstep =>
      have houtcomes := hsteps place place' hplaces state state' hstates
      rw [hstep] at houtcomes
      generalize hother : step' place' state' = second at houtcomes
      cases houtcomes with
      | failure hlast => exact ⟨_, .failure hother, .failure hlast⟩
  | @next place following state middle outcome hstep _ ih =>
      have houtcomes := hsteps place place' hplaces state state' hstates
      rw [hstep] at houtcomes
      generalize hother : step' place' state' = second at houtcomes
      cases houtcomes with
      | value hvalue hmiddle =>
          cases hvalue with
          | inl hfollowing =>
              obtain ⟨outcome', hloops, hlast⟩ := ih hfollowing hmiddle
              exact ⟨outcome', .next hother hloops, hlast⟩

theorem Alike.loop {place : ι} {place' : κ}
    (hsteps : ∀ place place', places place place' →
      Alike states (Sum.LiftRel places related) (step place) (step' place'))
    (hplaces : places place place') :
    Alike states related (step.loop place) (step'.loop place') := by
  intro state state' hstates
  cases hfirst : step.loop place state with
  | some outcome =>
      obtain ⟨outcome', hloops, houtcomes⟩ :=
        (loop_eq_some_iff.1 hfirst).alike hsteps hplaces hstates
      rwa [loop_eq_some_iff.2 hloops]
  | none =>
      cases hsecond : step'.loop place' state' with
      | none => exact .never
      | some outcome =>
          have hback : ∀ place' place, flip places place' place →
              Alike (flip states) (Sum.LiftRel (flip places) (flip related)) (step' place')
                (step place) := by
            intro place' place hplaces
            apply (hsteps place place' hplaces).symm.mono
            rintro _ _ (hnext | hvalue)
            · exact .inl hnext
            · exact .inr hvalue
          obtain ⟨outcome', hloops, -⟩ := (loop_eq_some_iff.1 hsecond).alike hback hplaces hstates
          rw [loop_eq_some_iff.2 hloops] at hfirst
          cases hfirst

end

end FileSelection.Act
