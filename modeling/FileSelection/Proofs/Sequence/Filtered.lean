import FileSelection.Proofs.Sequence.Moved
import FileSelection.Proofs.Walk.Pruning

/-!
# Excluding and filtering

A selection that excludes by a rule reports what the selection without the exclude reports, less the
entries that meet the rule.  An entry is excluded only when it is about to be reported, so the walk
enters the same directories and asks the same questions in the same order, and both readings end
alike.
-/

namespace FileSelection

variable {σ α β : Type}

/-! ## Walks that report less -/

namespace Walk

def sifted (walk : Walk σ) (test : Entry → Act σ Bool) : Walk σ :=
  { walk with accept := fun entry => do if ← walk.accept entry then test entry else return false }

def sift (test : Entry → Act σ Bool) (found : Option Entry) : Act σ (Option Entry) :=
  match found with
  | some entry => do return if ← test entry then some entry else none
  | none => pure none

variable {host : Host σ} {walk : Walk σ} {test : Entry → Act σ Bool}

theorem perform_sifted (task : Task) :
    (walk.sifted test).perform host task =
      (do
        let (found, tasks) ← walk.perform host task
        return (← sift test found, tasks)) := by
  cases task with
  | enter directory relative => simp only [perform, sift, bind_assoc, pure_bind, sifted]
  | visit entry => rfl
  | descend entry =>
      simp only [perform, bind_assoc]
      apply bind_congr
      intro enters
      cases enters with
      | true => rfl
      | false => rfl
  | report entry =>
      simp only [perform, sifted, bind_assoc]
      apply bind_congr
      intro accepted
      cases accepted with
      | false => rfl
      | true =>
          simp only [if_true, sift, pure_bind, bind_assoc]
          apply bind_congr
          intro passes
          cases passes with
          | true => rfl
          | false => rfl

theorem follow_sifted (visit : Entry → Act (β × σ) Unit) (stack : List Task) :
    (walk.sifted test).follow host visit stack =
      walk.follow host (fun entry => do if ← (test entry).beside then visit entry) stack := by
  cases stack with
  | nil => rfl
  | cons task rest =>
      simp only [follow, perform_sifted, Act.beside_bind, bind_assoc]
      apply bind_congr
      rintro ⟨found, tasks⟩
      cases found with
      | none => rfl
      | some entry =>
          simp only [sift, Act.beside_bind, bind_assoc]
          apply bind_congr
          intro passes
          cases passes with
          | true => rfl
          | false => rfl

theorem advance_sifted (pick : Entry → Act σ (Option α)) (stack : List Task) :
    (walk.sifted test).advance host pick stack =
      walk.advance host (fun entry => do if ← test entry then pick entry else return none)
        stack := by
  cases stack with
  | nil => rfl
  | cons task rest =>
      simp only [advance, perform_sifted, bind_assoc]
      apply bind_congr
      rintro ⟨found, tasks⟩
      cases found with
      | none => rfl
      | some entry =>
          simp only [sift, bind_assoc]
          apply bind_congr
          intro passes
          cases passes with
          | true => rfl
          | false => rfl

end Walk

/-! ## Selections with one more exclude rule -/

def Rule.negated (host : Host σ) (rule : Rule σ) : Rule σ :=
  .custom fun entry => do return !(← rule.holds host entry)

theorem Rule.anyHolds_singleton (host : Host σ) (rule : Rule σ) (entry : Entry) :
    Rule.anyHolds host [rule] entry = rule.holds host entry := by
  have hresult : (fun holds : Bool => if holds then (pure true : Act σ Bool) else pure false) =
      pure := by
    funext holds
    cases holds with
    | true => rfl
    | false => rfl
  simp only [anyHolds]
  rw [hresult, bind_pure]

theorem RuleSet.accepts_excluding (host : Host σ) (rules : RuleSet σ) (rule : Rule σ)
    (entry : Entry) :
    (rules.extend [rule] .excludes).accepts host entry =
      (do if ← rules.accepts host entry then (rule.negated host).holds host entry
          else return false) := by
  rw [accepts_eq_bind, accepts_eq_bind, bind_assoc]
  apply bind_congr
  intro included
  cases included with
  | false => rfl
  | true =>
      simp only [extend, Rule.anyHolds_append, Rule.anyHolds_singleton, if_true, bind_assoc,
        pure_bind]
      apply bind_congr
      intro excluded
      cases excluded with
      | true => rfl
      | false => rfl

theorem Selection.excludes_rule [Ignore.Library] (selection : Selection σ) (rule : Rule σ) :
    selection.excludes [.ready rule] = .ok (selection.extend [rule] .excludes) := rfl

theorem Selection.walk_excluding (host : Host σ) (selection : Selection σ) (rule : Rule σ)
    (bottomUp : Bool) :
    (selection.extend [rule] .excludes).walk host bottomUp =
      (selection.walk host bottomUp).sifted ((rule.negated host).holds host) := by
  have haccepts : (selection.extend [rule] .excludes).accepts host =
      ((selection.walk host bottomUp).sifted ((rule.negated host).holds host)).accept := by
    funext entry
    exact selection.rules.accepts_excluding host rule entry
  rw [walk, haccepts]
  rfl

/-! ## Sequences that filter -/

def Iteration.of (iteration : Iteration σ α) (sequence : Sequence σ α) : Iteration σ α :=
  ⟨sequence, iteration.position⟩

def Reader.of (reader : Reader σ α) (sequence : Sequence σ α) : Reader σ α :=
  { reader with iteration := reader.iteration.of sequence }

/-- The second sequence gives from a selection what the first one gives from a selection that does
not exclude by the rule, because it drops what meets the rule. -/
structure Sequence.Drops (host : Host σ) (rule : Rule σ) (sequence filtered : Sequence σ α) :
    Prop where
  basepath : filtered.basepath = sequence.basepath
  bottomUp : filtered.bottomUp = sequence.bottomUp
  pick : ∀ entry, filtered.pick host entry =
    (do if ← (rule.negated host).holds host entry then sequence.pick host entry else return none)

section

variable {host : Host σ} {rule : Rule σ} {sequence filtered : Sequence σ α}
  {selection : Selection σ}

theorem Sequence.Drops.follow (h : sequence.Drops host rule filtered) (walk : Walk σ)
    (visit : α → Act (β × σ) Unit) (stack : List Walk.Task) :
    (walk.sifted ((rule.negated host).holds host)).follow host (fun entry => do
        match ← (sequence.pick host entry).beside with
        | some value => visit value
        | none => pure ()) stack =
      walk.follow host (fun entry => do
        match ← (filtered.pick host entry).beside with
        | some value => visit value
        | none => pure ()) stack := by
  rw [Walk.follow_sifted]
  congr 1
  funext entry
  rw [h.pick, Act.beside_bind, bind_assoc]
  apply bind_congr
  intro kept
  cases kept with
  | true => rfl
  | false => rfl

theorem Sequence.Drops.forEach (h : sequence.Drops host rule filtered)
    (visit : α → Act (β × σ) Unit) :
    sequence.forEach host (.selected (selection.extend [rule] .excludes)) visit =
      filtered.forEach host (.selected selection) visit := by
  simp only [Sequence.forEach, Collection.visitAll, h.basepath, h.bottomUp, Walk.forEach,
    Selection.walk_excluding]
  congr 1
  funext stack
  exact h.follow _ visit stack

theorem Sequence.Drops.toList (h : sequence.Drops host rule filtered) :
    sequence.toList host (.selected (selection.extend [rule] .excludes)) =
      filtered.toList host (.selected selection) := by
  rw [Sequence.toList, Sequence.toList, h.forEach]

theorem Sequence.Drops.next_walk (h : sequence.Drops host rule filtered) (walk : Walk σ)
    (stack : List Walk.Task) :
    (walk.sifted ((rule.negated host).holds host)).next host (sequence.pick host) stack =
      walk.next host (filtered.pick host) stack := by
  have hpick : filtered.pick host = fun entry => do
      if ← (rule.negated host).holds host entry then sequence.pick host entry else return none :=
    funext h.pick
  rw [Walk.next, Walk.next, hpick]
  congr 1
  funext stack
  exact Walk.advance_sifted _ stack

theorem Sequence.Drops.next (h : sequence.Drops host rule filtered)
    (position : Iteration.Position) :
    (⟨sequence, position⟩ : Iteration σ α).next host
        (.selected (selection.extend [rule] .excludes)) =
      (fun answer => (answer.1, answer.2.of sequence)) <$>
        (⟨filtered, position⟩ : Iteration σ α).next host (.selected selection) := by
  have hwalking (stack : List Walk.Task) :
      (⟨sequence, .walking stack⟩ : Iteration σ α).next host
          (.selected (selection.extend [rule] .excludes)) =
        (fun answer => (answer.1, answer.2.of sequence)) <$>
          (⟨filtered, .walking stack⟩ : Iteration σ α).next host (.selected selection) := by
    rw [Iteration.next_walking, Iteration.next_walking, map_bind, h.bottomUp,
      Selection.walk_excluding, h.next_walk]
    rfl
  cases position with
  | walking stack => exact hwalking stack
  | fresh =>
      have hfresh : (⟨sequence, .fresh⟩ : Iteration σ α).next host
            (.selected (selection.extend [rule] .excludes)) =
          (⟨sequence, .walking (Walk.start selection.directory filtered.basepath)⟩ :
            Iteration σ α).next host (.selected (selection.extend [rule] .excludes)) := by
        rw [h.basepath]
        rfl
      exact hfresh.trans (hwalking _)
  | _ => rfl

theorem Sequence.Drops.alike_ask (h : sequence.Drops host rule filtered) {reader : Reader σ α}
    (hreader : reader.iteration.sequence = filtered) :
    Act.Alike Eq (fun following following' => following' = following.of sequence ∧
        following.iteration.sequence = filtered)
      (reader.ask host (.selected selection))
      ((reader.of sequence).ask host (.selected (selection.extend [rule] .excludes))) := by
  have hiteration : reader.iteration = ⟨filtered, reader.iteration.position⟩ := by rw [← hreader]
  have hsame : (reader.of sequence).iteration.next host
        (.selected (selection.extend [rule] .excludes)) =
      (fun answer => (answer.1, answer.2.of sequence)) <$>
        reader.iteration.next host (.selected selection) := by
    rw [hiteration]
    exact h.next reader.iteration.position
  have hnext := Act.Alike.map_right (reader.iteration.next host (.selected selection))
    fun answer => (answer.1, answer.2.of sequence)
  rw [← hsame] at hnext
  have hattempt : Act.Alike Eq (fun result result' =>
      (reader.of sequence).receive result' = (reader.receive result).of sequence ∧
        (reader.receive result).iteration.sequence = filtered)
      (reader.iteration.next host (.selected selection)).attempt
      ((reader.of sequence).iteration.next host
        (.selected (selection.extend [rule] .excludes))).attempt := by
    apply hnext.given.attempt
    · rintro ⟨value, following⟩ _ ⟨rfl, state, last, hasked⟩
      have hfollowing := (Iteration.following_of_next hasked).1.trans hreader
      cases value with
      | none => exact ⟨rfl, hfollowing⟩
      | some value => exact ⟨rfl, hfollowing⟩
    · intro failure
      exact ⟨rfl, hreader⟩
  exact hattempt.bind fun _ _ hreceive => .pure hreceive

theorem Sequence.Drops.alike_take (h : sequence.Drops host rule filtered) (count : Nat)
    {reader : Reader σ α} (hreader : reader.iteration.sequence = filtered) :
    Act.Alike Eq (fun following following' => following' = following.of sequence)
      (reader.take host (.selected selection) count)
      ((reader.of sequence).take host (.selected (selection.extend [rule] .excludes)) count) := by
  induction count generalizing reader with
  | zero => exact .pure rfl
  | succ count ih =>
      apply (h.alike_ask hreader).bind
      rintro following _ ⟨rfl, hfollowing⟩
      exact ih hfollowing

theorem Sequence.Drops.readsChanged (h : sequence.Drops host rule filtered) :
    filtered.ReadsChanged host id (.selected selection) sequence
      (.selected (selection.extend [rule] .excludes)) where
  forEach _ visit := h.forEach visit
  toList := by
    rw [h.toList, List.map_id_fun, id_map]
  take count := by
    have hstart : (Reader.start filtered).iteration.sequence = filtered := rfl
    symm
    apply Act.Alike.eq
    apply (h.alike_take count hstart).map
    rintro following _ rfl
    simp [Reader.of]

end

/-! ## Agreement -/

theorem Rule.negated_notFile (host : Host σ) (entry : Entry) :
    ((Rule.kind .notFile).negated host).holds host entry =
      (Rule.kind .isFile : Rule σ).holds host entry := by
  simp only [negated, holds, bind_assoc, pure_bind, Bool.not_not, bind_pure]

theorem Rule.negated_notDirectory (host : Host σ) (entry : Entry) :
    ((Rule.kind .notDirectory).negated host).holds host entry =
      (Rule.kind .isDirectory : Rule σ).holds host entry := by
  simp only [negated, holds, bind_assoc, pure_bind, Bool.not_not, bind_pure]

theorem Sequence.drops_of_negated {host : Host σ} {rule condition : Rule σ}
    (hcondition : ∀ entry, (rule.negated host).holds host entry = condition.holds host entry)
    (collection : Collection σ) (value : Entry → Act σ (Option α)) (bottomUp : Bool) :
    (collection.collect value bottomUp none).Drops host rule
      (collection.collect value bottomUp (some condition)) where
  basepath := rfl
  bottomUp := rfl
  pick entry := by simp only [pick, Collection.collect, pure_bind, if_true, hcondition]

/-- Excluding inside the walk agrees with filtering what the walk reports, in each of the three ways
to read: the same values come in the same order, and the end is the same, also if a question fails
or a rule changes the file system. -/
theorem Selection.excluding_agrees_with_filtering [Ignore.Library] (host : Host σ)
    (selection : Selection σ) (bottomUp : Bool) :
    (∀ (α : Type) (rule : Rule σ) (value : Entry → Act σ (Option α)),
      ∃ excluded, selection.excludes [.ready rule] = .ok excluded ∧
        ((Collection.selected selection).collect value bottomUp
            (some (rule.negated host))).ReadsChanged host id (.selected selection)
          ((Collection.selected excluded).collect value bottomUp none) (.selected excluded)) ∧
      ((Collection.selected selection).relatives .files bottomUp).ReadsChanged host id
        (.selected selection)
        ((Collection.selected selection.filesOnly).relatives .any bottomUp)
        (.selected selection.filesOnly) ∧
      ((Collection.selected selection).relatives .directories bottomUp).ReadsChanged host id
        (.selected selection)
        ((Collection.selected selection.directoriesOnly).relatives .any bottomUp)
        (.selected selection.directoriesOnly) := by
  refine ⟨fun α rule value => ⟨_, selection.excludes_rule rule, ?_⟩, ?_, ?_⟩
  · exact (Sequence.drops_of_negated (fun _ => rfl) _ value bottomUp).readsChanged
  · exact (Sequence.drops_of_negated (Rule.negated_notFile host) _ _ bottomUp).readsChanged
  · exact (Sequence.drops_of_negated (Rule.negated_notDirectory host) _ _ bottomUp).readsChanged

end FileSelection
