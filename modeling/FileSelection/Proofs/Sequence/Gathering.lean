import FileSelection.CopyPlan
import FileSelection.Proofs.Alike

/-!
# Gathering what is handed over

What a visit gathers does not decide on the way it takes.  Gathering step by step is therefore the
same as first listing what is handed over and folding the list afterwards, also if the visit fails
on its way.
-/

namespace FileSelection

variable {σ α β γ δ : Type}

/-! ## Visits side by side -/

theorem Act.Alike.gatheringAll {gathers : γ → δ → Prop} {start : γ} {start' : δ}
    {action : Act (γ × σ) Unit} {other : Act (δ × σ) Unit}
    (h : Alike (Both gathers Eq) Eq action other) (hstart : gathers start start') :
    Alike Eq (fun read read' => gathers read.1 read'.1 ∧ read.2 = read'.2)
      (Act.gatheringAll start action) (Act.gatheringAll start' other) := by
  rintro state _ rfl
  have houtcomes := h (start, state) (start', state) ⟨hstart, rfl⟩
  unfold Act.gatheringAll
  generalize action (start, state) = first, other (start', state) = second at houtcomes ⊢
  cases houtcomes with
  | value _ hlast => exact .value ⟨hlast.1, rfl⟩ hlast.2
  | failure hlast => exact .value ⟨hlast.1, rfl⟩ hlast.2
  | never => exact .never

section

variable {host : Host σ} {gathers : γ → δ → Prop}

theorem Walk.alike_follow_visits {walk : Walk σ} {visit : Entry → Act (γ × σ) Unit}
    {visit' : Entry → Act (δ × σ) Unit}
    (hvisit : ∀ entry, Act.Alike (Act.Both gathers Eq) Eq (visit entry) (visit' entry))
    (stack : List Task) :
    Act.Alike (Act.Both gathers Eq) (Sum.LiftRel Eq Eq) (walk.follow host visit stack)
      (walk.follow host visit' stack) := by
  cases stack with
  | nil => exact .pure (.inr rfl)
  | cons task rest =>
      apply (Act.Alike.refl (walk.perform host task)).beside.bind
      rintro ⟨found, tasks⟩ _ rfl
      cases found with
      | none => exact .pure (.inl rfl)
      | some entry =>
          apply (hvisit entry).bind
          rintro _ _ rfl
          exact .pure (.inl rfl)

theorem PathList.alike_forEach {list : PathList} {visit : Entry → Act (γ × σ) Unit}
    {visit' : Entry → Act (δ × σ) Unit}
    (hvisit : ∀ entry, Act.Alike (Act.Both gathers Eq) Eq (visit entry) (visit' entry))
    (bottomUp : Bool) :
    Act.Alike (Act.Both gathers Eq) Eq (list.forEach host visit bottomUp)
      (list.forEach host visit' bottomUp) := by
  unfold forEach
  induction list.ordered bottomUp with
  | nil => exact .pure rfl
  | cons member members ih =>
      have hmember : Act.Alike (Act.Both gathers Eq) Eq
          (do if ← (host.exists? (list.entryOf member).path).beside then
              visit (list.entryOf member))
          (do if ← (host.exists? (list.entryOf member).path).beside then
              visit' (list.entryOf member)) := by
        apply (Act.Alike.refl (host.exists? (list.entryOf member).path)).beside.bind
        rintro found _ rfl
        cases found with
        | true => exact hvisit _
        | false => exact .pure rfl
      exact hmember.bind fun _ _ _ => ih

theorem Collection.alike_visitAll {visit : Entry → Act (γ × σ) Unit}
    {visit' : Entry → Act (δ × σ) Unit}
    (hvisit : ∀ entry, Act.Alike (Act.Both gathers Eq) Eq (visit entry) (visit' entry))
    (collection : Collection σ) (basepath : String) (bottomUp : Bool) :
    Act.Alike (Act.Both gathers Eq) Eq (collection.visitAll host basepath bottomUp visit)
      (collection.visitAll host basepath bottomUp visit') := by
  cases collection with
  | selected selection =>
      refine .loop (fun stack stack' hstack => ?_) rfl
      subst hstack
      exact Walk.alike_follow_visits hvisit stack
  | listed list => exact PathList.alike_forEach hvisit bottomUp

end

/-! ## Lists of what is handed over -/

theorem Collection.forEach_pairs (host : Host σ) (collection : Collection σ)
    (bottomUp : Bool) (visit : Entry → Act (β × σ) Unit) :
    (collection.pairs .any bottomUp).forEach host collection visit =
      collection.forEach host bottomUp visit := by
  have hpick (entry : Entry) :
      (collection.pairs .any bottomUp).pick host entry = pure (some entry) := rfl
  unfold Sequence.forEach Collection.forEach
  simp only [hpick, Act.beside_pure, pure_bind]
  rfl

/-- What is handed over when the sequence is read at once, and the failure if there is one. -/
def Sequence.readAll (host : Host σ) (sequence : Sequence σ α) (collection : Collection σ) :
    Act σ (List α × Option Failure) :=
  (fun (values, failure) => (values.reverse, failure)) <$> Act.gatheringAll []
    (sequence.forEach host collection fun value => Act.gather (value :: ·))

theorem Sequence.gatheringAll_forEach (host : Host σ) (sequence : Sequence σ α)
    (collection : Collection σ) (step : γ → α → γ) (start : γ) :
    Act.gatheringAll start
        (sequence.forEach host collection fun value => Act.gather (step · value)) =
      (fun (values, failure) => (values.foldl step start, failure)) <$>
        sequence.readAll host collection := by
  have halike : Act.Alike (Act.Both (fun (values : List α) gathered =>
        gathered = values.reverse.foldl step start) Eq) Eq
      (sequence.forEach host collection fun value => Act.gather (value :: ·))
      (sequence.forEach host collection fun value => Act.gather (step · value)) := by
    refine Collection.alike_visitAll (fun entry => ?_) collection _ _
    apply (Act.Alike.refl (sequence.pick host entry)).beside.bind
    rintro value _ rfl
    cases value with
    | none => exact .pure rfl
    | some value =>
        apply Act.Alike.gather
        rintro values _ rfl
        rw [List.reverse_cons, List.foldl_append, List.foldl_cons, List.foldl_nil]
  have hread : Act.Alike Eq
      (fun read read' => read'.1 = read.1.reverse.foldl step start ∧ read.2 = read'.2)
      (Act.gatheringAll [] _) (Act.gatheringAll start _) := halike.gatheringAll rfl
  rw [readAll, Functor.map_map]
  apply Act.Alike.eq_map
  apply hread.mono
  rintro ⟨values, failure⟩ ⟨gathered, _⟩ ⟨rfl, rfl⟩
  rfl

theorem Sequence.readAll_collect (host : Host σ) (collection : Collection σ) (change : Entry → α)
    (bottomUp : Bool) (only : Option (Rule σ)) :
    (collection.collect (fun entry => pure (some (change entry))) bottomUp only).readAll host
        collection =
      (fun (entries, failure) => (entries.map change, failure)) <$>
        (collection.collect (fun entry => pure (some entry)) bottomUp only).readAll host
          collection := by
  have halike : Act.Alike (Act.Both (fun (entries : List Entry) values =>
        values = entries.map change) Eq) Eq
      ((collection.collect (fun entry => pure (some entry)) bottomUp only).forEach host collection
        fun entry => Act.gather (entry :: ·))
      ((collection.collect (fun entry => pure (some (change entry))) bottomUp only).forEach host
        collection fun value => Act.gather (value :: ·)) := by
    refine Collection.alike_visitAll (fun entry => ?_) collection _ _
    have hpick : (collection.collect (fun entry => pure (some (change entry))) bottomUp only).pick
          host entry =
        Option.map change <$>
          (collection.collect (fun entry => pure (some entry)) bottomUp only).pick host entry := by
      cases only with
      | none => rfl
      | some rule =>
          simp only [pick, Collection.collect, map_bind]
          apply bind_congr
          intro kept
          cases kept with
          | true => rfl
          | false => rfl
    rw [hpick]
    apply (Act.Alike.map_right _ (Option.map change)).beside.bind
    rintro found _ rfl
    cases found with
    | none => exact .pure rfl
    | some found =>
        apply Act.Alike.gather
        rintro entries _ rfl
        rfl
  have hread : Act.Alike Eq (fun read read' => read'.1 = read.1.map change ∧ read.2 = read'.2)
      (Act.gatheringAll [] _) (Act.gatheringAll [] _) := halike.gatheringAll rfl
  apply Act.Alike.eq_map
  apply hread.map
  rintro ⟨entries, failure⟩ ⟨values, _⟩ ⟨rfl, rfl⟩
  simp

theorem CopyPlan.addCollection_eq (host : Host σ) (plan : CopyPlan) (collection : Collection σ)
    (target : Entry → Path) :
    plan.addCollection host collection target =
      (fun (entries, failure) =>
        (entries.foldl (fun grown entry => grown.add entry.path (target entry)) plan, failure)) <$>
          (collection.pairs .any false).readAll host collection :=
  Sequence.gatheringAll_forEach host _ collection _ plan

end FileSelection
