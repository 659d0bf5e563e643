import FileSelection.Proofs.FileSystem.Questions
import FileSelection.Proofs.Sequence.Reading
import FileSelection.Proofs.Walk.Steps
import Mathlib.Data.List.Forall2

/-!
# Interleaved readings

Several iterations may be read in turns, also several of one sequence.  As long as nothing changes,
each of them is where it would be if it alone had been read, and what has been taken from it are the
first values of its sequence.
-/

namespace FileSelection

/-! ## Readers -/

structure Reader (σ α : Type) where
  iteration : Iteration σ α
  taken : List α
  /-- How the iteration ended, once it is over. -/
  ending : Option (Except Failure Unit)

namespace Reader

variable {σ α : Type}

def start (sequence : Sequence σ α) : Reader σ α := ⟨.start sequence, [], none⟩

def receive (reader : Reader σ α) : Except Failure (Option α × Iteration σ α) → Reader σ α
  | .ok (some value, iteration) => ⟨iteration, reader.taken ++ [value], reader.ending⟩
  | .ok (none, iteration) => ⟨iteration, reader.taken, some (reader.ending.getD (.ok ()))⟩
  | .error failure =>
      ⟨reader.iteration.closed, reader.taken, some (reader.ending.getD (.error failure))⟩

def ask (host : Host σ) (collection : Collection σ) (reader : Reader σ α) : Act σ (Reader σ α) := do
  return reader.receive (← (reader.iteration.next host collection).attempt)

def take (host : Host σ) (collection : Collection σ) : Nat → Reader σ α → Act σ (Reader σ α)
  | 0, reader => pure reader
  | count + 1, reader => do take host collection count (← reader.ask host collection)

end Reader

/-! ## Requests -/

section

variable {σ ι : Type} {Value : ι → Type}

inductive Request (ι : Type) where
  /-- Starts an iteration of a stored sequence. -/
  | start (source : ι)
  /-- Takes so many values from an iteration; the iterations are counted as they were started. -/
  | take (place count : Nat)

abbrev Opened (σ : Type) (Value : ι → Type) := (source : ι) × Reader σ (Value source)

variable (host : Host σ) (collection : ι → Collection σ)
  (sequence : (source : ι) → Sequence σ (Value source))

def serve (opened : List (Opened σ Value)) : Request ι → Act σ (List (Opened σ Value))
  | .start source => return opened ++ [⟨source, .start (sequence source)⟩]
  | .take place count =>
      match opened[place]? with
      | none => return opened
      | some ⟨source, reader⟩ => do
          let reader ← reader.take host (collection source) count
          return opened.set place ⟨source, reader⟩

def serveAll : List (Request ι) → List (Opened σ Value) → Act σ (List (Opened σ Value))
  | [], opened => pure opened
  | request :: requests, opened => do
      serveAll requests (← serve host collection sequence opened request)

def Request.demand (demands : List (ι × Nat)) : Request ι → List (ι × Nat)
  | .start source => demands ++ [(source, 0)]
  | .take place count => demands.modify place fun (source, asked) => (source, asked + count)

def Request.demands (requests : List (Request ι)) : List (ι × Nat) :=
  requests.foldl Request.demand []

end

/-! ## The next answer -/

namespace Iteration

variable {σ α : Type} {host : Host σ} {collection : Collection σ} {iteration : Iteration σ α}

theorem following_of_next {value : Option α} {following : Iteration σ α} {state last : σ}
    (h : iteration.next host collection state = some (.ok (value, following), last)) :
    following.sequence = iteration.sequence ∧ (value = none → following = iteration.closed) := by
  unfold next at h
  cases collection with
  | selected selection =>
      cases hentered : iteration.entered (.selected selection) with
      | walking tasks =>
          rw [hentered] at h
          obtain ⟨⟨value', tasks'⟩, middle, -, hpair⟩ := Act.bind_eq_ok_iff.1 h
          cases hpair
          exact ⟨rfl, by rintro rfl; rfl⟩
      | _ =>
          rw [hentered] at h
          cases h
          exact ⟨rfl, fun _ => rfl⟩
  | listed list =>
      cases hentered : iteration.entered (.listed list) with
      | listing members =>
          rw [hentered] at h
          obtain ⟨⟨value', members'⟩, middle, -, hpair⟩ := Act.bind_eq_ok_iff.1 h
          cases hpair
          exact ⟨rfl, by rintro rfl; rfl⟩
      | _ =>
          rw [hentered] at h
          cases h
          exact ⟨rfl, fun _ => rfl⟩

theorem next_closed :
    iteration.closed.next host collection = pure (none, iteration.closed) := by
  cases collection with
  | selected selection => rfl
  | listed list => rfl

end Iteration

/-! ## What a reader takes -/

namespace Reader

variable {σ α : Type} {host : Host σ} {collection : Collection σ} {steady : σ → Prop}
  {reader : Reader σ α}

theorem take_add (first second : Nat) (reader : Reader σ α) :
    reader.take host collection (first + second) =
      reader.take host collection first >>= take host collection second := by
  induction first generalizing reader with
  | zero => rw [Nat.zero_add, take, pure_bind]
  | succ first ih =>
      rw [Nat.succ_add, take, take, bind_assoc]
      exact bind_congr fun following => ih following

theorem answers_ask {answer : Except Failure (Option α × Iteration σ α)}
    (h : Act.Answers steady (reader.iteration.next host collection) answer) :
    Act.Answers steady (reader.ask host collection) (.ok (reader.receive answer)) :=
  .bind h.attempt (.pure _)

theorem ask_of_over {result : Except Failure Unit}
    (hover : reader.iteration = reader.iteration.closed) (hending : reader.ending = some result) :
    reader.ask host collection = pure reader := by
  have hreceive : reader.receive (.ok (none, reader.iteration.closed)) = reader := by
    rw [receive, hending, Option.getD_some, ← hending, ← hover]
  rw [ask, hover, Iteration.next_closed]
  exact congrArg (pure : Reader σ α → Act σ (Reader σ α)) hreceive

theorem take_of_over {result : Except Failure Unit} (count : Nat)
    (hover : reader.iteration = reader.iteration.closed) (hending : reader.ending = some result) :
    reader.take host collection count = pure reader := by
  induction count with
  | zero => rfl
  | succ count ih => rw [take, ask_of_over hover hending, pure_bind, ih]

theorem answers_take (reader : Reader σ α) {values : List α} {result : Except Failure Unit}
    {state : σ} (hstate : steady state)
    (h : Iteration.Yields steady host collection reader.iteration values result)
    (hending : reader.ending = none) (count : Nat) :
    ∃ final, Act.Answers steady (reader.take host collection count) (.ok final) ∧
      final.taken = reader.taken ++ values.take count ∧
      final.ending = if values.length < count then some result else none := by
  -- Each question follows one case of what the iteration yields; once the iteration has ended, the
  -- questions that are left change nothing.
  induction count generalizing reader values with
  | zero => exact ⟨reader, .pure _, by simp, hending⟩
  | succ count ih =>
      cases h with
      | @ended _ following hnext =>
          obtain ⟨last, -, hdone⟩ := hnext state hstate
          obtain rfl : following = reader.iteration.closed :=
            (Iteration.following_of_next hdone).2 rfl
          refine ⟨⟨reader.iteration.closed, reader.taken, some (.ok ())⟩, ?_, by simp, rfl⟩
          refine .bind (answers_ask hnext) ?_
          rw [receive, hending]
          rw [take_of_over count rfl rfl]
          exact .pure _
      | @failure _ failure hnext =>
          refine ⟨⟨reader.iteration.closed, reader.taken, some (.error failure)⟩, ?_, by simp, rfl⟩
          refine .bind (answers_ask hnext) ?_
          rw [receive, hending]
          rw [take_of_over count rfl rfl]
          exact .pure _
      | @value _ following value values _ hnext hrest =>
          obtain ⟨final, hfinal, htaken, hended⟩ :=
            ih ⟨following, reader.taken ++ [value], reader.ending⟩ hrest hending
          refine ⟨final, .bind (answers_ask hnext) hfinal, ?_, ?_⟩
          · rw [htaken, List.take_succ_cons, List.append_assoc, List.singleton_append]
          · rw [hended, List.length_cons]
            simp only [Nat.add_lt_add_iff_right]

theorem sequence_of_ask {following : Reader σ α} {state last : σ}
    (h : reader.ask host collection state = some (.ok following, last)) :
    following.iteration.sequence = reader.iteration.sequence := by
  obtain ⟨answer, middle, hanswer, hreceive⟩ := Act.bind_eq_ok_iff.1 h
  cases hreceive
  have hnext := Act.attempt_eq_ok_iff.1 hanswer
  cases answer with
  | error failure => rfl
  | ok answer =>
      obtain ⟨value, following⟩ := answer
      cases value with
      | none => exact (Iteration.following_of_next hnext).1
      | some value => exact (Iteration.following_of_next hnext).1

theorem sequence_of_take {count : Nat} {following : Reader σ α} {state last : σ}
    (h : reader.take host collection count state = some (.ok following, last)) :
    following.iteration.sequence = reader.iteration.sequence := by
  induction count generalizing reader state with
  | zero =>
      cases h
      rfl
  | succ count ih =>
      obtain ⟨asked, middle, hask, hrest⟩ := Act.bind_eq_ok_iff.1 h
      exact (ih hrest).trans (sequence_of_ask hask)

section

variable (hhost : host.IsStill steady) (hcollection : collection.IsPure steady)

include hhost hcollection

theorem repeats_ask (hsequence : reader.iteration.sequence.IsPure steady) :
    Act.Repeats steady (reader.ask host collection) :=
  .bind (.attempt (Iteration.repeats_next hhost hcollection hsequence)) fun _ => .pure _

theorem repeats_take (hsequence : reader.iteration.sequence.IsPure steady) (count : Nat) :
    Act.Repeats steady (reader.take host collection count) := by
  induction count generalizing reader with
  | zero => exact .pure reader
  | succ count ih =>
      refine (repeats_ask hhost hcollection hsequence).bind_of_ok ?_
      intro state following last hask
      exact ih (by rwa [sequence_of_ask hask])

end

end Reader

/-! ## Reading in turns -/

section

variable {σ ι : Type} {Value : ι → Type} (steady : σ → Prop) (host : Host σ)
  (collection : ι → Collection σ) (sequence : (source : ι) → Sequence σ (Value source))

/-- The reader is where it is when a new reader of its sequence is asked for so many values and
nothing else happens. -/
structure Opened.IsAsAlone (demand : ι × Nat) (opened : Opened σ Value) : Prop where
  source : opened.1 = demand.1
  answers : Act.Answers steady
    ((Reader.start (sequence opened.1)).take host (collection opened.1) demand.2) (.ok opened.2)

/-- Reading the sequence at once hands over these values and ends with the result. -/
def Sequence.ReadsAs {α : Type} (sequence : Sequence σ α) (collection : Collection σ)
    (values : List α) (result : Except Failure Unit) : Prop :=
  ∃ state last, steady state ∧
    sequence.forEach host collection (fun value => Act.gather (value :: ·)) ([], state) =
      some (result, values.reverse, last)

variable {steady host collection sequence}

theorem Sequence.toList_eq_ok_iff {α : Type} {sequence : Sequence σ α} {collection : Collection σ}
    {values : List α} {state last : σ} :
    sequence.toList host collection state = some (.ok values, last) ↔
      sequence.forEach host collection (fun value => Act.gather (value :: ·)) ([], state) =
        some (.ok (), values.reverse, last) := by
  rw [toList, map_eq_pure_bind, Act.bind_eq_ok_iff]
  constructor
  · rintro ⟨gathered, middle, hgathering, hvalues⟩
    cases hvalues
    rw [List.reverse_reverse]
    unfold Act.gathering at hgathering
    split at hgathering
    · rename_i result gathered' last' hread
      obtain ⟨hresult, rfl⟩ := Prod.ext_iff.1 (Option.some.inj hgathering)
      cases result with
      | ok _ =>
          cases hresult
          exact hread
      | error failure => cases hresult
    · cases hgathering
  · intro h
    refine ⟨values.reverse, last, ?_, by rw [List.reverse_reverse]; rfl⟩
    rw [Act.gathering, h]
    rfl

/-! ### One request -/

theorem forall₂_modify_set {α β : Type} {R : α → β → Prop} {xs : List α} {ys : List β} {place : Nat}
    {change : α → α} {y : β} (h : List.Forall₂ R xs ys)
    (hplace : ∀ x, xs[place]? = some x → R (change x) y) :
    List.Forall₂ R (xs.modify place change) (ys.set place y) := by
  induction h generalizing place with
  | nil => simp
  | cons hfirst hrest ih =>
      cases place with
      | zero => exact .cons (hplace _ rfl) hrest
      | succ place => exact .cons hfirst (ih fun x hx => hplace x hx)

theorem forall₂_getElem?_right {α β : Type} {R : α → β → Prop} {xs : List α} {ys : List β}
    {place : Nat} {y : β} (h : List.Forall₂ R xs ys) (hy : ys[place]? = some y) :
    ∃ x, xs[place]? = some x ∧ R x y := by
  obtain ⟨hplace, rfl⟩ := List.getElem?_eq_some_iff.1 hy
  have hplace' : place < xs.length := h.length_eq ▸ hplace
  exact ⟨xs[place], List.getElem?_eq_getElem hplace', h.get hplace' hplace⟩

variable (hhost : host.IsStill steady) (hcollection : ∀ source, (collection source).IsPure steady)
  (hsequence : ∀ source, (sequence source).IsPure steady)

include hhost hcollection hsequence

theorem Opened.IsAsAlone.repeats_take {demand : ι × Nat} {opened : Opened σ Value} {state : σ}
    (h : opened.IsAsAlone steady host collection sequence demand) (hstate : steady state)
    (count : Nat) :
    Act.Repeats steady (opened.2.take host (collection opened.1) count) := by
  obtain ⟨last, -, htake⟩ := h.answers state hstate
  refine Reader.repeats_take hhost (hcollection opened.1) ?_ count
  rw [Reader.sequence_of_take htake]
  exact hsequence opened.1

theorem Opened.IsAsAlone.take {demand : ι × Nat} {source : ι}
    {reader following : Reader σ (Value source)} {count : Nat} {state last : σ}
    (h : Opened.IsAsAlone steady host collection sequence demand ⟨source, reader⟩)
    (hstate : steady state)
    (htake : reader.take host (collection source) count state = some (.ok following, last)) :
    steady last ∧ Opened.IsAsAlone steady host collection sequence
      (demand.1, demand.2 + count) ⟨source, following⟩ := by
  have hrepeats := h.repeats_take hhost hcollection hsequence hstate count
  refine ⟨hrepeats.stays hstate htake, h.source, ?_⟩
  rw [Reader.take_add]
  exact h.answers.bind (hrepeats.answers hstate htake)

theorem isAsAlone_of_serve {demands : List (ι × Nat)} {opened following : List (Opened σ Value)}
    {request : Request ι} {state last : σ} (hstate : steady state)
    (h : List.Forall₂ (Opened.IsAsAlone steady host collection sequence) demands opened)
    (hserve : serve host collection sequence opened request state = some (.ok following, last)) :
    steady last ∧ List.Forall₂ (Opened.IsAsAlone steady host collection sequence)
      (request.demand demands) following := by
  cases request with
  | start source =>
      cases hserve
      exact ⟨hstate, List.rel_append h (.cons ⟨rfl, .pure _⟩ .nil)⟩
  | take place count =>
      cases hplace : opened[place]? with
      | none =>
          rw [serve, hplace] at hserve
          cases hserve
          have hlength : demands.length ≤ place := by
            rw [h.length_eq]
            exact List.getElem?_eq_none_iff.1 hplace
          refine ⟨hstate, ?_⟩
          rwa [Request.demand, List.modify_eq_self hlength]
      | some found =>
          obtain ⟨source, reader⟩ := found
          rw [serve, hplace] at hserve
          obtain ⟨following, middle, htake, hpair⟩ := Act.bind_eq_ok_iff.1 hserve
          cases hpair
          obtain ⟨demand, hdemand, halone⟩ := forall₂_getElem?_right h hplace
          obtain ⟨hlast, hfollowing⟩ := halone.take hhost hcollection hsequence hstate htake
          refine ⟨hlast, forall₂_modify_set h fun demand' hdemand' => ?_⟩
          rw [hdemand] at hdemand'
          cases hdemand'
          exact hfollowing

omit hhost hcollection hsequence in
theorem source_of_serve {opened following : List (Opened σ Value)} {request : Request ι}
    {state last : σ}
    (hserve : serve host collection sequence opened request state = some (.ok following, last))
    {found : Opened σ Value} (hfound : found ∈ following) :
    request = .start found.1 ∨ ∃ earlier ∈ opened, earlier.1 = found.1 := by
  cases request with
  | start source =>
      cases hserve
      obtain hfound | hfound := List.mem_append.1 hfound
      · exact .inr ⟨found, hfound, rfl⟩
      · obtain rfl := List.mem_singleton.1 hfound
        exact .inl rfl
  | take place count =>
      cases hplace : opened[place]? with
      | none =>
          rw [serve, hplace] at hserve
          cases hserve
          exact .inr ⟨found, hfound, rfl⟩
      | some earlier =>
          obtain ⟨source, reader⟩ := earlier
          rw [serve, hplace] at hserve
          obtain ⟨following, middle, htake, hpair⟩ := Act.bind_eq_ok_iff.1 hserve
          cases hpair
          obtain hfound | rfl := List.mem_or_eq_of_mem_set hfound
          · exact .inr ⟨found, hfound, rfl⟩
          · exact .inr ⟨_, List.mem_of_getElem? hplace, rfl⟩

theorem Opened.IsAsAlone.answers_take {demand : ι × Nat} {opened : Opened σ Value} {state : σ}
    (h : opened.IsAsAlone steady host collection sequence demand) (hstate : steady state)
    {values : List (Value opened.1)} {result : Except Failure Unit}
    (hreads : (sequence opened.1).ReadsAs steady host (collection opened.1) values result)
    (count : Nat) :
    ∃ following, Act.Answers steady (opened.2.take host (collection opened.1) count)
      (.ok following) := by
  obtain ⟨before, after, hbefore, hread⟩ := hreads
  have hyields := Iteration.yields_of_forEach hhost (hsequence _) (hcollection _) hbefore hread
  obtain ⟨final, hfinal, -, -⟩ :=
    Reader.answers_take (.start (sequence opened.1)) hstate hyields rfl (demand.2 + count)
  rw [Reader.take_add] at hfinal
  exact ⟨final, (h.repeats_take hhost hcollection hsequence hstate count).answers_of_bind hstate
    h.answers hfinal⟩

theorem Opened.IsAsAlone.takes {demand : ι × Nat} {opened : Opened σ Value} {state : σ}
    (h : opened.IsAsAlone steady host collection sequence demand) (hstate : steady state)
    {values : List (Value opened.1)} {result : Except Failure Unit}
    (hreads : (sequence opened.1).ReadsAs steady host (collection opened.1) values result) :
    opened.2.taken = values.take demand.2 ∧
      opened.2.ending = if values.length < demand.2 then some result else none := by
  obtain ⟨before, after, hbefore, hread⟩ := hreads
  have hyields := Iteration.yields_of_forEach hhost (hsequence _) (hcollection _) hbefore hread
  obtain ⟨final, hfinal, htaken, hended⟩ :=
    Reader.answers_take (.start (sequence opened.1)) hstate hyields rfl demand.2
  obtain rfl : opened.2 = final := Except.ok.inj (h.answers.unique hstate hfinal)
  exact ⟨htaken, hended⟩

theorem serve_answers {demands : List (ι × Nat)} {opened : List (Opened σ Value)}
    (request : Request ι) {state : σ} (hstate : steady state)
    (h : List.Forall₂ (Opened.IsAsAlone steady host collection sequence) demands opened)
    (hreads : ∀ found ∈ opened, ∃ values result,
      (sequence found.1).ReadsAs steady host (collection found.1) values result) :
    ∃ following last,
      serve host collection sequence opened request state = some (.ok following, last) := by
  cases request with
  | start source => exact ⟨_, _, rfl⟩
  | take place count =>
      cases hplace : opened[place]? with
      | none => exact ⟨opened, state, by rw [serve, hplace]; rfl⟩
      | some found =>
          obtain ⟨values, result, hread⟩ := hreads found (List.mem_of_getElem? hplace)
          obtain ⟨demand, -, halone⟩ := forall₂_getElem?_right h hplace
          obtain ⟨following, hfollowing⟩ :=
            halone.answers_take hhost hcollection hsequence hstate hread count
          obtain ⟨last, -, htake⟩ := hfollowing state hstate
          obtain ⟨source, reader⟩ := found
          exact ⟨_, last, by rw [serve, hplace]; exact Act.bind_of_ok htake⟩

/-! ### Several requests -/

theorem isAsAlone_of_serveAll {requests : List (Request ι)} {demands : List (ι × Nat)}
    {opened following : List (Opened σ Value)} {state last : σ} (hstate : steady state)
    (h : List.Forall₂ (Opened.IsAsAlone steady host collection sequence) demands opened)
    (hserve : serveAll host collection sequence requests opened state =
      some (.ok following, last)) :
    steady last ∧ List.Forall₂ (Opened.IsAsAlone steady host collection sequence)
      (requests.foldl Request.demand demands) following := by
  induction requests generalizing demands opened state with
  | nil =>
      cases hserve
      exact ⟨hstate, h⟩
  | cons request requests ih =>
      obtain ⟨served, middle, hrequest, hrest⟩ := Act.bind_eq_ok_iff.1 hserve
      obtain ⟨hmiddle, hserved⟩ :=
        isAsAlone_of_serve hhost hcollection hsequence hstate h hrequest
      exact ih hmiddle hserved hrest

theorem serveAll_answers (requests : List (Request ι)) {demands : List (ι × Nat)}
    {opened : List (Opened σ Value)} {state : σ} (hstate : steady state)
    (h : List.Forall₂ (Opened.IsAsAlone steady host collection sequence) demands opened)
    (hreads : ∀ source, (.start source ∈ requests ∨ ∃ found ∈ opened, found.1 = source) →
      ∃ values result, (sequence source).ReadsAs steady host (collection source) values result) :
    ∃ following last,
      serveAll host collection sequence requests opened state = some (.ok following, last) := by
  induction requests generalizing demands opened state with
  | nil => exact ⟨opened, state, rfl⟩
  | cons request requests ih =>
      obtain ⟨served, middle, hrequest⟩ :=
        serve_answers hhost hcollection hsequence request hstate h fun found hfound =>
          hreads found.1 (.inr ⟨found, hfound, rfl⟩)
      obtain ⟨hmiddle, hserved⟩ :=
        isAsAlone_of_serve hhost hcollection hsequence hstate h hrequest
      have hlater : ∀ source, (.start source ∈ requests ∨ ∃ found ∈ served, found.1 = source) →
          ∃ values result,
            (sequence source).ReadsAs steady host (collection source) values result := by
        rintro source (hstart | ⟨found, hfound, rfl⟩)
        · exact hreads source (.inl (List.mem_cons_of_mem _ hstart))
        · obtain rfl | hearlier := source_of_serve hrequest hfound
          · exact hreads found.1 (.inl List.mem_cons_self)
          · exact hreads found.1 (.inr hearlier)
      obtain ⟨following, last, hrest⟩ := ih hmiddle hserved hlater
      exact ⟨following, last, (Act.bind_of_ok hrequest).trans hrest⟩

/-- Iterations that are read in turns, in any order and in portions of any size, do not affect each
other: each is where it would be if it alone had been asked for as many values.  What has been taken
from it is the beginning of what the sequence gives when it is read at once, and all of it once the
iteration is over.  If the sequences can be read to their ends, all requests are met. -/
theorem interleaved_readings_agree (requests : List (Request ι)) {before : σ}
    (hbefore : steady before) :
    (∀ readers after, serveAll host collection sequence requests [] before =
        some (.ok readers, after) →
      List.Forall₂ (fun demand reader =>
        reader.IsAsAlone steady host collection sequence demand ∧
          ∀ values result,
            (sequence reader.1).ReadsAs steady host (collection reader.1) values result →
              reader.2.taken = values.take demand.2 ∧ reader.2.taken <+: values ∧
                reader.2.ending = (if values.length < demand.2 then some result else none) ∧
                (reader.2.ending.isSome → reader.2.taken = values))
        (Request.demands requests) readers) ∧
    ((∀ source, .start source ∈ requests → ∃ values result,
        (sequence source).ReadsAs steady host (collection source) values result) →
      ∃ readers after, steady after ∧
        serveAll host collection sequence requests [] before = some (.ok readers, after)) := by
  constructor
  · intro readers after hserve
    obtain ⟨-, hreaders⟩ :=
      isAsAlone_of_serveAll hhost hcollection hsequence hbefore .nil hserve
    refine hreaders.imp fun demand reader halone => ⟨halone, ?_⟩
    intro values result hreads
    obtain ⟨htaken, hended⟩ := halone.takes hhost hcollection hsequence hbefore hreads
    refine ⟨htaken, htaken ▸ List.take_prefix _ _, hended, fun hover => ?_⟩
    have hlength : values.length < demand.2 := by
      by_contra hmore
      rw [hended, if_neg hmore] at hover
      cases hover
    rw [htaken, List.take_of_length_le (Nat.le_of_lt hlength)]
  · intro hreads
    obtain ⟨readers, after, hserve⟩ :=
      serveAll_answers hhost hcollection hsequence requests hbefore .nil <| by
        rintro source (hstart | ⟨_, hfound, -⟩)
        · exact hreads source hstart
        · cases hfound
    have hafter := isAsAlone_of_serveAll hhost hcollection hsequence hbefore .nil hserve
    exact ⟨readers, after, hafter.1, hserve⟩

end

/-! ## Files that nobody changes -/

namespace Session

variable {τ : Type}

theorem repeats_ask {α : Type} (files : FileSystem) (question : FileSystem → Except Failure α) :
    Act.Repeats (fun session : Session τ => session.files = files) (ask question) := by
  have hanswers : Act.Answers (fun session : Session τ => session.files = files) (ask question)
      (question files) := by
    rintro session rfl
    exact ⟨session, rfl, rfl⟩
  exact hanswers.repeats

theorem isStill_host (files : FileSystem) :
    (host : Host (Session τ)).IsStill fun session => session.files = files where
  names path := repeats_ask files (·.namesIn path)
  status follow path := repeats_ask files (·.status follow path)
  note note := by
    have hanswers : Act.Answers (fun session : Session τ => session.files = files) (host.note note)
        (.ok ()) := fun session hsession =>
      ⟨{ session with notes := note :: session.notes }, hsession, rfl⟩
    exact hanswers.repeats

end Session

namespace FileSystem

def filePair : FileSystem where
  root := .directory [("a", .file .empty 0), ("b", .file .empty 0)]
  working := []

theorem namesIn_filePair : filePair.namesIn ⟨"/", []⟩ = .ok ["a", "b"] := by
  have htext : Path.text ⟨"/", []⟩ = "/" := by decide
  have hsteps : steps "/" = ["."] := by decide
  unfold namesIn locate
  simp only [htext, hsteps]
  simp [filePair, rootLocation, follow, Path.isAbsolute]
  decide

theorem status_filePair {name : String} (hname : name ∈ ["a", "b"]) :
    filePair.status true ⟨"/", [name]⟩ = .ok ⟨.file, 0, 0⟩ := by
  have htexts : Path.text ⟨"/", ["a"]⟩ = "/a" ∧ Path.text ⟨"/", ["b"]⟩ = "/b" := by decide
  have hsteps : steps "/a" = ["a"] ∧ steps "/b" = ["b"] := by decide
  have hfound : filePair.status true ⟨"/", ["a"]⟩ = .ok ⟨.file, 0, 0⟩ ∧
      filePair.status true ⟨"/", ["b"]⟩ = .ok ⟨.file, 0, 0⟩ := by
    unfold status locate
    simp only [htexts, hsteps]
    simp [filePair, rootLocation, follow, Path.isAbsolute]
    exact ⟨rfl, rfl⟩
  simp only [List.mem_cons, List.not_mem_nil, or_false] at hname
  obtain rfl | rfl := hname
  · exact hfound.1
  · exact hfound.2

end FileSystem

def pairSelection (basepath : String) : Selection (Session Unit) :=
  ⟨⟨"/", []⟩, .glob, true, false, true, basepath, .empty⟩

def pairWalk : Walk (Session Unit) := (pairSelection "").walk Session.host false

def pairList : PathList := ⟨⟨"/", []⟩, ["a", "b"]⟩

def pairRelatives (basepath : String) : Sequence (Session Unit) String :=
  (Collection.selected (pairSelection basepath)).relatives .any false

section

variable {session : Session Unit} (hfiles : session.files = .filePair)

include hfiles

theorem status?_filePair {name : String} (hname : name ∈ ["a", "b"]) :
    Session.host.status? true ⟨"/", [name]⟩ session =
      some (.ok (some ⟨.file, 0, 0⟩), session) :=
  Host.status?_of_ok (Session.host_status hfiles (FileSystem.status_filePair hname))

theorem forEach_pairSelection (basepath : String) :
    (pairRelatives basepath).forEach Session.host (.selected (pairSelection basepath))
        (fun value => Act.gather (value :: ·)) ([], session) =
      some (.ok (), [Path.joinRelative basepath "b", Path.joinRelative basepath "a"], session) := by
  have hnames : Session.host.names ⟨"/", []⟩ session = some (.ok ["a", "b"], session) :=
    Session.host_names hfiles FileSystem.namesIn_filePair
  have hentered : pairWalk.perform Session.host (.enter ⟨"/", []⟩ basepath) session =
      some (.ok (none, [.visit ⟨⟨"/", ["a"]⟩, Path.joinRelative basepath "a"⟩,
        .visit ⟨⟨"/", ["b"]⟩, Path.joinRelative basepath "b"⟩]), session) :=
    Walk.perform_enter_of_sorted basepath hnames (by decide)
  have hleft : ∀ name ∈ ["a", "b"], ∀ relative,
      pairWalk.perform Session.host (.descend ⟨⟨"/", [name]⟩, relative⟩) session =
        some (.ok (none, []), session) := by
    intro name hname relative
    have hdirectory : Session.host.isDirectory ⟨"/", [name]⟩ session =
        some (.ok false, session) := Act.bind_of_ok (status?_filePair hfiles hname)
    have henters : pairWalk.entersInto Session.host ⟨⟨"/", [name]⟩, relative⟩ session =
        some (.ok false, session) := Act.bind_of_ok hdirectory
    exact Act.bind_of_ok henters
  have hfollow : ∀ {task tasks rest} {gathered : List String},
      pairWalk.perform Session.host task session = some (.ok (none, tasks), session) →
        pairWalk.follow Session.host
            (fun entry => Act.handOver ((pairRelatives basepath).pick Session.host entry))
            (task :: rest) (gathered, session) =
          some (.ok (.inl (tasks ++ rest)), gathered, session) := by
    intro task tasks rest gathered htask
    exact Act.bind_of_ok (Act.beside_eq_some_iff.2 ⟨htask, rfl⟩)
  have hloop : Act.Step.loop (pairWalk.follow Session.host
        fun entry => Act.handOver ((pairRelatives basepath).pick Session.host entry))
      [.enter ⟨"/", []⟩ basepath] ([], session) =
        some (.ok (), [Path.joinRelative basepath "b", Path.joinRelative basepath "a"],
          session) :=
    Act.loop_eq_some_iff.2 <|
      .next (hfollow hentered) <| .next rfl <| .next rfl <|
        .next (hfollow (hleft "a" (by decide) _)) <| .next rfl <| .next rfl <|
        .next (hfollow (hleft "b" (by decide) _)) <| .value rfl
  exact hloop

theorem forEach_pairList :
    ((Collection.listed pairList).relatives .any true).forEach Session.host (.listed pairList)
        (fun value => Act.gather (value :: ·)) ([], session) =
      some (.ok (), ["a", "b"], session) := by
  have hmember : ∀ name ∈ ["a", "b"], ∀ gathered : List String,
      (do if ← (Session.host.exists? ⟨"/", [name]⟩).beside then Act.gather (name :: ·)
          : Act (List String × Session Unit) Unit) (gathered, session) =
        some (.ok (), name :: gathered, session) := by
    intro name hname gathered
    have hexists : Session.host.exists? ⟨"/", [name]⟩ session = some (.ok true, session) :=
      Act.bind_of_ok (status?_filePair hfiles hname)
    exact Act.bind_of_ok (Act.beside_eq_some_iff.2 ⟨hexists, rfl⟩)
  exact (Act.bind_of_ok (hmember "b" (by decide) [])).trans
    (Act.bind_of_ok (hmember "a" (by decide) ["b"]))

end

def pairCollection : Bool → Collection (Session Unit)
  | false => .selected (pairSelection "")
  | true => .listed pairList

def pairSequence (source : Bool) : Sequence (Session Unit) String :=
  (pairCollection source).relatives .any source

def pairValues : Bool → List String
  | false => ["a", "b"]
  | true => ["b", "a"]

theorem pair_readings_agree :
    ∃ readers after, serveAll Session.host pairCollection pairSequence
        [.start false, .start true, .start false, .take 2 1, .take 0 3, .take 1 1] []
        (Session.ofFiles .filePair ()) = some (.ok readers, after) ∧
      readers.map (fun reader => (reader.1, reader.2.taken, reader.2.ending.isSome)) =
        [(false, ["a", "b"], true), (true, ["b"], false), (false, ["a"], false)] := by
  have hcollection : ∀ source, (pairCollection source).IsPure
      fun session : Session Unit => session.files = .filePair := by
    intro source
    cases source with
    | false => exact ⟨List.forall_mem_nil _, List.forall_mem_nil _, List.forall_mem_nil _⟩
    | true => trivial
  have hsequence : ∀ source, (pairSequence source).IsPure
      fun session : Session Unit => session.files = .filePair := by
    intro source
    exact ⟨by rintro _ ⟨⟩, fun entry => .pure _⟩
  have hfiles : (Session.ofFiles .filePair ()).files = FileSystem.filePair := rfl
  have hread : ∀ source, (pairSequence source).ReadsAs (fun session => session.files = .filePair)
      Session.host (pairCollection source) (pairValues source) (.ok ()) := by
    intro source
    cases source with
    | false => exact ⟨_, _, hfiles, forEach_pairSelection hfiles ""⟩
    | true => exact ⟨_, _, hfiles, forEach_pairList hfiles⟩
  obtain ⟨hagree, hserved⟩ := interleaved_readings_agree (Session.isStill_host .filePair)
    hcollection hsequence
    [.start false, .start true, .start false, .take 2 1, .take 0 3, .take 1 1] hfiles
  obtain ⟨readers, after, -, hserve⟩ := hserved fun source _ => ⟨_, _, hread source⟩
  refine ⟨readers, after, hserve, ?_⟩
  have hagrees := hagree readers after hserve
  change List.Forall₂ _ [(false, 3), (true, 1), (false, 1)] readers at hagrees
  have hshown : [(false, 3), (true, 1), (false, 1)].map (fun demand =>
      (demand.1, (pairValues demand.1).take demand.2,
        decide ((pairValues demand.1).length < demand.2))) =
      readers.map fun reader => (reader.1, reader.2.taken, reader.2.ending.isSome) := by
    rw [← List.forall₂_eq_eq_eq, List.forall₂_map_left_iff, List.forall₂_map_right_iff]
    refine hagrees.imp fun demand reader ⟨halone, hvalues⟩ => ?_
    obtain ⟨htaken, -, hended, -⟩ := hvalues _ _ (hread reader.1)
    rw [← halone.source, htaken, hended]
    split
    · simp [*]
    · simp [*]
  exact hshown.symm

end FileSelection
