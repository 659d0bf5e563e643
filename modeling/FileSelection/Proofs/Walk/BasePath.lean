import FileSelection.Proofs.Sequence.Reading
import FileSelection.Proofs.Walk.Order

/-!
# Where reported paths start

The relative paths that a traversal reports start with a slash exactly if its base path does.  What
is kept by visits of such entries is therefore kept by every traversal, whatever happens to the file
system meanwhile.
-/

namespace FileSelection

open FileSelection.Path

/-! ## Texts that start with a slash -/

def Path.IsRooted (text : String) : Prop := text.toList.head? = some '/'

instance (text : String) : Decidable (IsRooted text) :=
  inferInstanceAs (Decidable (text.toList.head? = some '/'))

theorem Path.IsName.not_isRooted {name : String} (h : IsName name) : ¬ IsRooted name :=
  fun hhead => h.noSlash (List.mem_of_mem_head? hhead)

theorem Path.isRooted_joinRelative {above name : String} (h : IsName name) :
    IsRooted (joinRelative above name) ↔ IsRooted above := by
  unfold IsRooted
  rw [toList_joinRelative]
  by_cases hempty : above = ""
  · subst hempty
    rw [if_pos rfl]
    exact iff_of_false h.not_isRooted (by simp)
  · rw [if_neg hempty, List.head?_append]
    obtain ⟨c, rest, heq⟩ := List.exists_cons_of_ne_nil (by simpa using hempty : above.toList ≠ [])
    rw [heq]
    rfl

theorem PathList.not_isRooted_relativePart (text : String) : ¬ IsRooted (relativePart text) := by
  unfold IsRooted relativePart
  rw [String.toList_ofList]
  intro hhead
  have hkept := List.head?_dropWhile_not (· == '/') text.toList
  rw [hhead] at hkept
  simp at hkept

theorem PathList.relativePart_eq_self {text : String} (h : ¬ IsRooted text) :
    relativePart text = text := by
  have hkept : text.toList.dropWhile (· == '/') = text.toList := by
    unfold IsRooted at h
    cases htext : text.toList with
    | nil => rfl
    | cons c rest =>
        rw [htext] at h
        exact List.dropWhile_cons_of_neg (by simpa using h)
  rw [relativePart, hkept, String.ofList_toList]

theorem PathList.mem_insert {text member : String} {members : List String}
    (h : member ∈ insert text members) : member = text ∨ member ∈ members := by
  induction members with
  | nil => exact .inl (List.mem_singleton.1 h)
  | cons first members ih =>
      rw [insert] at h
      split at h
      · exact List.mem_cons.1 h
      · split at h
        · obtain rfl | hrest := List.mem_cons.1 h
          · exact .inr List.mem_cons_self
          · exact (ih hrest).imp_right (List.mem_cons_of_mem _)
        · exact .inr h

theorem PathList.forall_mem_includes {P : String → Prop} {list : PathList}
    (h : ∀ member ∈ list.members, P member) {paths : List String}
    (hpaths : ∀ path ∈ paths, P (relativePart path)) :
    ∀ member ∈ (list.includes paths).members, P member := by
  unfold includes
  induction paths using List.reverseRecOn with
  | nil => exact h
  | append_singleton paths path ih =>
      intro member hmember
      rw [List.foldl_append] at hmember
      obtain rfl | hearlier := mem_insert hmember
      · exact hpaths path (by simp)
      · exact ih (fun other hother => hpaths other (by simp [hother])) member hearlier

theorem PathList.mem_of_mem_ordered {list : PathList} {bottomUp : Bool} {member : String}
    (h : member ∈ list.ordered bottomUp) : member ∈ list.members := by
  unfold ordered at h
  split at h
  · exact List.mem_reverse.1 h
  · exact h

def Collection.StartsLike {σ : Type} (basepath : String) : Collection σ → Prop
  | .selected _ => True
  | .listed list => ∀ member ∈ list.members, IsRooted member ↔ IsRooted basepath

theorem PathList.startsLike_includes {σ : Type} (directory : Path) (paths : List String) :
    (Collection.listed ((⟨directory, []⟩ : PathList).includes paths) :
      Collection σ).StartsLike "" := by
  refine forall_mem_includes (List.forall_mem_nil _) fun path _ => ?_
  exact iff_of_false (not_isRooted_relativePart path) (by simp [IsRooted])

/-! ## Courses -/

namespace Walk

section

variable {bottomUp : Bool} {rooted : Prop}

theorem Replaces.startsLike {task : Task} {tasks : List Task} {found : Option Entry}
    (h : Replaces bottomUp task found tasks) (htask : IsRooted task.relative ↔ rooted) :
    (∀ entry ∈ found, IsRooted entry.relative ↔ rooted) ∧
      ∀ other ∈ tasks, IsRooted other.relative ↔ rooted := by
  cases h with
  | @enter directory relative names hnames =>
      refine ⟨by simp, ?_⟩
      rw [List.forall_mem_map]
      intro name hname
      have hname : IsName name := hnames.2 name (List.mem_mergeSort.1 hname)
      exact (isRooted_joinRelative hname).trans htask
  | visit =>
      refine ⟨by simp, ?_⟩
      cases bottomUp with
      | true => simpa [Task.relative] using htask
      | false => simpa [Task.relative] using htask
  | descend => simpa [Task.relative] using htask
  | skip | drop => simp
  | report => simpa [Task.relative] using htask

theorem Course.startsLike {stack following : List Task} {entries : List Entry}
    (h : Course (Replaces bottomUp) stack entries following)
    (hstack : ∀ task ∈ stack, IsRooted task.relative ↔ rooted) :
    (∀ entry ∈ entries, IsRooted entry.relative ↔ rooted) ∧
      ∀ task ∈ following, IsRooted task.relative ↔ rooted := by
  induction h with
  | refl => exact ⟨List.forall_mem_nil _, hstack⟩
  | step hreplaces _ ih =>
      obtain ⟨hfirst, hrest⟩ := List.forall_mem_cons.1 hstack
      obtain ⟨hfound, htasks⟩ := hreplaces.startsLike hfirst
      obtain ⟨hentries, hfollowing⟩ := ih (List.forall_mem_append.2 ⟨htasks, hrest⟩)
      exact ⟨List.forall_mem_append.2 ⟨by simpa using hfound, hentries⟩, hfollowing⟩

end

/-! ## Traversals -/

section

variable {σ γ : Type} {host : Host σ} {rooted : Prop} {Kept : γ → Prop}
  {visit : Entry → Act (γ × σ) Unit}

def Keeps (rooted : Prop) (Kept : γ → Prop) (visit : Entry → Act (γ × σ) Unit) : Prop :=
  ∀ ⦃entry gathered state result gathered' last⦄, (IsRooted entry.relative ↔ rooted) →
    Kept gathered → visit entry (gathered, state) = some (result, gathered', last) → Kept gathered'

variable (hhost : host.IsTidy) (hvisit : Keeps rooted Kept visit)

include hhost hvisit

theorem Keeps.follow {walk : Walk σ} {stack : List Task} {gathered gathered' : γ} {state last : σ}
    {result : Except Failure (List Task ⊕ Unit)}
    (hstack : ∀ task ∈ stack, IsRooted task.relative ↔ rooted) (hgathered : Kept gathered)
    (h : walk.follow host visit stack (gathered, state) = some (result, gathered', last)) :
    Kept gathered' ∧ ∀ following, result = .ok (.inl following) →
      ∀ task ∈ following, IsRooted task.relative ↔ rooted := by
  cases stack with
  | nil =>
      cases h
      exact ⟨hgathered, by simp⟩
  | cons task rest =>
      obtain ⟨hfirst, hrest⟩ := List.forall_mem_cons.1 hstack
      obtain ⟨⟨found, tasks⟩, middle, hdone, h⟩ | ⟨failure, middle, -, heq⟩ :=
        Act.beside_bind_eq_some_iff.1 h
      · obtain ⟨hfound, htasks⟩ := (replaces_of_perform (hhost _) hdone).startsLike hfirst
        have hall : ∀ other ∈ tasks ++ rest, IsRooted other.relative ↔ rooted :=
          List.forall_mem_append.2 ⟨htasks, hrest⟩
        cases found with
        | none =>
            cases h
            exact ⟨hgathered, by simpa using hall⟩
        | some entry =>
            have hentry := hfound entry rfl
            obtain ⟨_, ⟨gathered₂, after⟩, hseen, h⟩ | ⟨failure, ⟨gathered₂, after⟩, hseen, heq⟩ :=
              Act.bind_eq_some_iff.1 h
            · cases h
              exact ⟨hvisit hentry hgathered hseen, by simpa using hall⟩
            · cases heq
              exact ⟨hvisit hentry hgathered hseen, by simp⟩
      · cases heq
        exact ⟨hgathered, by simp⟩

theorem Keeps.loop {walk : Walk σ} {stack : List Task} {gathered gathered' : γ} {state last : σ}
    {result : Except Failure Unit}
    (hstack : ∀ task ∈ stack, IsRooted task.relative ↔ rooted) (hgathered : Kept gathered)
    (h : Act.Step.loop (walk.follow host visit) stack (gathered, state) =
      some (result, gathered', last)) : Kept gathered' := by
  rw [Act.loop_eq_some_iff] at h
  generalize houtcome : (result, gathered', last) = outcome at h
  generalize hpair : (gathered, state) = pair at h
  induction h generalizing gathered state with
  | value hstep | failure hstep =>
      cases hpair
      cases houtcome
      exact (Keeps.follow hhost hvisit hstack hgathered hstep).1
  | @next _ _ _ middle _ hstep _ ih =>
      obtain ⟨gathered₁, middle⟩ := middle
      cases hpair
      obtain ⟨hkept, hfollowing⟩ := Keeps.follow hhost hvisit hstack hgathered hstep
      exact ih (hfollowing _ rfl) hkept houtcome rfl

omit hhost in
theorem Keeps.forM {list : PathList} {members : List String} {gathered gathered' : γ}
    {state last : σ} {result : Except Failure Unit}
    (hmembers : ∀ member ∈ members, IsRooted member ↔ rooted) (hgathered : Kept gathered)
    (h : (members.forM fun relative => do
      if ← (host.exists? (list.entryOf relative).path).beside then visit (list.entryOf relative))
        (gathered, state) = some (result, gathered', last)) : Kept gathered' := by
  induction members generalizing gathered state with
  | nil =>
      cases h
      exact hgathered
  | cons member members ih =>
      obtain ⟨hfirst, hrest⟩ := List.forall_mem_cons.1 hmembers
      have hkept {result : Except Failure Unit} {gathered₂ : γ} {after : σ}
          (h : (do if ← (host.exists? (list.entryOf member).path).beside then
              visit (list.entryOf member) : Act (γ × σ) Unit) (gathered, state) =
            some (result, gathered₂, after)) : Kept gathered₂ := by
        obtain ⟨found, middle, -, h⟩ | ⟨failure, middle, -, heq⟩ :=
          Act.beside_bind_eq_some_iff.1 h
        · cases found with
          | true => exact hvisit hfirst hgathered h
          | false =>
              cases h
              exact hgathered
        · cases heq
          exact hgathered
      obtain ⟨_, ⟨gathered₂, after⟩, hmember, h⟩ | ⟨failure, ⟨gathered₂, after⟩, hmember, heq⟩ :=
        Act.bind_eq_some_iff.1 h
      · exact ih hrest (hkept hmember) h
      · cases heq
        exact hkept hmember

theorem Keeps.visitAll {collection : Collection σ} {basepath : String} {bottomUp : Bool}
    {gathered gathered' : γ} {state last : σ} {result : Except Failure Unit}
    (hcollection : collection.StartsLike basepath) (hrooted : IsRooted basepath ↔ rooted)
    (hgathered : Kept gathered)
    (h : collection.visitAll host basepath bottomUp visit (gathered, state) =
      some (result, gathered', last)) : Kept gathered' := by
  cases collection with
  | selected selection =>
      exact Keeps.loop hhost hvisit (by simpa [start, Task.relative] using hrooted) hgathered h
  | listed list =>
      have hmembers : ∀ member ∈ list.ordered bottomUp, IsRooted member ↔ rooted := by
        intro member hmember
        exact (hcollection member (PathList.mem_of_mem_ordered hmember)).trans hrooted
      exact Keeps.forM hvisit hmembers hgathered h

end

end Walk

/-! ## Values that are asked for -/

theorem Sequence.value_of_pickMember {σ α : Type} {host : Host σ} {sequence : Sequence σ α}
    {list : PathList} {member : String} {value : α} {state last : σ}
    (h : sequence.pickMember host list member state = some (.ok (some value), last)) :
    ∃ before, sequence.value (list.entryOf member) before = some (.ok (some value), last) := by
  obtain ⟨found, middle, -, hpick⟩ := Act.bind_eq_ok_iff.1 h
  cases found with
  | true => exact value_of_pick hpick
  | false => cases hpick

/-- The values that an iteration gives one after the other.  Anything may change before the next one
is asked for, as long as the collection still reports what starts like the base path. -/
inductive Iteration.Draws {σ α : Type} : Iteration σ α → List α → Prop
  | nil {iteration : Iteration σ α} : Draws iteration []
  | cons {iteration following : Iteration σ α} {value : α} {values : List α} {host : Host σ}
      {collection : Collection σ} {state last : σ} :
      host.IsTidy → collection.StartsLike iteration.sequence.basepath →
        iteration.next host collection state = some (.ok (some value, following), last) →
          Draws following values → Draws iteration (value :: values)

namespace Iteration

variable {σ α : Type}

def StartsLike (iteration : Iteration σ α) : Prop :=
  match iteration.position with
  | .walking tasks => ∀ task ∈ tasks,
      IsRooted task.relative ↔ IsRooted iteration.sequence.basepath
  | .listing members => ∀ member ∈ members, IsRooted member ↔ IsRooted iteration.sequence.basepath
  | .fresh | .over => True

theorem StartsLike.entered {collection : Collection σ} {iteration : Iteration σ α}
    (h : iteration.StartsLike)
    (hcollection : collection.StartsLike iteration.sequence.basepath) :
    StartsLike ⟨iteration.sequence, iteration.entered collection⟩ := by
  unfold Iteration.entered
  split
  · simp [StartsLike, Walk.start, Walk.Task.relative]
  · intro member hmember
    exact hcollection member (PathList.mem_of_mem_ordered hmember)
  · exact h

theorem value_of_nextListed {host : Host σ} {sequence : Sequence σ α} {list : PathList}
    {members rest : List String} {value : α} {state last : σ}
    (h : nextListed host sequence list members state = some (.ok (some value, rest), last)) :
    ∃ member, List.Sublist (member :: rest) members ∧ ∃ before after,
      sequence.value (list.entryOf member) before = some (.ok (some value), after) := by
  induction members generalizing state with
  | nil => cases h
  | cons member members ih =>
      rw [nextListed_cons] at h
      obtain ⟨found, middle, hmember, h⟩ := Act.bind_eq_ok_iff.1 h
      cases found with
      | some found =>
          cases h
          obtain ⟨before, hvalue⟩ := Sequence.value_of_pickMember hmember
          exact ⟨member, .refl _, before, _, hvalue⟩
      | none =>
          obtain ⟨other, hsublist, hvalue⟩ := ih h
          exact ⟨other, hsublist.cons member, hvalue⟩

theorem StartsLike.next {host : Host σ} {collection : Collection σ}
    {iteration following : Iteration σ α} {value : α} {state last : σ} (hhost : host.IsTidy)
    (hcollection : collection.StartsLike iteration.sequence.basepath)
    (hiteration : iteration.StartsLike)
    (h : iteration.next host collection state = some (.ok (some value, following), last)) :
    (∃ entry before after,
      iteration.sequence.value entry before = some (.ok (some value), after) ∧
        (IsRooted entry.relative ↔ IsRooted iteration.sequence.basepath)) ∧
      following.StartsLike ∧ following.sequence = iteration.sequence := by
  have hstart := hiteration.entered hcollection
  cases collection with
  | selected selection =>
      obtain ⟨stack, rest, entries, entry, hentered, rfl, hcourse, before, after, hvalue⟩ :=
        next_course hhost h
      rw [hentered] at hstart
      obtain ⟨hentries, hrest⟩ := hcourse.startsLike hstart
      exact ⟨⟨entry, before, after, hvalue, hentries entry (by simp)⟩, hrest, rfl⟩
  | listed list =>
      unfold Iteration.next at h
      cases hentered : iteration.entered (.listed list) with
      | listing members =>
          simp only [hentered] at h
          obtain ⟨⟨found, rest⟩, middle, hnext, h⟩ := Act.bind_eq_ok_iff.1 h
          cases h
          obtain ⟨member, hsublist, before, after, hvalue⟩ := value_of_nextListed hnext
          obtain ⟨hmember, hrest⟩ := List.cons_subset.1 hsublist.subset
          rw [hentered] at hstart
          exact ⟨⟨_, before, after, hvalue, hstart member hmember⟩,
            fun other hother => hstart other (hrest hother), rfl⟩
      | _ =>
          simp only [hentered] at h
          cases h

theorem Draws.startsLike {label : α → String} {iteration : Iteration σ α} {values : List α}
    (h : iteration.Draws values) (hiteration : iteration.StartsLike)
    (hlabel : ∀ entry before value after,
      iteration.sequence.value entry before = some (.ok (some value), after) →
        label value = entry.relative) :
    ∀ value ∈ values, IsRooted (label value) ↔ IsRooted iteration.sequence.basepath := by
  induction h with
  | nil => exact List.forall_mem_nil _
  | cons hhost hcollection hnext _ ih =>
      obtain ⟨⟨entry, before, after, hvalue, hentry⟩, hfollowing, hsame⟩ :=
        hiteration.next hhost hcollection hnext
      rw [hsame] at ih
      refine List.forall_mem_cons.2 ⟨?_, ih hfollowing hlabel⟩
      rw [hlabel _ _ _ _ hvalue]
      exact hentry

end Iteration

end FileSelection
