import FileSelection.Proofs.Alike
import FileSelection.Proofs.Glob.Prefixed
import FileSelection.Proofs.Selection.Globs
import FileSelection.Proofs.Walk.Steps
import Mathlib.Data.List.Forall2

/-!
# Walks that are moved below a base path

A walk with a base path takes the same steps as the walk without one, as long as both decide alike
on corresponding entries.  Rules that are made of globs do so when the base path and a slash are put
before the patterns.
-/

namespace FileSelection

open FileSelection.Path

def Entry.below (base : String) (entry : Entry) : Entry :=
  ⟨entry.path, base ++ "/" ++ entry.relative⟩

theorem Path.joinRelative_ne_empty {name : String} (hname : name ≠ "") (above : String) :
    joinRelative above name ≠ "" := by
  rw [Ne, ← String.toList_inj, toList_joinRelative]
  split
  · simpa using hname
  · simp

section

variable {base relative : String}

theorem Walk.entryOf_base (hbase : base ≠ "") (directory : Path) (name : String) :
    entryOf directory base name = (entryOf directory "" name).below base := by
  have hrelative : joinRelative base name = base ++ "/" ++ joinRelative "" name := by
    simp [← String.toList_inj, toList_joinRelative, hbase]
  rw [entryOf, hrelative]
  rfl

theorem Walk.entryOf_below (hrelative : relative ≠ "") (directory : Path) (name : String) :
    entryOf directory (base ++ "/" ++ relative) name =
      (entryOf directory relative name).below base := by
  have hne : base ++ "/" ++ relative ≠ "" := by simp
  have hjoined : joinRelative (base ++ "/" ++ relative) name =
      base ++ "/" ++ joinRelative relative name := by
    rw [← String.toList_inj, toList_joinRelative, if_neg hne]
    simp [toList_joinRelative, hrelative]
  rw [entryOf, hjoined]
  rfl

end

/-! ## Rules -/

section

variable {σ : Type} {base : String}

def Rule.Moves (base : String) (rule moved : Rule σ) : Prop :=
  ∀ host entry, moved.holds host (entry.below base) = rule.holds host entry

structure RuleSet.Moves (base : String) (rules moved : RuleSet σ) : Prop where
  includes : List.Forall₂ (Rule.Moves base) rules.includes moved.includes
  excludes : List.Forall₂ (Rule.Moves base) rules.excludes moved.excludes
  prunes : List.Forall₂ (Rule.Moves base) rules.prunes moved.prunes

theorem Rule.moves_ofGlobs (hbase : '*' ∉ base.toList) (caseSensitive : Bool)
    {patterns : List String} (hpatterns : ∀ pattern ∈ patterns, pattern ≠ "") :
    List.Forall₂ (Rule.Moves (σ := σ) base) (ofGlobs caseSensitive patterns)
      (ofGlobs caseSensitive (patterns.map (base ++ "/" ++ ·))) := by
  unfold ofGlobs
  rw [List.isEmpty_map]
  cases patterns.isEmpty with
  | true => exact .nil
  | false =>
      refine .cons (fun host entry => ?_) .nil
      simp only [holds, Matcher.needsKind, Matcher.accepts, List.any_map, Function.comp_def,
        Entry.below, Glob.any_accepts_prefixed hbase caseSensitive hpatterns]

theorem Rule.Moves.anyHolds {rules moved : List (Rule σ)}
    (h : List.Forall₂ (Rule.Moves base) rules moved) (host : Host σ) (entry : Entry) :
    Rule.anyHolds host moved (entry.below base) = Rule.anyHolds host rules entry := by
  induction h with
  | nil => rfl
  | cons hrule _ ih => rw [Rule.anyHolds, Rule.anyHolds, hrule host entry, ih]

namespace RuleSet.Moves

variable {rules moved : RuleSet σ}

theorem accepts (h : rules.Moves base moved) (host : Host σ) (entry : Entry) :
    moved.accepts host (entry.below base) = rules.accepts host entry := by
  have hempty : moved.includes.isEmpty = rules.includes.isEmpty := by
    rw [Bool.eq_iff_iff, List.isEmpty_iff_length_eq_zero, List.isEmpty_iff_length_eq_zero,
      h.includes.length_eq]
  rw [RuleSet.accepts, RuleSet.accepts, hempty, Rule.Moves.anyHolds h.includes,
    Rule.Moves.anyHolds h.excludes]

theorem mayDescend (h : rules.Moves base moved) (host : Host σ) (entry : Entry) :
    moved.mayDescend host (entry.below base) = rules.mayDescend host entry := by
  rw [RuleSet.mayDescend, RuleSet.mayDescend, Rule.Moves.anyHolds h.prunes]

end RuleSet.Moves

end

/-! ## Steps -/

namespace Walk

section

variable {σ : Type} {host : Host σ} {base : String}

/-- Both walks decide alike, the second one on the entries below the base. -/
structure Moves (base : String) (walk moved : Walk σ) : Prop where
  accept : ∀ entry, moved.accept (entry.below base) = walk.accept entry
  mayDescend : ∀ entry, moved.mayDescend (entry.below base) = walk.mayDescend entry
  bottomUp : moved.bottomUp = walk.bottomUp
  strict : moved.strict = walk.strict
  followLinks : moved.followLinks = walk.followLinks

inductive Task.Moves (base : String) : Task → Task → Prop
  | start {directory : Path} : Moves base (.enter directory "") (.enter directory base)
  | enter {directory : Path} {relative : String} : relative ≠ "" →
      Moves base (.enter directory relative) (.enter directory (base ++ "/" ++ relative))
  | visit {entry : Entry} : entry.relative ≠ "" → Moves base (.visit entry) (.visit (entry.below base))
  | descend {entry : Entry} : entry.relative ≠ "" →
      Moves base (.descend entry) (.descend (entry.below base))
  | report {entry : Entry} : Moves base (.report entry) (.report (entry.below base))

def StepMoves (base : String) (first second : Option Entry × List Task) : Prop :=
  second.1 = first.1.map (Entry.below base) ∧ List.Forall₂ (Task.Moves base) first.2 second.2

theorem entersInto_moved {walk moved : Walk σ} (h : walk.Moves base moved) (entry : Entry) :
    moved.entersInto host (entry.below base) = walk.entersInto host entry := by
  simp only [entersInto, isDescendable, h.followLinks, h.mayDescend]
  rfl

theorem alike_enter {walk moved : Walk σ} (hhost : host.IsTidy) (h : walk.Moves base moved)
    {directory : Path} {relative relative' : String}
    (hentry : ∀ name, entryOf directory relative' name =
      (entryOf directory relative name).below base) :
    Act.Alike Eq (StepMoves base) (walk.perform host (.enter directory relative))
      (moved.perform host (.enter directory relative')) := by
  simp only [perform, h.strict]
  apply (Act.Alike.refl (listNames host walk.strict directory)).given.bind
  rintro names _ ⟨rfl, state, last, hlisted⟩
  apply Act.Alike.pure
  obtain ⟨found, rfl, hfound⟩ := listNames_eq_ok (hhost state) hlisted
  refine ⟨rfl, ?_⟩
  rw [List.forall₂_map_left_iff, List.forall₂_map_right_iff, List.forall₂_same]
  intro name hname
  have hname := hfound.2 name (List.mem_mergeSort.1 hname)
  rw [hentry]
  exact .visit (joinRelative_ne_empty hname.nonempty relative)

theorem alike_perform {walk moved : Walk σ} (hhost : host.IsTidy) (hbase : base ≠ "")
    (h : walk.Moves base moved) {task task' : Task} (htask : Task.Moves base task task') :
    Act.Alike Eq (StepMoves base) (walk.perform host task) (moved.perform host task') := by
  cases htask with
  | start => exact alike_enter hhost h (entryOf_base hbase _)
  | enter hrelative => exact alike_enter hhost h (entryOf_below hrelative _)
  | visit hrelative =>
      apply Act.Alike.pure
      refine ⟨rfl, ?_⟩
      rw [h.bottomUp]
      cases walk.bottomUp with
      | true => exact .cons (.descend hrelative) (.cons .report .nil)
      | false => exact .cons .report (.cons (.descend hrelative) .nil)
  | descend hrelative =>
      simp only [perform, entersInto_moved h]
      apply (Act.Alike.refl _).bind
      rintro enters _ rfl
      cases enters with
      | true => exact .pure ⟨rfl, .cons (.enter hrelative) .nil⟩
      | false => exact .pure ⟨rfl, .nil⟩
  | report =>
      simp only [perform, h.accept]
      apply (Act.Alike.refl _).bind
      rintro accepted _ rfl
      cases accepted with
      | true => exact .pure ⟨rfl, .nil⟩
      | false => exact .pure ⟨rfl, .nil⟩

end

/-! ## Runs -/

section

variable {σ α β γ δ : Type} {host : Host σ} {base : String} {walk moved : Walk σ}
  (hhost : host.IsTidy) (hbase : base ≠ "") (hwalk : walk.Moves base moved)

include hhost hbase hwalk

theorem alike_advance {pick : Entry → Act σ (Option α)} {pick' : Entry → Act σ (Option β)}
    {change : α → β} (hpick : ∀ entry, pick' (entry.below base) = Option.map change <$> pick entry)
    {stack stack' : List Task} (hstack : List.Forall₂ (Task.Moves base) stack stack') :
    Act.Alike Eq (Sum.LiftRel (List.Forall₂ (Task.Moves base)) fun first second =>
        second.1 = first.1.map change ∧ List.Forall₂ (Task.Moves base) first.2 second.2)
      (walk.advance host pick stack) (moved.advance host pick' stack') := by
  cases hstack with
  | nil => exact .pure (.inr ⟨rfl, .nil⟩)
  | cons htask hrest =>
      apply (alike_perform hhost hbase hwalk htask).bind
      rintro ⟨found, tasks⟩ ⟨found', tasks'⟩ ⟨hfound, htasks⟩
      obtain rfl : found' = found.map (Entry.below base) := hfound
      have hfollowing := List.rel_append htasks hrest
      cases found with
      | none => exact .pure (.inl hfollowing)
      | some entry =>
          have hvalue := Act.Alike.map_right (pick entry) (Option.map change)
          rw [← hpick] at hvalue
          apply hvalue.bind
          rintro value _ rfl
          cases value with
          | none => exact .pure (.inl hfollowing)
          | some value => exact .pure (.inr ⟨rfl, hfollowing⟩)

theorem alike_next {pick : Entry → Act σ (Option α)} {pick' : Entry → Act σ (Option β)}
    {change : α → β} (hpick : ∀ entry, pick' (entry.below base) = Option.map change <$> pick entry)
    {stack stack' : List Task} (hstack : List.Forall₂ (Task.Moves base) stack stack') :
    Act.Alike Eq (fun first second =>
        second.1 = first.1.map change ∧ List.Forall₂ (Task.Moves base) first.2 second.2)
      (walk.next host pick stack) (moved.next host pick' stack') :=
  .loop (fun _ _ hplaces => alike_advance hhost hbase hwalk hpick hplaces) hstack

variable {gathers : γ → δ → Prop} {visit : Entry → Act (γ × σ) Unit}
  {visit' : Entry → Act (δ × σ) Unit}
  (hvisit : ∀ entry, Act.Alike (Act.Both gathers Eq) Eq (visit entry) (visit' (entry.below base)))

include hvisit

theorem alike_follow {stack stack' : List Task}
    (hstack : List.Forall₂ (Task.Moves base) stack stack') :
    Act.Alike (Act.Both gathers Eq) (Sum.LiftRel (List.Forall₂ (Task.Moves base)) Eq)
      (walk.follow host visit stack) (moved.follow host visit' stack') := by
  cases hstack with
  | nil => exact .pure (.inr rfl)
  | cons htask hrest =>
      apply (alike_perform hhost hbase hwalk htask).beside.bind
      rintro ⟨found, tasks⟩ ⟨found', tasks'⟩ ⟨hfound, htasks⟩
      obtain rfl : found' = found.map (Entry.below base) := hfound
      have hfollowing := List.rel_append htasks hrest
      cases found with
      | none => exact .pure (.inl hfollowing)
      | some entry =>
          apply (hvisit entry).bind
          rintro _ _ rfl
          exact .pure (.inl hfollowing)

theorem alike_forEach (directory : Path) :
    Act.Alike (Act.Both gathers Eq) Eq (walk.forEach host visit directory "")
      (moved.forEach host visit' directory base) :=
  .loop (fun _ _ hplaces => alike_follow hhost hbase hwalk hvisit hplaces) (.cons .start .nil)

end

end Walk

end FileSelection
