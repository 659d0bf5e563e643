import FileSelection.Ignore.Standard
import FileSelection.Proofs.Sequence.Interleaving

/-!
# Settings that change after a sequence is made

A sequence that was made from a selection visits the selection with the rules that it has by then,
but with the base path that it had when the sequence was made.  A path list has no base path, and
its sequences always show its present members.
-/

namespace FileSelection

variable {σ : Type}

/-! ## Changes of a selection -/

namespace Selection

inductive Change (σ : Type) where
  | includes (items : List (RuleItem σ))
  | excludes (items : List (RuleItem σ))
  | prunes (items : List (RuleItem σ))
  | excludesFrom (file : Path)
  | basepath (text : String)
  | filesOnly
  | directoriesOnly

def change [Ignore.Library] (host : Host σ) (selection : Selection σ) :
    Change σ → Act σ (Selection σ)
  | .includes items => Act.ofExcept (selection.includes items)
  | .excludes items => Act.ofExcept (selection.excludes items)
  | .prunes items => Act.ofExcept (selection.prunes items)
  | .excludesFrom file => selection.excludesFrom host file
  | .basepath text => pure (selection.withBasepath text)
  | .filesOnly => pure selection.filesOnly
  | .directoriesOnly => pure selection.directoriesOnly

def configure [Ignore.Library] (host : Host σ) (selection : Selection σ) :
    List (Change σ) → Act σ (Selection σ)
  | [] => pure selection
  | change :: changes => do
      match ← (selection.change host change).attempt with
      | .ok changed => changed.configure host changes
      | .error _ => selection.configure host changes

def Change.basepathAfter (basepath : String) : Change σ → String
  | .basepath text => text
  | _ => basepath

/-- Nothing but the rules differs, and the base path is the one that is given. -/
def IsReconfigured (selection changed : Selection σ) (basepath : String) : Prop :=
  changed = { selection with basepath, rules := changed.rules }

variable {host : Host σ} {selection changed : Selection σ} {state last : σ}

theorem isReconfigured_of_compile [Ignore.Library] {items : List (RuleItem σ)}
    {update : List (Rule σ) → RuleSet σ}
    (h : Act.ofExcept (do return { selection with rules := update (← selection.compile items) })
      state = some (.ok changed, last)) :
    selection.IsReconfigured changed selection.basepath := by
  cases hcompile : selection.compile items with
  | error failure =>
      rw [hcompile] at h
      cases h
  | ok rules =>
      rw [hcompile] at h
      cases h
      rfl

theorem isReconfigured_of_change [Ignore.Library] {change : Change σ}
    (h : selection.change host change state = some (.ok changed, last)) :
    selection.IsReconfigured changed (change.basepathAfter selection.basepath) := by
  cases change with
  | includes items | excludes items | prunes items => exact isReconfigured_of_compile h
  | excludesFrom file =>
      obtain ⟨rules, middle, -, hrest⟩ := Act.bind_eq_ok_iff.1 h
      cases rules with
      | none =>
          cases hrest
          rfl
      | some rules =>
          cases hrest
          rfl
  | basepath text | filesOnly | directoriesOnly =>
      cases h
      rfl

theorem basepathAfter_of_failure [Ignore.Library] {change : Change σ} {failure : Failure}
    (h : selection.change host change state = some (.error failure, last)) (basepath : String) :
    change.basepathAfter basepath = basepath := by
  cases change with
  | basepath text => cases h
  | includes items | excludes items | prunes items | excludesFrom file | filesOnly
  | directoriesOnly => rfl

theorem IsReconfigured.trans {following : Selection σ} {basepath basepath' : String}
    (h : selection.IsReconfigured changed basepath)
    (hfollowing : changed.IsReconfigured following basepath') :
    selection.IsReconfigured following basepath' := by
  unfold IsReconfigured at *
  rw [hfollowing, h]

theorem isReconfigured_of_configure [Ignore.Library] {changes : List (Change σ)}
    (h : selection.configure host changes state = some (.ok changed, last)) :
    selection.IsReconfigured changed (changes.foldl Change.basepathAfter selection.basepath) := by
  induction changes generalizing selection state with
  | nil =>
      cases h
      rfl
  | cons change changes ih =>
      obtain ⟨result, middle, hattempt, hrest⟩ := Act.bind_eq_ok_iff.1 h
      have hchange := Act.attempt_eq_ok_iff.1 hattempt
      cases result with
      | ok following =>
          have hfollowing := isReconfigured_of_change hchange
          have hbasepath : following.basepath = change.basepathAfter selection.basepath := by
            rw [hfollowing]
          have hlater := ih hrest
          rw [hbasepath] at hlater
          exact hfollowing.trans hlater
      | error failure =>
          rw [List.foldl_cons, basepathAfter_of_failure hchange]
          exact ih hrest

end Selection

/-! ## Reading a sequence after a change -/

/-- The two sequences give the same values in the same way, read at once or step by step. -/
structure Sequence.ReadsLike {α : Type} (host : Host σ) (sequence : Sequence σ α)
    (collection : Collection σ) (other : Sequence σ α) (collection' : Collection σ) : Prop where
  forEach : ∀ (β : Type) (visit : α → Act (β × σ) Unit),
    sequence.forEach host collection visit = other.forEach host collection' visit
  toList : sequence.toList host collection = other.toList host collection'
  next : ∀ position, (⟨sequence, position⟩ : Iteration σ α).next host collection =
    (⟨other, position⟩ : Iteration σ α).next host collection'

section

variable {α : Type} {host : Host σ}

theorem Sequence.ReadsLike.of_eq {sequence other : Sequence σ α} {collection : Collection σ}
    (h : sequence = other) : sequence.ReadsLike host collection other collection := by
  subst h
  exact ⟨fun _ _ => rfl, rfl, fun _ => rfl⟩

theorem Sequence.readsLike_withBasepath (host : Host σ) (sequence : Sequence σ α)
    (selection : Selection σ) (basepath : String) :
    sequence.ReadsLike host (.selected selection) sequence
      (.selected (selection.withBasepath basepath)) where
  forEach _ _ := rfl
  toList := rfl
  next position := by
    cases position with
    | _ => rfl

/-- After any changes, a stored sequence of a selection gives what a new sequence would give if the
base path were still what it was when the sequence was stored; the new sequence is the same one if
and only if it is.  A stored sequence of a path list always gives what a new one gives. -/
theorem stored_sequence_keeps_only_basepath [Ignore.Library] (host : Host σ)
    (value : Entry → Act σ (Option α)) (bottomUp : Bool) (only : Option (Rule σ)) :
    (∀ (selection configured : Selection σ) (changes : List (Selection.Change σ))
        (before after : σ),
      selection.configure host changes before = some (.ok configured, after) →
        let stored := (Collection.selected selection).collect value bottomUp only
        let renewed := (Collection.selected configured).collect value bottomUp only
        let unmoved := configured.withBasepath selection.basepath
        let basepath := changes.foldl Selection.Change.basepathAfter selection.basepath
        selection.IsReconfigured configured basepath ∧
          stored.ReadsLike host (.selected configured)
            ((Collection.selected unmoved).collect value bottomUp only) (.selected unmoved) ∧
          (basepath = selection.basepath →
            stored.ReadsLike host (.selected configured) renewed (.selected configured)) ∧
          (stored = renewed ↔ basepath = selection.basepath)) ∧
    ∀ (list : PathList) (additions : List (List String)),
      let configured := Collection.listed (additions.foldl PathList.includes list)
      ((Collection.listed list).collect value bottomUp only).ReadsLike host configured
        (configured.collect value bottomUp only) configured := by
  constructor
  · intro selection configured changes before after h stored renewed unmoved basepath
    have hconfigured := Selection.isReconfigured_of_configure h
    have hbasepath : configured.basepath = basepath := by rw [hconfigured]
    have hsame : stored = renewed ↔ basepath = selection.basepath := by
      constructor
      · intro heq
        exact hbasepath.symm.trans (congrArg Sequence.basepath heq).symm
      · intro heq
        show (⟨selection.basepath, _, _, _⟩ : Sequence σ α) = ⟨configured.basepath, _, _, _⟩
        rw [hbasepath, heq]
    exact ⟨hconfigured, Sequence.readsLike_withBasepath host stored configured selection.basepath,
      fun heq => .of_eq (hsame.2 heq), hsame⟩
  · intro list additions configured
    exact .of_eq rfl

end

section

variable {session : Session Unit} (hfiles : session.files = .filePair)

include hfiles

theorem toList_pairSelection (basepath : String) :
    (pairRelatives basepath).toList Session.host (.selected (pairSelection basepath)) session =
      some (.ok [Path.joinRelative basepath "a", Path.joinRelative basepath "b"], session) :=
  Sequence.toList_eq_ok_iff.2 (forEach_pairSelection hfiles basepath)

end

theorem pair_sequence_keeps_only_basepath :
    (pairSelection "").configure Session.host [.directoriesOnly, .basepath "p"]
        (Session.ofFiles .filePair ()) =
      some (.ok (pairSelection "p").directoriesOnly, Session.ofFiles .filePair ()) ∧
    (pairRelatives "").toList Session.host (.selected (pairSelection "p").directoriesOnly) =
      (pairRelatives "").toList Session.host (.selected (pairSelection "").directoriesOnly) ∧
    pairRelatives "" ≠ pairRelatives "p" := by
  have hconfigured : (pairSelection "").configure Session.host [.directoriesOnly, .basepath "p"]
      (Session.ofFiles .filePair ()) =
        some (.ok (pairSelection "p").directoriesOnly, Session.ofFiles .filePair ()) := rfl
  obtain ⟨-, hreads, -, hsame⟩ := (stored_sequence_keeps_only_basepath Session.host
    (fun entry => pure (some entry.relative)) false none).1 _ _ _ _ _ hconfigured
  exact ⟨hconfigured, hreads.toList, fun heq => absurd (hsame.1 heq) (by decide)⟩

/-- A new base path does not show in a sequence that was stored before. -/
theorem stored_sequence_misses_new_basepath :
    ¬ ∀ (selection configured : Selection (Session Unit))
        (changes : List (Selection.Change (Session Unit))) (before after : Session Unit),
      selection.configure Session.host changes before = some (.ok configured, after) →
        ((Collection.selected selection).relatives .any false).toList Session.host
            (.selected configured) after =
          ((Collection.selected configured).relatives .any false).toList Session.host
            (.selected configured) after := by
  intro h
  obtain ⟨session, hfiles⟩ : ∃ session : Session Unit, session.files = .filePair :=
    ⟨.ofFiles .filePair (), rfl⟩
  have hequal := h (pairSelection "") (pairSelection "p") [.basepath "p"] session session rfl
  have hmoved := Sequence.readsLike_withBasepath Session.host (pairRelatives "")
    (pairSelection "") "p"
  have hvalues : some (Except.ok ["a", "b"], session) =
      some (Except.ok ["p/a", "p/b"], session) := calc
    _ = (pairRelatives "").toList Session.host (.selected (pairSelection "")) session :=
        (toList_pairSelection hfiles "").symm
    _ = (pairRelatives "").toList Session.host (.selected (pairSelection "p")) session :=
        congrFun hmoved.toList session
    _ = (pairRelatives "p").toList Session.host (.selected (pairSelection "p")) session := hequal
    _ = _ := toList_pairSelection hfiles "p"
  have hlists : ["a", "b"] = ["p/a", "p/b"] :=
    Except.ok.inj (congrArg Prod.fst (Option.some.inj hvalues))
  exact absurd hlists (by decide)

end FileSelection
