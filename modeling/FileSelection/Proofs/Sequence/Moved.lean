import FileSelection.Ignore.Standard
import FileSelection.Proofs.Sequence.Interleaving
import FileSelection.Proofs.Walk.Moved
import FileSelection.Proofs.Walk.Order

/-!
# Selections that are moved below a base path

A selection of globs with a base path, whose patterns all start with the base path and a slash,
reports what the selection with the plain patterns reports.  Only the base path and a slash stand
before each relative path.
-/

namespace FileSelection

open FileSelection.Path

/-! ## Adding patterns -/

section

variable {σ : Type}

theorem RuleSet.Moves.extend {base : String} {rules moved : RuleSet σ} {more more' : List (Rule σ)}
    (h : rules.Moves base moved) (hmore : List.Forall₂ (Rule.Moves base) more more') (role : Role) :
    (rules.extend more role).Moves base (moved.extend more' role) := by
  cases role with
  | includes => exact ⟨List.rel_append h.includes hmore, h.excludes, h.prunes⟩
  | excludes => exact ⟨h.includes, List.rel_append h.excludes hmore, h.prunes⟩
  | prunes => exact ⟨h.includes, h.excludes, List.rel_append h.prunes hmore⟩

namespace Selection

def add [Ignore.Library] (selection : Selection σ) (patterns : List String) :
    RuleSet.Role → Except Failure (Selection σ)
  | .includes => selection.includes (patterns.map .pattern)
  | .excludes => selection.excludes (patterns.map .pattern)
  | .prunes => selection.prunes (patterns.map .pattern)

def addAll [Ignore.Library] (selection : Selection σ) :
    List (RuleSet.Role × List String) → Except Failure (Selection σ)
  | [] => .ok selection
  | (role, patterns) :: additions => do (← selection.add patterns role).addAll additions

def additionsBelow (base : String) (additions : List (RuleSet.Role × List String)) :
    List (RuleSet.Role × List String) :=
  additions.map fun (role, patterns) => (role, patterns.map (base ++ "/" ++ ·))

theorem add_eq [Ignore.Library] {selection : Selection σ} (h : selection.engine = .glob)
    (patterns : List String) (role : RuleSet.Role) :
    selection.add patterns role =
      .ok (selection.extend (Rule.ofGlobs selection.caseSensitive patterns) role) := by
  cases role with
  | includes => exact includes_patterns h patterns
  | excludes => exact excludes_patterns h patterns
  | prunes => exact prunes_patterns h patterns

structure Moves (base : String) (selection moved : Selection σ) : Prop where
  engine : selection.engine = .glob
  basepath : selection.basepath = ""
  same : moved = { selection with basepath := base, rules := moved.rules }
  rules : selection.rules.Moves base moved.rules

namespace Moves

variable {base : String} {selection moved : Selection σ}

theorem add [Ignore.Library] (h : selection.Moves base moved) (hbase : '*' ∉ base.toList)
    {patterns : List String} (hpatterns : ∀ pattern ∈ patterns, pattern ≠ "") (role : RuleSet.Role) :
    ∃ following following', selection.add patterns role = .ok following ∧
      moved.add (patterns.map (base ++ "/" ++ ·)) role = .ok following' ∧
        following.Moves base following' := by
  have hengine : moved.engine = .glob := by rw [h.same, h.engine]
  have hcase : moved.caseSensitive = selection.caseSensitive := by rw [h.same]
  refine ⟨_, _, add_eq h.engine patterns role, add_eq hengine _ role, h.engine, h.basepath, ?_, ?_⟩
  · rw [extend, h.same]
    rfl
  · rw [hcase]
    exact h.rules.extend (Rule.moves_ofGlobs hbase selection.caseSensitive hpatterns) role

theorem addAll [Ignore.Library] (h : selection.Moves base moved) (hbase : '*' ∉ base.toList)
    {additions : List (RuleSet.Role × List String)}
    (hadditions : ∀ addition ∈ additions, ∀ pattern ∈ addition.2, pattern ≠ "") :
    ∃ plain below, selection.addAll additions = .ok plain ∧
      moved.addAll (additionsBelow base additions) = .ok below ∧ plain.Moves base below := by
  induction additions generalizing selection moved with
  | nil => exact ⟨selection, moved, rfl, rfl, h⟩
  | cons addition additions ih =>
      obtain ⟨role, patterns⟩ := addition
      obtain ⟨hpatterns, hrest⟩ := List.forall_mem_cons.1 hadditions
      obtain ⟨following, following', hadd, hadd', hmoves⟩ := h.add hbase hpatterns role
      obtain ⟨plain, below, hplain, hbelow, hlast⟩ := ih hmoves hrest
      refine ⟨plain, below, ?_, ?_, hlast⟩
      · rw [Selection.addAll, hadd]
        exact hplain
      · rw [additionsBelow, List.map_cons, Selection.addAll, hadd']
        exact hbelow

theorem walk (h : selection.Moves base moved) (host : Host σ) (bottomUp : Bool) :
    (selection.walk host bottomUp).Moves base (moved.walk host bottomUp) where
  accept entry := h.rules.accepts host entry
  mayDescend entry := h.rules.mayDescend host entry
  bottomUp := rfl
  strict := by rw [h.same]; rfl
  followLinks := by rw [h.same]; rfl

theorem directory (h : selection.Moves base moved) : moved.directory = selection.directory := by
  rw [h.same]

end Moves

end Selection

end

/-! ## Reading at once -/

/-- The second sequence makes from the entries below the base what the first one makes without it,
changed by a function. -/
structure Sequence.Moves {σ α β : Type} (base : String) (host : Host σ) (change : α → β)
    (sequence : Sequence σ α) (moved : Sequence σ β) : Prop where
  plain : sequence.basepath = ""
  below : moved.basepath = base
  bottomUp : moved.bottomUp = sequence.bottomUp
  pick : ∀ entry, moved.pick host (entry.below base) = Option.map change <$> sequence.pick host entry

/-- In each of the three ways to read it, the second sequence gives the changed values of the first
one, and ends like it. -/
structure Sequence.ReadsChanged {σ α β : Type} (host : Host σ) (change : α → β)
    (sequence : Sequence σ α) (collection : Collection σ) (moved : Sequence σ β)
    (collection' : Collection σ) : Prop where
  forEach : ∀ (γ : Type) (visit : β → Act (γ × σ) Unit),
    moved.forEach host collection' visit =
      sequence.forEach host collection fun value => visit (change value)
  toList : moved.toList host collection' = List.map change <$> sequence.toList host collection
  take : ∀ count,
    (fun reader => (reader.taken, reader.ending)) <$>
        (Reader.start moved).take host collection' count =
      (fun reader => (reader.taken.map change, reader.ending)) <$>
        (Reader.start sequence).take host collection count

section

variable {σ α β : Type} {host : Host σ} {base : String} {selection selection' : Selection σ}
  {change : α → β} {sequence : Sequence σ α} {moved : Sequence σ β}

theorem Sequence.Moves.collect {value : Entry → Act σ (Option α)} {value' : Entry → Act σ (Option β)}
    (hplain : selection.basepath = "") (hbelow : selection'.basepath = base)
    (hvalue : ∀ entry, value' (entry.below base) = Option.map change <$> value entry)
    (selected : Selected) (bottomUp : Bool) :
    ((Collection.selected selection).collect value bottomUp selected.rule?).Moves base host change
      ((Collection.selected selection').collect value' bottomUp selected.rule?) where
  plain := hplain
  below := hbelow
  bottomUp := rfl
  pick entry := by
    have hkept (test : Act σ Bool) :
        (do if ← test then value' (entry.below base) else return none) =
          Option.map change <$> (do if ← test then value entry else return none) := by
      rw [map_bind]
      apply bind_congr
      intro kept
      cases kept with
      | true => exact hvalue entry
      | false => rfl
    cases selected with
    | any => exact hkept (pure true)
    | files => exact hkept (host.isFile entry.path)
    | directories => exact hkept (host.isDirectory entry.path)

variable (hhost : host.IsTidy) (hbase : base ≠ "") (hselection : selection.Moves base selection')
  (hsequence : sequence.Moves base host change moved)

include hhost hbase hselection hsequence

theorem Sequence.Moves.alike_forEach {γ δ : Type} {gathers : γ → δ → Prop}
    {visit : α → Act (γ × σ) Unit} {visit' : β → Act (δ × σ) Unit}
    (hvisit : ∀ value, Act.Alike (Act.Both gathers Eq) Eq (visit value) (visit' (change value))) :
    Act.Alike (Act.Both gathers Eq) Eq (sequence.forEach host (.selected selection) visit)
      (moved.forEach host (.selected selection') visit') := by
  simp only [forEach, Collection.visitAll, hsequence.plain, hsequence.below, hsequence.bottomUp,
    hselection.directory]
  apply Walk.alike_forEach hhost hbase (hselection.walk host sequence.bottomUp)
  intro entry
  rw [hsequence.pick]
  apply (Act.Alike.map_right (sequence.pick host entry) (Option.map change)).beside.bind
  rintro value _ rfl
  cases value with
  | none => exact .pure rfl
  | some value => exact hvisit value

theorem Sequence.Moves.forEach {γ : Type} (visit : β → Act (γ × σ) Unit) :
    moved.forEach host (.selected selection') visit =
      sequence.forEach host (.selected selection) fun value => visit (change value) := by
  have halike : Act.Alike (Act.Both Eq Eq) Eq
      (sequence.forEach host (.selected selection) fun value => visit (change value))
      (moved.forEach host (.selected selection') visit) := by
    apply hsequence.alike_forEach hhost hbase hselection
    intro value
    rw [Act.both_eq]
    apply Act.Alike.refl
  rw [Act.both_eq] at halike
  exact halike.eq.symm

theorem Sequence.Moves.toList :
    moved.toList host (.selected selection') =
      List.map change <$> sequence.toList host (.selected selection) := by
  apply Act.Alike.eq_map
  have halike : Act.Alike (Act.Both (fun gathered gathered' => gathered' = List.map change gathered)
      Eq) Eq (sequence.forEach host (.selected selection) fun value => Act.gather (value :: ·))
      (moved.forEach host (.selected selection') fun value => Act.gather (value :: ·)) := by
    apply hsequence.alike_forEach hhost hbase hselection
    intro value
    apply Act.Alike.gather
    rintro gathered _ rfl
    rfl
  have hgathered : Act.Alike Eq (fun gathered gathered' => gathered' = List.map change gathered)
      (Act.gathering [] _) (Act.gathering [] _) := .gathering rfl halike
  apply hgathered.map
  rintro gathered _ rfl
  exact List.map_reverse.symm

/-! ## Reading value by value -/

omit hhost hbase hselection hsequence

inductive Iteration.Position.Moves (base : String) : Iteration.Position → Iteration.Position → Prop
  | fresh : Moves base .fresh .fresh
  | walking {tasks tasks' : List Walk.Task} : List.Forall₂ (Walk.Task.Moves base) tasks tasks' →
      Moves base (.walking tasks) (.walking tasks')
  | ended : Moves base .over .over

structure Iteration.Moves (base : String) (sequence : Sequence σ α) (moved : Sequence σ β)
    (first : Iteration σ α) (second : Iteration σ β) : Prop where
  plain : first.sequence = sequence
  below : second.sequence = moved
  position : first.position.Moves base second.position

structure Reader.Moves (base : String) (change : α → β) (sequence : Sequence σ α)
    (moved : Sequence σ β) (first : Reader σ α) (second : Reader σ β) : Prop where
  iteration : first.iteration.Moves base sequence moved second.iteration
  taken : second.taken = first.taken.map change
  ending : second.ending = first.ending

include hhost hbase hselection hsequence

theorem Sequence.Moves.alike_next {first : Iteration σ α} {second : Iteration σ β}
    (h : first.Moves base sequence moved second) :
    Act.Alike Eq (fun answer answer' => answer'.1 = answer.1.map change ∧
        answer.2.Moves base sequence moved answer'.2)
      (first.next host (.selected selection)) (second.next host (.selected selection')) := by
  have hwalking {tasks tasks' : List Walk.Task}
      (htasks : List.Forall₂ (Walk.Task.Moves base) tasks tasks') :
      Act.Alike Eq (fun answer answer' => answer'.1 = answer.1.map change ∧
          answer.2.Moves base sequence moved answer'.2)
        ((⟨sequence, .walking tasks⟩ : Iteration σ α).next host (.selected selection))
        ((⟨moved, .walking tasks'⟩ : Iteration σ β).next host (.selected selection')) := by
    rw [Iteration.next_walking, Iteration.next_walking, hsequence.bottomUp]
    apply (Walk.alike_next hhost hbase (hselection.walk host sequence.bottomUp) hsequence.pick
      htasks).bind
    rintro ⟨value, following⟩ ⟨_, following'⟩ ⟨rfl, hfollowing⟩
    cases value with
    | none => exact .pure ⟨rfl, rfl, rfl, .ended⟩
    | some value => exact .pure ⟨rfl, rfl, rfl, .walking hfollowing⟩
  obtain ⟨_, position⟩ := first
  obtain ⟨_, position'⟩ := second
  obtain ⟨rfl, rfl, hposition⟩ := h
  cases hposition with
  | fresh =>
      apply hwalking
      rw [hsequence.plain, hsequence.below, hselection.directory]
      exact .cons .start .nil
  | walking htasks => exact hwalking htasks
  | ended => exact .pure ⟨rfl, rfl, rfl, .ended⟩

theorem Sequence.Moves.alike_ask {first : Reader σ α} {second : Reader σ β}
    (h : first.Moves base change sequence moved second) :
    Act.Alike Eq (Reader.Moves base change sequence moved) (first.ask host (.selected selection))
      (second.ask host (.selected selection')) := by
  have hreceive : Act.Alike Eq
      (fun result result' =>
        (first.receive result).Moves base change sequence moved (second.receive result'))
      (first.iteration.next host (.selected selection)).attempt
      (second.iteration.next host (.selected selection')).attempt := by
    apply (hsequence.alike_next hhost hbase hselection h.iteration).attempt
    · rintro ⟨value, following⟩ ⟨_, following'⟩ ⟨rfl, hfollowing⟩
      cases value with
      | none => exact ⟨hfollowing, h.taken, by simp [Reader.receive, h.ending]⟩
      | some value => exact ⟨hfollowing, by simp [Reader.receive, h.taken], h.ending⟩
    · intro failure
      exact ⟨⟨h.iteration.plain, h.iteration.below, .ended⟩, h.taken,
        by simp [Reader.receive, h.ending]⟩
  exact hreceive.bind fun _ _ hfollowing => .pure hfollowing

theorem Sequence.Moves.alike_take {first : Reader σ α} {second : Reader σ β} (count : Nat)
    (h : first.Moves base change sequence moved second) :
    Act.Alike Eq (Reader.Moves base change sequence moved)
      (first.take host (.selected selection) count)
      (second.take host (.selected selection') count) := by
  induction count generalizing first second with
  | zero => exact .pure h
  | succ count ih =>
      apply (hsequence.alike_ask hhost hbase hselection h).bind
      intro following following' hfollowing
      exact ih hfollowing

theorem Sequence.Moves.take (count : Nat) :
    (fun reader => (reader.taken, reader.ending)) <$>
        (Reader.start moved).take host (.selected selection') count =
      (fun reader => (reader.taken.map change, reader.ending)) <$>
        (Reader.start sequence).take host (.selected selection) count := by
  have hstart : (Reader.start sequence).Moves base change sequence moved (.start moved) :=
    ⟨⟨rfl, rfl, .fresh⟩, rfl, rfl⟩
  have halike := hsequence.alike_take hhost hbase hselection count hstart
  symm
  apply Act.Alike.eq
  apply halike.map
  intro first second h
  rw [h.taken, h.ending]

theorem Sequence.Moves.readsChanged :
    sequence.ReadsChanged host change (.selected selection) moved (.selected selection') where
  forEach _ := hsequence.forEach hhost hbase hselection
  toList := hsequence.toList hhost hbase hselection
  take := hsequence.take hhost hbase hselection

end

/-! ## Below a base path -/

/-- Below a literal base path, a selection whose patterns all start with it reports what the plain
selection reports, in the same order and with the base path before each relative path. -/
theorem base_path_moves_what_is_selected [Ignore.Library] {base : String} (hbase : base ≠ "")
    (hstar : '*' ∉ base.toList) :
    (∀ caseSensitive pattern, pattern ≠ "" → ∃ plain moved,
      Matcher.ofPatterns? .glob caseSensitive [pattern] = .ok plain ∧
        Matcher.ofPatterns? .glob caseSensitive [base ++ "/" ++ pattern] = .ok moved ∧
          ∀ isDirectory path,
            moved.accepts isDirectory (base ++ "/" ++ path) = plain.accepts isDirectory path) ∧
    ∀ (σ : Type) (selection : Selection σ) (additions : List (RuleSet.Role × List String)),
      selection.engine = .glob → selection.basepath = "" → selection.rules = .empty →
        (∀ addition ∈ additions, ∀ pattern ∈ addition.2, pattern ≠ "") →
          ∃ plain moved, selection.addAll additions = .ok plain ∧
            (selection.withBasepath base).addAll (Selection.additionsBelow base additions) =
              .ok moved ∧
            ∀ host : Host σ, host.IsTidy → ∀ selected bottomUp,
              ((Collection.selected plain).pairs selected bottomUp).ReadsChanged host
                (Entry.below base) (.selected plain)
                ((Collection.selected moved).pairs selected bottomUp) (.selected moved) ∧
              ((Collection.selected plain).handles selected bottomUp).ReadsChanged host id
                (.selected plain)
                ((Collection.selected moved).handles selected bottomUp) (.selected moved) := by
  constructor
  · intro caseSensitive pattern hpattern
    refine ⟨_, _, Glob.ofGlobs?_eq [pattern] '/' caseSensitive,
      Glob.ofGlobs?_eq [base ++ "/" ++ pattern] '/' caseSensitive, ?_⟩
    intro isDirectory path
    have haccepts := Glob.accepts_prefixed hstar hpattern caseSensitive path
    simpa [Matcher.accepts] using haccepts
  · intro σ selection additions hengine hplain hrules hadditions
    have hempty : selection.Moves base (selection.withBasepath base) := by
      refine ⟨hengine, hplain, rfl, ?_⟩
      rw [Selection.withBasepath, hrules]
      exact ⟨.nil, .nil, .nil⟩
    obtain ⟨plain, moved, hadd, hadd', hmoves⟩ := hempty.addAll hstar hadditions
    refine ⟨plain, moved, hadd, hadd', ?_⟩
    intro host hhost selected bottomUp
    have hbelow : moved.basepath = base := by rw [hmoves.same]
    constructor
    · apply Sequence.Moves.readsChanged hhost hbase hmoves
      exact .collect hmoves.basepath hbelow (fun _ => rfl) selected bottomUp
    · apply Sequence.Moves.readsChanged hhost hbase hmoves
      exact .collect hmoves.basepath hbelow (fun _ => rfl) selected bottomUp

theorem base_path_moves_two_files :
    "base" ≠ "" ∧ '*' ∉ "base".toList ∧ "**" ≠ "" ∧ "b" ≠ "" ∧ twoFiles.IsTidy ∧
      ∃ plain moved,
        (rootSelection.withBasepath "").addAll [(.includes, ["**"]), (.excludes, ["b"])] = .ok plain ∧
        rootSelection.addAll [(.includes, ["base/**"]), (.excludes, ["base/b"])] = .ok moved ∧
        ((Collection.selected moved).pairs .files true).toList twoFiles (.selected moved) =
          List.map (Entry.below "base") <$>
            ((Collection.selected plain).pairs .files true).toList twoFiles (.selected plain) := by
  have hbase : "base" ≠ "" := by decide
  have hstar : '*' ∉ "base".toList := by decide
  obtain ⟨plain, moved, hplain, hmoved, hreads⟩ :=
    (base_path_moves_what_is_selected hbase hstar).2 Unit (rootSelection.withBasepath "")
      [(.includes, ["**"]), (.excludes, ["b"])] rfl rfl rfl (by decide)
  have htoList := (hreads twoFiles isTidy_twoFiles .files true).1.toList
  exact ⟨hbase, hstar, by decide, by decide, isTidy_twoFiles, plain, moved, hplain, hmoved, htoList⟩

end FileSelection
