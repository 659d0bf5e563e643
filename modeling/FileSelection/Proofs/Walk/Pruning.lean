import FileSelection.Ignore.Standard
import FileSelection.Proofs.Glob.Subtree
import FileSelection.Proofs.Selection.Globs
import FileSelection.Proofs.Walk.Visited

/-!
# Pruning and excluding

A directory that is not entered hides what lies below it.  A selection hides the same entries if it
enters the directory and excludes everything below it.
-/

namespace FileSelection

open FileSelection.Path

/-! ## One more rule -/

section

variable {σ : Type} {host : Host σ} {steady : σ → Prop} {rules : RuleSet σ} {more : List (Rule σ)}
  {entry : Entry} {holds : Bool} (hmore : Rule.anyHolds host more entry = pure holds)

include hmore

theorem Rule.noneHolds_append_of_ok {rules : List (Rule σ)} {allowed : Bool} {state last : σ}
    (h : (do return !(← Rule.anyHolds host rules entry) : Act σ Bool) state =
      some (.ok allowed, last)) :
    (do return !(← Rule.anyHolds host (rules ++ more) entry) : Act σ Bool) state =
      some (.ok (allowed && !holds), last) := by
  obtain ⟨found, middle, hfound, hresult⟩ := Act.bind_eq_ok_iff.1 h
  cases hresult
  have happended : Rule.anyHolds host (rules ++ more) entry state =
      some (.ok (found || holds), last) := by
    rw [Rule.anyHolds_append, Act.bind_of_ok hfound, hmore]
    cases found with
    | true => rfl
    | false => rfl
  rw [Act.bind_of_ok happended, Bool.not_or]
  rfl

omit hmore in
theorem RuleSet.accepts_eq_bind (rules : RuleSet σ) :
    rules.accepts host entry =
      (if rules.includes.isEmpty then pure true else Rule.anyHolds host rules.includes entry) >>=
        fun included =>
          if included then (do return !(← Rule.anyHolds host rules.excludes entry)) else pure false := by
  unfold RuleSet.accepts
  cases rules.includes.isEmpty with
  | true => rfl
  | false => rfl

theorem RuleSet.answers_accepts_excluding {accepted : Bool}
    (h : Act.Answers steady (rules.accepts host entry) (.ok accepted)) :
    Act.Answers steady ((rules.extend more .excludes).accepts host entry)
      (.ok (accepted && !holds)) := by
  intro state hstate
  obtain ⟨last, hlast, haccepts⟩ := h state hstate
  refine ⟨last, hlast, ?_⟩
  rw [accepts_eq_bind] at haccepts ⊢
  obtain ⟨included, middle, hincluded, hrest⟩ := Act.bind_eq_ok_iff.1 haccepts
  refine (Act.bind_of_ok hincluded).trans ?_
  cases included with
  | false =>
      cases hrest
      rfl
  | true => exact Rule.noneHolds_append_of_ok hmore hrest

theorem RuleSet.answers_mayDescend_pruning {entered : Bool}
    (h : Act.Answers steady (rules.mayDescend host entry) (.ok entered)) :
    Act.Answers steady ((rules.extend more .prunes).mayDescend host entry)
      (.ok (entered && !holds)) := by
  intro state hstate
  obtain ⟨last, hlast, hdescends⟩ := h state hstate
  exact ⟨last, hlast, Rule.noneHolds_append_of_ok hmore hdescends⟩

end

/-! ## Scenes with one more rule -/

namespace Scene

def pruning (scene : Scene) (condition : Entry → Bool) : Scene :=
  { scene with mayDescend := fun entry => scene.mayDescend entry && !condition entry }

def excluding (scene : Scene) (condition : Entry → Bool) : Scene :=
  { scene with accepts := fun entry => scene.accepts entry && !condition entry }

section

variable {scene : Scene} {condition below : Entry → Bool} {names : List String} {entry : Entry}

theorem entersInto_pruning : (scene.pruning condition).entersInto entry =
    (scene.entersInto entry && !condition entry) :=
  (Bool.and_assoc _ _ _).symm

theorem visits_pruning_iff : (scene.pruning condition).Visits names ↔
    scene.Visits names ∧ ∀ above, above ≠ [] → above <+: names → above ≠ names →
      condition (scene.entryAt above) = false := by
  have hinto (above : List String) :
      (scene.pruning condition).entersInto ((scene.pruning condition).entryAt above) = true ↔
        scene.entersInto (scene.entryAt above) = true ∧ condition (scene.entryAt above) = false := by
    rw [entersInto_pruning, Bool.and_eq_true_iff, Bool.not_eq_true']
    exact Iff.rfl
  constructor
  · intro h
    refine ⟨⟨h.nonempty, h.listed, ?_⟩, ?_⟩
    · intro above hne habove hproper
      exact ((hinto above).1 (h.entered above hne habove hproper)).1
    · intro above hne habove hproper
      exact ((hinto above).1 (h.entered above hne habove hproper)).2
  · rintro ⟨h, hcondition⟩
    refine ⟨h.nonempty, h.listed, ?_⟩
    intro above hne habove hproper
    exact (hinto above).2 ⟨h.entered above hne habove hproper, hcondition above hne habove hproper⟩

theorem visits_excluding_iff : (scene.excluding condition).Visits names ↔ scene.Visits names :=
  ⟨fun h => ⟨h.nonempty, h.listed, h.entered⟩, fun h => ⟨h.nonempty, h.listed, h.entered⟩⟩

theorem IsCalm.of_decisions {accepts mayDescend : Entry → Bool} {other : Scene} (h : scene.IsCalm)
    (hother : other = { scene with accepts := accepts, mayDescend := mayDescend })
    (hvisits : ∀ names, other.Visits names → scene.Visits names)
    (hinto : ∀ entry, other.entersInto entry = true → scene.entersInto entry = true) :
    other.IsCalm := by
  subst hother
  refine ⟨?_, fun names hvisited => h.link names (hvisits names hvisited),
    fun names hvisited => h.directory names (hvisits names hvisited)⟩
  intro names failure henters
  apply h.listing names failure
  apply henters.imp_right
  rintro ⟨hvisited, hentered⟩
  exact ⟨hvisits names hvisited, hinto _ hentered⟩

theorem isCalm_pruning (h : scene.IsCalm) : (scene.pruning condition).IsCalm := by
  apply h.of_decisions rfl
  · exact fun names hvisits => (visits_pruning_iff.1 hvisits).1
  · intro entry hinto
    exact (Bool.and_eq_true_iff.1 (entersInto_pruning.symm.trans hinto)).1

theorem isCalm_excluding (h : scene.IsCalm) : (scene.excluding condition).IsCalm := by
  apply h.of_decisions rfl
  · exact fun names => visits_excluding_iff.1
  · exact fun entry => id

theorem selects_pruning_iff_excluding
    (hbelow : ∀ names, scene.Visits names → (below (scene.entryAt names) = true ↔
      ∃ above, above ≠ [] ∧ above <+: names ∧ above ≠ names ∧
        condition (scene.entryAt above) = true)) :
    (scene.pruning condition).Selects entry ↔ (scene.excluding below).Selects entry := by
  apply exists_congr
  intro names
  rw [visits_pruning_iff, visits_excluding_iff, and_assoc]
  apply and_congr_right
  intro hvisits
  have hnot : (∀ above, above ≠ [] → above <+: names → above ≠ names →
      condition (scene.entryAt above) = false) ↔ below (scene.entryAt names) = false := by
    rw [← Bool.not_eq_true, hbelow names hvisits]
    simp only [not_exists, not_and, Bool.not_eq_true]
  have haccepts : (scene.excluding below).accepts (scene.entryAt names) = true ↔
      scene.accepts (scene.entryAt names) = true ∧ below (scene.entryAt names) = false := by
    rw [← Bool.not_eq_true', ← Bool.and_eq_true_iff]
    exact Iff.rfl
  rw [hnot]
  constructor
  · rintro ⟨hfree, haccepted, hentry⟩
    exact ⟨haccepts.2 ⟨haccepted, hfree⟩, hentry⟩
  · rintro ⟨haccepted, hentry⟩
    exact ⟨(haccepts.1 haccepted).2, (haccepts.1 haccepted).1, hentry⟩

section

variable {σ : Type} {host : Host σ} {steady : σ → Prop} {selection : Selection σ}
  {more : List (Rule σ)} {bottomUp : Bool}
  (h : scene.ShowsVisited host (selection.walk host bottomUp) steady)
  (hmore : ∀ entry, Rule.anyHolds host more entry = pure (condition entry))

include h hmore

theorem ShowsVisited.pruning (bottomUp' : Bool) :
    (scene.pruning condition).ShowsVisited host ((selection.extend more .prunes).walk host bottomUp')
      steady where
  names := h.names
  status := h.status
  note := h.note
  accept names hvisits := h.accept names (visits_pruning_iff.1 hvisits).1
  mayDescend names hvisits := RuleSet.answers_mayDescend_pruning (hmore _)
    (h.mayDescend names (visits_pruning_iff.1 hvisits).1)
  followLinks := h.followLinks
  lenient := h.lenient

theorem ShowsVisited.excluding (bottomUp' : Bool) :
    (scene.excluding condition).ShowsVisited host
      ((selection.extend more .excludes).walk host bottomUp') steady where
  names := h.names
  status := h.status
  note := h.note
  accept names hvisits := RuleSet.answers_accepts_excluding (hmore _)
    (h.accept names (visits_excluding_iff.1 hvisits))
  mayDescend names hvisits := h.mayDescend names (visits_excluding_iff.1 hvisits)
  followLinks := h.followLinks
  lenient := h.lenient

end

end

end Scene

/-! ## Patterns of what lies below -/

theorem Glob.accepts_below_relative_iff {pattern : String} (hslash : ¬ "/".toList <:+ pattern.toList)
    (hstars : ¬ "**".toList <:+ pattern.toList) (caseSensitive : Bool) {names : List String}
    (hne : names ≠ []) (hnames : ∀ name ∈ names, IsName name) :
    (compiled (pattern ++ "/*/") "/" caseSensitive).accepts (relativeOf "" names) = true ↔
      ∃ above, above ≠ [] ∧ above <+: names ∧ above ≠ names ∧
        (compiled pattern "/" caseSensitive).accepts (relativeOf "" above) = true := by
  have hsegments : ∀ segment ∈ names.map String.toList, '/' ∉ segment := by
    simpa using fun name hname => (hnames name hname).noSlash
  have htext {above : List String} (hne : above ≠ []) (habove : above <+: names) :
      (relativeOf "" above).toList = Text.joined (above.map String.toList) := by
    rw [toList_relativeOf hne fun name hname => hnames name (habove.subset hname)]
    rfl
  rw [accepts_below_iff hslash hstars, htext hne List.prefix_rfl]
  simp only [Text.joined_eq_append_slash_iff hsegments]
  constructor
  · rintro ⟨_, _, ⟨before, after, hbefore, hafter, hsplit, rfl, rfl⟩, haccepts⟩
    obtain ⟨above, below, rfl, rfl, rfl⟩ := List.map_eq_append_iff.1 hsplit
    have habove : above ≠ [] := by simpa using hbefore
    refine ⟨above, habove, List.prefix_append _ _, by simpa using hafter, ?_⟩
    rw [← htext habove (List.prefix_append _ _), String.ofList_toList] at haccepts
    exact haccepts
  · rintro ⟨above, habove, ⟨below, rfl⟩, hproper, haccepts⟩
    have hbelow : below ≠ [] := by simpa using hproper
    refine ⟨_, _, ⟨above.map String.toList, below.map String.toList, by simpa using habove,
      by simpa using hbelow, List.map_append, rfl, rfl⟩, ?_⟩
    rw [← htext habove (List.prefix_append _ _), String.ofList_toList]
    exact haccepts

/-! ## Pruning a selection -/

theorem Scene.relative_entryAt {scene : Scene} (hplain : scene.basepath = "")
    {names above : List String} (hvisits : scene.Visits names) (hne : above ≠ [])
    (habove : above <+: names) :
    (scene.entryAt above).relative = relativeOf "" above := by
  have hvalid : ∀ name ∈ above, IsName name :=
    fun name hname => hvisits.valid name (habove.subset hname)
  rw [relativeOf_eq_joinRelative hne hvalid, Scene.entryAt, hplain]

theorem Scene.ShowsVisited.pruning_reads_like_excluding {σ α : Type} {host : Host σ}
    {steady : σ → Prop} {scene : Scene} {selection : Selection σ} {more others : List (Rule σ)}
    {condition below : Entry → Bool} {sequence : Sequence σ α} {value : Entry → Option α} {state : σ}
    (hshows : scene.ShowsVisited host (selection.walk host false) steady) (hcalm : scene.IsCalm)
    (hfinite : {names | scene.Visits names}.Finite) (hstate : steady state)
    (hdirectory : scene.directory = selection.directory)
    (hbasepath : scene.basepath = sequence.basepath)
    (hmore : ∀ entry, Rule.anyHolds host more entry = pure (condition entry))
    (hothers : ∀ entry, Rule.anyHolds host others entry = pure (below entry))
    (hbelow : ∀ names, scene.Visits names → (below (scene.entryAt names) = true ↔
      ∃ above, above ≠ [] ∧ above <+: names ∧ above ≠ names ∧
        condition (scene.entryAt above) = true))
    (hpick : ∀ names, scene.Visits names → Act.Answers steady
      (sequence.pick host (scene.entryAt names)) (.ok (value (scene.entryAt names)))) :
    ∃ values,
      Act.Answers steady (sequence.toList host (.selected (selection.extend more .prunes)))
        (.ok values) ∧
      Act.Answers steady (sequence.toList host (.selected (selection.extend others .excludes)))
        (.ok values) := by
  have hfinite' : {names | (scene.pruning condition).Visits names}.Finite :=
    hfinite.subset fun names hvisits => (visits_pruning_iff.1 hvisits).1
  have hfinite'' : {names | (scene.excluding below).Visits names}.Finite :=
    hfinite.subset fun names hvisits => visits_excluding_iff.1 hvisits
  have hpicks : ∀ entry, (scene.pruning condition).Selects entry →
      Act.Answers steady (sequence.pick host entry) (.ok (value entry)) := by
    rintro _ ⟨names, hvisits, -, rfl⟩
    exact hpick names (visits_pruning_iff.1 hvisits).1
  have hpicks' : ∀ entry, (scene.excluding below).Selects entry →
      Act.Answers steady (sequence.pick host entry) (.ok (value entry)) := by
    rintro _ ⟨names, hvisits, -, rfl⟩
    exact hpick names (visits_excluding_iff.1 hvisits)
  obtain ⟨entries, hcourse, hentries, hpruned⟩ :=
    (hshows.pruning hmore sequence.bottomUp).reads (isCalm_pruning hcalm) hfinite' hstate hdirectory
      hbasepath hpicks
  obtain ⟨entries', hcourse', hentries', hexcluded⟩ :=
    (hshows.excluding hothers sequence.bottomUp).reads (isCalm_excluding hcalm) hfinite'' hstate
      hdirectory hbasepath hpicks'
  have hsame : entries = entries' := by
    apply hcourse.eq_of_mem_iff hcourse'
    intro entry
    rw [hentries, hentries', selects_pruning_iff_excluding hbelow]
  rw [← hsame] at hexcluded
  exact ⟨_, hpruned, hexcluded⟩

/-- In a file system that does not change, a selection of globs gives the same whether directories
are pruned or everything below them is excluded. -/
theorem pruning_agrees_with_exclusion [Ignore.Library] {σ : Type} {host : Host σ}
    {steady : σ → Prop} {scene : Scene} {selection : Selection σ} {pattern : String}
    (hengine : selection.engine = .glob)
    (hdirectory : scene.directory = selection.directory) (hplain : scene.basepath = "")
    (hshows : scene.ShowsVisited host (selection.walk host false) steady) (hcalm : scene.IsCalm)
    (hfinite : {names | scene.Visits names}.Finite) (hslash : ¬ "/".toList <:+ pattern.toList)
    (hstars : ¬ "**".toList <:+ pattern.toList) (state : σ) (hstate : steady state) :
    ∃ pruned excluded, selection.prunes [.pattern pattern] = .ok pruned ∧
      selection.excludes [.pattern (pattern ++ "/*/")] = .ok excluded ∧
      ∀ (α : Type) (sequence : Sequence σ α) (value : Entry → Option α), sequence.basepath = "" →
        (∀ names, scene.Visits names → Act.Answers steady
          (sequence.pick host (scene.entryAt names)) (.ok (value (scene.entryAt names)))) →
        ∃ values, Act.Answers steady (sequence.toList host (.selected pruned)) (.ok values) ∧
          Act.Answers steady (sequence.toList host (.selected excluded)) (.ok values) := by
  have hrule (pattern : String) (entry : Entry) :
      Rule.anyHolds host (Rule.ofGlobs selection.caseSensitive [pattern]) entry =
        pure ((Glob.compiled pattern "/" selection.caseSensitive).accepts entry.relative) := by
    rw [Rule.anyHolds_ofGlobs]
    simp
  refine ⟨_, _, Selection.prunes_patterns hengine [pattern],
    Selection.excludes_patterns hengine [pattern ++ "/*/"], ?_⟩
  intro α sequence value hbasepath hpick
  apply hshows.pruning_reads_like_excluding hcalm hfinite hstate hdirectory
    (hplain.trans hbasepath.symm) (hrule pattern) (hrule (pattern ++ "/*/")) ?_ hpick
  intro names hvisits
  rw [Scene.relative_entryAt hplain hvisits hvisits.nonempty List.prefix_rfl,
    Glob.accepts_below_relative_iff hslash hstars _ hvisits.nonempty hvisits.valid]
  apply exists_congr
  intro above
  apply and_congr_right
  intro hne
  apply and_congr_right
  intro habove
  rw [Scene.relative_entryAt hplain hvisits hne habove]

def plainRoot : Selection Unit := rootSelection.withBasepath ""

theorem showsVisited_lostDirectory : Scene.lostDirectory.ShowsVisited Scene.lostDirectory.host
    (plainRoot.walk Scene.lostDirectory.host false) fun _ => True :=
  (Scene.shows_host_walk Scene.lostDirectory).visited

theorem pruning_agrees_with_exclusion_in_lost_directory :
    ¬ "/".toList <:+ "a*".toList ∧ ¬ "**".toList <:+ "a*".toList ∧
      ∃ pruned excluded, plainRoot.prunes [.pattern "a*"] = .ok pruned ∧
        plainRoot.excludes [.pattern ("a*" ++ "/*/")] = .ok excluded ∧
        ∃ values last last',
          ((Collection.selected plainRoot).pairs .any true).toList Scene.lostDirectory.host
            (.selected pruned) () = some (.ok values, last) ∧
          ((Collection.selected plainRoot).pairs .any true).toList Scene.lostDirectory.host
            (.selected excluded) () = some (.ok values, last') := by
  have hslash : ¬ "/".toList <:+ "a*".toList := by decide
  have hstars : ¬ "**".toList <:+ "a*".toList := by decide
  obtain ⟨pruned, excluded, hpruned, hexcluded, hreads⟩ :=
    pruning_agrees_with_exclusion rfl rfl rfl showsVisited_lostDirectory Scene.isCalm_lostDirectory
      Scene.finite_lostDirectory hslash hstars () trivial
  obtain ⟨values, hvalues, hvalues'⟩ :=
    hreads Entry ((Collection.selected plainRoot).pairs .any true) some rfl fun _ _ => .pure _
  obtain ⟨last, -, hresult⟩ := hvalues () trivial
  obtain ⟨last', -, hresult'⟩ := hvalues' () trivial
  exact ⟨hslash, hstars, pruned, excluded, hpruned, hexcluded, values, last, last', hresult,
    hresult'⟩

end FileSelection
