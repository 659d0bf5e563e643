import FileSelection.Proofs.CopyPlan.Reversal
import FileSelection.Proofs.Walk.Visited

/-!
# Path lists of what a selection reports

The relative paths that a selection without a base path reports lead back to the reported entries,
so a path list that is made from them reports the same entries.  A walk compares names one by one
and a path list compares whole texts: the orders differ, but in both of them an entry comes before
what lies below it, or bottom-up after it.
-/

namespace FileSelection

open FileSelection.Path FileSelection.Text

/-! ## Entries above others -/

def Entry.IsAbove (above entry : Entry) : Prop :=
  ∃ names, names ≠ [] ∧ entry.path = above.path.below names

/-- Top-down each entry comes before those that lie below it, bottom-up after them. -/
def Entry.KeepOrder (bottomUp : Bool) (entries : List Entry) : Prop :=
  ∀ (i j : Nat) (above entry : Entry), entries[i]? = some above → entries[j]? = some entry →
    above.IsAbove entry → if bottomUp then j < i else i < j

section

variable {base : Path} {basepath : String} {names others rest : List String}

theorem isAbove_entryBelow_iff :
    (Walk.entryBelow base basepath names).IsAbove (Walk.entryBelow base basepath others) ↔
      ∃ rest, rest ≠ [] ∧ others = names ++ rest := by
  unfold Entry.IsAbove
  refine exists_congr fun rest => and_congr_right fun _ => ?_
  have hbelow : (base.below names).below rest = base.below (names ++ rest) := by simp [below]
  exact (Eq.congr_right hbelow).trans (below_injective base).eq_iff

theorem relativeOf_lt_relativeOf_append (hne : names ≠ []) (hrest : rest ≠ [])
    (hvalid : ∀ name ∈ names ++ rest, IsName name) :
    relativeOf basepath names < relativeOf basepath (names ++ rest) := by
  have habove : ∀ name ∈ names, IsName name := fun name hname => hvalid name (by simp [hname])
  rw [String.lt_iff_toList_lt, toList_relativeOf hne habove,
    toList_relativeOf (by simp [hne]) hvalid, List.map_append,
    joined_append (by simpa using hne) (by simpa using hrest), ← List.append_assoc]
  exact lt_append (by simp)

theorem Entry.IsAbove.relative_lt {above entry : Entry} (h : above.IsAbove entry)
    (habove : Walk.LiesBelow base basepath above) (hentry : Walk.LiesBelow base basepath entry) :
    above.relative < entry.relative := by
  obtain ⟨names, -, hne, rfl⟩ := habove
  obtain ⟨others, hvalid, -, rfl⟩ := hentry
  obtain ⟨rest, hrest, rfl⟩ := isAbove_entryBelow_iff.1 h
  exact relativeOf_lt_relativeOf_append hne hrest fun name hname => (hvalid name hname).toIsName

theorem Entry.keepOrder_map {ι : Type} {before : ι → ι → Prop} [Std.Asymm before] {values : List ι}
    {entryOf : ι → Entry} {bottomUp : Bool} (h : values.Pairwise before)
    (habove : ∀ above ∈ values, ∀ value ∈ values, (entryOf above).IsAbove (entryOf value) →
      if bottomUp then before value above else before above value) :
    KeepOrder bottomUp (values.map entryOf) := by
  intro i j above entry hi hj hisAbove
  rw [List.getElem?_map, Option.map_eq_some_iff] at hi hj
  obtain ⟨first, hfirst, rfl⟩ := hi
  obtain ⟨second, hsecond, rfl⟩ := hj
  have hbefore := habove first (List.mem_of_getElem? hfirst) second (List.mem_of_getElem? hsecond)
    hisAbove
  cases bottomUp with
  | false => exact lt_of_pairwise h hfirst hsecond hbefore
  | true => exact lt_of_pairwise h hsecond hfirst hbefore

theorem Entry.KeepOrder.filter {entries : List Entry} {bottomUp : Bool}
    (h : KeepOrder bottomUp entries) (test : Entry → Bool) :
    KeepOrder bottomUp (entries.filter test) := by
  have hsublist : List.Sublist (entries.filter test) entries := List.filter_sublist
  obtain ⟨place, hplace⟩ := List.sublist_iff_exists_orderEmbedding_getElem?_eq.1 hsublist
  intro i j above entry hi hj hisAbove
  rw [hplace] at hi hj
  have hbefore := h (place i) (place j) above entry hi hj hisAbove
  rwa [place.lt_iff_lt, place.lt_iff_lt] at hbefore

theorem Entry.keepOrder_entryBelow {named : List (List String)} {bottomUp : Bool}
    (h : named.Pairwise (Precedes bottomUp)) :
    KeepOrder bottomUp (named.map (Walk.entryBelow base basepath)) := by
  have : Std.Asymm (Precedes bottomUp) := ⟨fun _ _ => precedes_asymm⟩
  refine keepOrder_map h fun above _ names _ hisAbove => ?_
  obtain ⟨rest, hrest, rfl⟩ := isAbove_entryBelow_iff.1 hisAbove
  cases bottomUp with
  | false => exact precedes_above hrest
  | true => exact precedes_below hrest

end

/-! ## The path list of entries -/

namespace PathList

def relisted (directory : Path) (entries : List Entry) : PathList :=
  ofCalls directory [entries.map (·.relative)]

theorem perm_ordered (list : PathList) (bottomUp : Bool) :
    (list.ordered bottomUp).Perm list.members := by
  unfold ordered
  split
  · exact List.reverse_perm list.members
  · exact .refl list.members

theorem ascends_ordered {list : PathList} (h : list.members.SortedLT) (bottomUp : Bool) :
    (list.ordered bottomUp).Pairwise fun first second =>
      if bottomUp then second < first else first < second := by
  cases bottomUp with
  | false => exact h.pairwise
  | true => exact h.reverse.pairwise

section

variable {list : PathList} {directory : Path} {entry : Entry} {entries : List Entry}

theorem not_isRooted_relative (h : Walk.LiesBelow directory "" entry) :
    ¬ IsRooted entry.relative := by
  obtain ⟨names, hvalid, -, rfl⟩ := h
  intro hrooted
  have hbase : IsRooted "" :=
    (isRooted_relativeOf fun name hname => (hvalid name hname).toIsName).1 hrooted
  exact absurd hbase (by decide)

theorem entryOf_relative (h : Walk.LiesBelow list.directory "" entry) :
    list.entryOf entry.relative = entry := by
  have hunrooted := not_isRooted_relative h
  obtain ⟨names, hvalid, hne, rfl⟩ := h
  have hread : (ofText (relativeOf "" names)).names = names :=
    namesOf_relativeOf hne fun name hname =>
      ⟨(hvalid name hname).toIsName, (hvalid name hname).notSelf⟩
  have hpath : (list.entryOf (relativeOf "" names)).path =
      list.directory.below (ofText (relativeOf "" names)).names := path_entryOf hunrooted
  rw [hread] at hpath
  exact congrArg (Entry.mk · (relativeOf "" names)) hpath

variable (hbelow : ∀ entry ∈ entries, Walk.LiesBelow directory "" entry)

include hbelow

theorem mem_relisted_iff {member : String} :
    member ∈ (relisted directory entries).members ↔ member ∈ entries.map (·.relative) := by
  have hkept : (entries.map (·.relative)).map relativePart = entries.map (·.relative) := by
    rw [List.map_map]
    exact List.map_congr_left fun entry hentry =>
      relativePart_eq_self (not_isRooted_relative (hbelow entry hentry))
  rw [relisted, mem_ofCalls_iff, List.flatten_singleton, hkept]

theorem map_entryOf_relisted :
    (entries.map (·.relative)).map (relisted directory entries).entryOf = entries := by
  rw [List.map_map]
  exact (List.map_congr_left fun entry hentry =>
    entryOf_relative (hbelow entry hentry)).trans (List.map_id entries)

theorem perm_map_entryOf_relisted (hnodup : entries.Nodup) (bottomUp : Bool) :
    entries.Perm (((relisted directory entries).ordered bottomUp).map
      (relisted directory entries).entryOf) := by
  have hentries := map_entryOf_relisted hbelow
  have hrelatives : (entries.map (·.relative)).Nodup := by
    rw [← hentries] at hnodup
    exact hnodup.of_map _
  have hmembers : (entries.map (·.relative)).Perm (relisted directory entries).members :=
    (List.perm_ext_iff_of_nodup hrelatives (sortedLT_ofCalls _ _).nodup).2 fun member =>
      (mem_relisted_iff hbelow).symm
  have hordered := hmembers.trans (perm_ordered _ bottomUp).symm
  have hperm := hordered.map (relisted directory entries).entryOf
  rwa [hentries] at hperm

theorem entryOf_mem_of_mem_relisted (hnodup : entries.Nodup) {bottomUp : Bool} {member : String}
    (h : member ∈ (relisted directory entries).ordered bottomUp) :
    (relisted directory entries).entryOf member ∈ entries :=
  (perm_map_entryOf_relisted hbelow hnodup bottomUp).mem_iff.2 (List.mem_map_of_mem h)

theorem keepOrder_relisted (hnodup : entries.Nodup) (bottomUp : Bool) :
    Entry.KeepOrder bottomUp (((relisted directory entries).ordered bottomUp).map
      (relisted directory entries).entryOf) := by
  have : Std.Asymm fun first second : String =>
      if bottomUp then second < first else first < second := by
    refine ⟨fun first second => ?_⟩
    cases bottomUp with
    | false => exact lt_asymm
    | true => exact lt_asymm
  refine Entry.keepOrder_map (ascends_ordered (sortedLT_ofCalls _ _) bottomUp)
    fun above habove member hmember hisAbove => ?_
  have hless : above < member := hisAbove.relative_lt
    (hbelow _ (entryOf_mem_of_mem_relisted hbelow hnodup habove))
    (hbelow _ (entryOf_mem_of_mem_relisted hbelow hnodup hmember))
  cases bottomUp with
  | false => exact hless
  | true => exact hless

end

end PathList

/-! ## What a selection reports in a scene -/

/-- The host and the selection are those of the scene.  No walk through it fails: a strict selection
can list every directory that it enters. -/
structure Scene.ShowsSelection {σ : Type} (scene : Scene) (host : Host σ) (selection : Selection σ)
    (steady : σ → Prop) : Prop where
  shows : scene.ShowsVisited host ({ selection with strict := false }.walk host false) steady
  listed : selection.strict = true →
    ∀ names, scene.Enters names → scene.CanList (scene.pathAt names)
  calm : scene.IsCalm
  finite : {names | scene.Visits names}.Finite
  directory : scene.directory = selection.directory
  basepath : scene.basepath = selection.basepath

def Scene.isAmong (scene : Scene) (selected : Selected) (entry : Entry) : Bool :=
  match selected with
  | .any => true
  | .files => scene.hasKind true .file entry.path
  | .directories => scene.hasKind true .directory entry.path

section

variable {σ α : Type} {scene : Scene} {host : Host σ} {walk : Walk σ} {selection : Selection σ}
  {steady : σ → Prop} {state : σ}

theorem Walk.takes_of_performs {task : Walk.Task} {found : Option Entry} {tasks : List Walk.Task}
    (hstate : steady state) (h : Scene.Performs host walk steady task found tasks) :
    walk.Takes host task found tasks := by
  obtain ⟨last, -, hperform⟩ := h state hstate
  exact ⟨state, last, hperform⟩

theorem Scene.ShowsSelection.course (h : scene.ShowsSelection host selection steady)
    (hstate : steady state) (bottomUp : Bool) :
    Walk.Ends (Performs host (selection.walk host bottomUp) steady)
      (Walk.start scene.directory scene.basepath) scene.Selects := by
  have hlenient := h.shows.turned bottomUp
  obtain ⟨entries, hcourse, hentries⟩ := hlenient.course h.calm h.finite hstate
  refine ⟨entries, ?_, hentries⟩
  cases hstrict : selection.strict with
  | false =>
      have hsame : selection.walk host bottomUp =
          { { selection with strict := false }.walk host false with bottomUp } := by
        rw [← hstrict]
        rfl
      rw [hsame]
      exact hcourse
  | true =>
      have hsame : selection.walk host bottomUp =
          { { selection with strict := false }.walk host false with bottomUp }.strictly := by
        unfold Selection.walk
        rw [hstrict]
        rfl
      rw [hsame]
      exact hlenient.course_strictly h.calm (h.listed hstrict) hstate hcourse places_start

theorem Scene.ShowsSelection.reads (h : scene.ShowsSelection host selection steady)
    (hhost : host.ListsEntries) (hstate : steady state) {sequence : Sequence σ α}
    {value : Entry → Option α}
    (hpick : ∀ entry, scene.Selects entry →
      Act.Answers steady (sequence.pick host entry) (.ok (value entry)))
    (hbasepath : sequence.basepath = selection.basepath) :
    ∃ entries : List Entry,
      entries.Nodup ∧ Entry.KeepOrder sequence.bottomUp entries ∧
      (∀ entry ∈ entries, Walk.LiesBelow selection.directory selection.basepath entry) ∧
      (∀ entry, entry ∈ entries ↔ scene.Selects entry) ∧
      Act.Answers steady (sequence.toList host (.selected selection))
        (.ok (entries.filterMap value)) := by
  obtain ⟨entries, hcourse, hentries⟩ := h.course hstate sequence.bottomUp
  rw [h.directory, h.basepath] at hcourse
  obtain ⟨named, rfl, hascends, hvalid⟩ :=
    (hcourse.mono fun hperforms => Walk.takes_of_performs hstate hperforms).exists_names hhost
  refine ⟨_, ?_, Entry.keepOrder_entryBelow hascends, ?_, hentries, ?_⟩
  · exact (nodup_of_ascends hascends).map fun names names' hsame =>
      below_injective selection.directory (congrArg Entry.path hsame)
  · exact List.forall_mem_map.2 fun names hnames =>
      ⟨names, (hvalid names hnames).2, (hvalid names hnames).1, rfl⟩
  · rw [← hbasepath] at hcourse hentries ⊢
    exact answers_toList hcourse fun entry hentry => hpick entry ((hentries entry).1 hentry)

theorem Scene.Shows.answers_exists? (hshows : scene.Shows host walk steady) {path : Path}
    (hexists : ∃ status, scene.status true path = .ok status) :
    Act.Answers steady (host.exists? path) (.ok true) := by
  obtain ⟨status, hstatus⟩ := hexists
  have hattempt := (hshows.status true path).attempt
  rw [hstatus] at hattempt
  exact .bind (.bind hattempt (.pure (some status))) (.pure _)

theorem Scene.Shows.answers_pick_pairs (hshows : scene.Shows host walk steady) {entry : Entry}
    (hexists : ∃ status, scene.status true entry.path = .ok status) (collection : Collection σ)
    (selected : Selected) (bottomUp : Bool) :
    Act.Answers steady ((collection.pairs selected bottomUp).pick host entry)
      (.ok (Option.guard (scene.isAmong selected) entry)) := by
  have htells : scene.Tells true entry.path := by
    intro failure hfailure
    obtain ⟨status, hstatus⟩ := hexists
    rw [hstatus] at hfailure
    cases hfailure
  have hpick {kept : Bool} {decision : Act σ Bool}
      (hdecision : Act.Answers steady decision (.ok kept)) :
      Act.Answers steady (do if ← decision then pure (some entry) else return none)
        (.ok (if kept then some entry else none)) := by
    refine .bind hdecision ?_
    cases kept with
    | true => exact .pure _
    | false => exact .pure _
  cases selected with
  | any => exact hpick (.pure true)
  | files => exact hpick (hshows.answers_hasKind .file htells)
  | directories => exact hpick (hshows.answers_hasKind .directory htells)

theorem Scene.Shows.answers_toList_listed (hshows : scene.Shows host walk steady)
    (hstate : steady state) {list : PathList} {selected : Selected} {bottomUp : Bool}
    (hexists : ∀ member ∈ list.ordered bottomUp,
      ∃ status, scene.status true (list.entryOf member).path = .ok status) :
    Act.Answers steady
      (((Collection.listed list).pairs selected bottomUp).toList host (.listed list))
      (.ok (((list.ordered bottomUp).map list.entryOf).filter (scene.isAmong selected))) := by
  have hpick : ∀ member ∈ list.ordered bottomUp, Act.Answers steady
      (((Collection.listed list).pairs selected bottomUp).pickMember host list member)
      (.ok (Option.guard (scene.isAmong selected) (list.entryOf member))) := by
    intro member hmember
    have hpicked := Sequence.answers_pickMember
      (hshows.answers_exists? (hexists member hmember))
      (hshows.answers_pick_pairs (hexists member hmember) (.listed list) selected bottomUp)
    exact hpicked
  have hvalues : (list.ordered bottomUp).filterMap (fun member =>
      Option.guard (scene.isAmong selected) (list.entryOf member)) =
        ((list.ordered bottomUp).map list.entryOf).filter (scene.isAmong selected) := by
    rw [← List.filterMap_eq_filter, List.filterMap_map]
    rfl
  rw [← hvalues]
  exact (Sequence.gives_listed hstate hpick).toList

/-! ## Agreement -/

/-- Where every reported entry exists, the path list of the paths that a selection without a base
path reports gives the same pairs as the selection: those of what is selected, and of the files and
the directories among it.  The selection gives them in another order, but both orders keep each
entry before what lies below it, or bottom-up after it. -/
theorem listed_paths_lead_to_same_entries {text : String}
    (h : scene.ShowsSelection host selection steady) (hhost : host.ListsEntries) (state : σ)
    (hstate : steady state) (hbasepath : selection.basepath = "")
    (hexists : ∀ entry, scene.Selects entry →
      ∃ status, scene.status true entry.path = .ok status)
    (hdirectory : Act.Answers steady (checkDirectory host text) (.ok selection.directory))
    (order : Bool) :
    ∃ paths list,
      Act.Answers steady
        (((Collection.selected selection).relatives .any order).toList host (.selected selection))
        (.ok paths) ∧
      Act.Answers steady (PathList.make host text paths) (.ok list) ∧
      ∀ (selected : Selected) (bottomUp : Bool), ∃ reported listed,
        Act.Answers steady
          (((Collection.selected selection).pairs selected bottomUp).toList host
            (.selected selection)) (.ok reported) ∧
        Act.Answers steady
          (((Collection.listed list).pairs selected bottomUp).toList host (.listed list))
          (.ok listed) ∧
        reported.Nodup ∧ reported.Perm listed ∧
        (∀ entry, entry ∈ listed ↔ scene.Selects entry ∧ scene.isAmong selected entry = true) ∧
        Entry.KeepOrder bottomUp reported ∧ Entry.KeepOrder bottomUp listed := by
  have hshows := h.shows.completed
  have hpickPath : ∀ entry, scene.Selects entry → Act.Answers steady
      (((Collection.selected selection).relatives .any order).pick host entry)
      (.ok (some entry.relative)) := fun entry _ => .bind (.pure true) (.pure _)
  obtain ⟨entries, hnodup, -, hbelow, hentries, hpaths⟩ := h.reads hhost hstate hpickPath rfl
  rw [hbasepath] at hbelow
  rw [List.filterMap_eq_map'] at hpaths
  refine ⟨_, .relisted selection.directory entries, hpaths, ?_, fun selected bottomUp => ?_⟩
  · rw [PathList.make_eq_ofCalls, map_eq_pure_bind]
    exact .bind hdirectory (.pure _)
  · have hpickPair : ∀ entry, scene.Selects entry → Act.Answers steady
        (((Collection.selected selection).pairs selected bottomUp).pick host entry)
        (.ok (Option.guard (scene.isAmong selected) entry)) := fun entry hselects =>
      hshows.answers_pick_pairs (hexists entry hselects) (.selected selection) selected bottomUp
    obtain ⟨reported, hnodup', hkeeps, -, hreported, hpairs⟩ := h.reads hhost hstate hpickPair rfl
    rw [List.filterMap_eq_filter] at hpairs
    have hsame : reported.Perm entries := (List.perm_ext_iff_of_nodup hnodup' hnodup).2
      fun entry => (hreported entry).trans (hentries entry).symm
    have hperm := hsame.trans (PathList.perm_map_entryOf_relisted hbelow hnodup bottomUp)
    refine ⟨_, _, hpairs, hshows.answers_toList_listed hstate fun member hmember => ?_,
      hnodup'.filter _, hperm.filter _, fun entry => ?_, hkeeps.filter _,
      (PathList.keepOrder_relisted hbelow hnodup bottomUp).filter _⟩
    · have hentry := PathList.entryOf_mem_of_mem_relisted hbelow hnodup hmember
      exact hexists _ ((hentries _).1 hentry)
    · rw [List.mem_filter, ← hperm.mem_iff, hreported]

end

/-! ## A name that starts like another -/

def dashedScene : Scene where
  names path :=
    if path.names = [] then .ok ["a-b", "a"]
    else if path.names = ["a"] then .ok ["c"]
    else .error (.system .notDirectory path.text)
  status _ path := .ok ⟨if path.names ∈ [[], ["a"]] then .directory else .file, 0, 0⟩
  accepts _ := true
  mayDescend _ := true
  followLinks := true
  directory := ⟨"/", []⟩
  basepath := ""
  tidy := by
    intro path found h
    split at h
    · cases h
      exact ⟨by decide, by simpa using ⟨⟨by decide, by decide⟩, by decide, by decide⟩⟩
    · split at h
      · cases h
        exact ⟨by decide, by simpa using ⟨by decide, by decide⟩⟩
      · cases h

def strictSelection : Selection Unit := ⟨⟨"/", []⟩, .glob, true, true, true, "", .empty⟩

theorem visits_dashedScene {names : List String} (h : dashedScene.Visits names) :
    names = ["a-b"] ∨ names = ["a"] ∨ names = ["a", "c"] := by
  induction names using List.reverseRecOn with
  | nil => exact absurd rfl h.nonempty
  | append_singleton above name ih =>
      obtain ⟨rfl | ⟨habove, henters⟩, hname⟩ := Scene.visits_append_singleton.1 h
      · have hlisting : dashedScene.listing (dashedScene.pathAt []) = ["a-b", "a"] := rfl
        rw [hlisting] at hname
        simpa using hname
      · obtain rfl | rfl | rfl := ih habove
        · exact absurd henters (by decide)
        · have hlisting : dashedScene.listing (dashedScene.pathAt ["a"]) = ["c"] := by decide
          rw [hlisting] at hname
          simpa using hname
        · exact absurd henters (by decide)

theorem canList_dashedScene {names : List String} (h : dashedScene.Enters names) :
    dashedScene.CanList (dashedScene.pathAt names) := by
  obtain rfl | ⟨hvisits, henters⟩ := h
  · exact ⟨_, rfl⟩
  · obtain rfl | rfl | rfl := visits_dashedScene hvisits
    · exact absurd henters (by decide)
    · exact ⟨["c"], by decide⟩
    · exact absurd henters (by decide)

theorem showsSelection_dashedScene :
    dashedScene.ShowsSelection dashedScene.host strictSelection fun _ => True where
  shows := by
    have hshows := Scene.shows_host_walk dashedScene
    exact ⟨hshows.names, hshows.status, hshows.note, fun _ _ => .pure true, fun _ _ => .pure true,
      rfl, rfl⟩
  listed _ names h := canList_dashedScene h
  calm := by
    refine ⟨fun names failure henters hnames => ?_, nofun, nofun⟩
    obtain ⟨found, hfound⟩ := canList_dashedScene henters
    rw [hfound] at hnames
    cases hnames
  finite := (Set.toFinite {["a-b"], ["a"], ["a", "c"]}).subset fun _ h => visits_dashedScene h
  directory := rfl
  basepath := rfl

theorem listsEntries_dashedScene : dashedScene.host.ListsEntries := by
  intro path state names last h
  have hnames : dashedScene.names path = .ok names := by
    obtain ⟨_, -, hanswer⟩ := (Scene.shows_host_walk dashedScene).names path state trivial
    rw [hanswer] at h
    exact congrArg Prod.fst (Option.some.inj h)
  unfold dashedScene at hnames
  simp only at hnames
  split at hnames
  · cases hnames
    exact ⟨by decide, by simpa using ⟨⟨⟨by decide, by decide⟩, by decide, by decide⟩,
      ⟨by decide, by decide⟩, by decide, by decide⟩⟩
  · split at hnames
    · cases hnames
      exact ⟨by decide, by simpa using ⟨⟨by decide, by decide⟩, by decide, by decide⟩⟩
    · cases hnames

theorem dashed_names_lead_to_same_entries :
    ∃ paths list,
      Act.Answers (fun _ => True)
        (((Collection.selected strictSelection).relatives .any false).toList dashedScene.host
          (.selected strictSelection)) (.ok paths) ∧
      Act.Answers (fun _ => True) (PathList.make dashedScene.host "/" paths) (.ok list) ∧
      ∃ reported listed,
        Act.Answers (fun _ => True)
          (((Collection.selected strictSelection).pairs .files true).toList dashedScene.host
            (.selected strictSelection)) (.ok reported) ∧
        Act.Answers (fun _ => True)
          (((Collection.listed list).pairs .files true).toList dashedScene.host (.listed list))
          (.ok listed) ∧
        reported.Perm listed ∧
        ⟨⟨"/", ["a", "c"]⟩, "a/c"⟩ ∈ listed ∧ ⟨⟨"/", ["a"]⟩, "a"⟩ ∉ listed := by
  have hdirectory : Act.Answers (fun _ => True) (checkDirectory dashedScene.host "/")
      (.ok ⟨"/", []⟩) := fun state _ => ⟨state, trivial, rfl⟩
  obtain ⟨paths, list, hpaths, hlist, hagree⟩ :=
    listed_paths_lead_to_same_entries showsSelection_dashedScene listsEntries_dashedScene
      () trivial rfl (fun _ _ => ⟨_, rfl⟩) hdirectory false
  obtain ⟨reported, listed, hreported, hlisted, -, hperm, hmem, -, -⟩ := hagree .files true
  refine ⟨paths, list, hpaths, hlist, reported, listed, hreported, hlisted, hperm, ?_, ?_⟩
  · have hdirectory : dashedScene.Visits ["a"] :=
      Scene.visits_append_singleton.2 ⟨.inl rfl, by decide⟩
    have hfile : dashedScene.Visits ["a", "c"] :=
      Scene.visits_append_singleton.2 ⟨.inr ⟨hdirectory, by decide⟩, by decide⟩
    exact (hmem _).2 ⟨⟨["a", "c"], hfile, by decide, by decide⟩, by decide⟩
  · intro hentry
    exact absurd ((hmem _).1 hentry).2 (by decide)

end FileSelection
