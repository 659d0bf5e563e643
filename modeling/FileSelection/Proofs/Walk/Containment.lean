import FileSelection.Proofs.FileSystem.Descent
import FileSelection.Proofs.FileSystem.Questions
import FileSelection.Proofs.Sequence.Reading
import FileSelection.Proofs.Walk.Order
import FileSelection.Proofs.Walk.Watched
import Mathlib.Data.List.Forall2
import Mathlib.Data.List.Nodup

/-!
# Walks that follow no links

A walk that follows no links stays below its base: whatever links there are, the directories that it
lists are the base and what lies below it through real directories, and it lists none of them twice.
-/

namespace FileSelection

open FileSelection.Path

/-! ## A file system that does not change -/

structure FileSystem.IsShownBy {σ : Type} (fs : FileSystem) (host : Host σ) (steady : σ → Prop) :
    Prop where
  names : ∀ path, Act.Answers steady (host.names path) (fs.namesIn path)
  status : ∀ follow path, Act.Answers steady (host.status follow path) (fs.status follow path)
  note : ∀ note, Act.Answers steady (host.note note) (.ok ())

namespace FileSystem

theorem IsShownBy.isStill {σ : Type} {fs : FileSystem} {host : Host σ} {steady : σ → Prop}
    (h : fs.IsShownBy host steady) : host.IsStill steady where
  names path := (h.names path).repeats
  status follow path := (h.status follow path).repeats
  note note := (h.note note).repeats

theorem IsShownBy.kind_of_hasKind {σ : Type} {fs : FileSystem} {host : Host σ} {steady : σ → Prop}
    {follow answer : Bool} {kind : Kind} {path : Path} {state last : σ}
    (hshown : fs.IsShownBy host steady) (hstate : steady state)
    (h : host.hasKind follow kind path state = some (.ok answer, last)) :
    steady last ∧
      (answer = true ↔ ∃ status, fs.status follow path = .ok status ∧ status.kind = kind) := by
  obtain ⟨middle, hmiddle, hasked⟩ := (hshown.status follow path).attempt state hstate
  unfold Host.hasKind Host.status? at h
  rw [bind_assoc, Act.bind_of_ok hasked] at h
  cases hstatus : fs.status follow path with
  | ok status =>
      rw [hstatus] at h
      cases h
      exact ⟨hmiddle, by simp⟩
  | error failure =>
      rw [hstatus] at h
      simp only at h
      split at h
      · cases h
        exact ⟨hmiddle, by simp⟩
      · cases h

theorem IsShownBy.listNames {σ : Type} {fs : FileSystem} {host : Host σ} {steady : σ → Prop}
    {path : Path} {found : List String} (h : fs.IsShownBy host steady)
    (hfound : fs.namesIn path = .ok found) (strict : Bool) :
    Act.Answers steady (Walk.listNames host strict path) (.ok (Walk.sortNames found)) := by
  have hnames := (h.names path).attempt
  rw [hfound] at hnames
  exact hnames.bind (.pure _)

/-- Names lead from the base to a real directory, and so does the path that is made of them. -/
def Reaches (fs : FileSystem) (directory : Path) (base : Location) (names : List String)
    (place : Location) : Prop :=
  base.Leads names place ∧ fs.locate true (directory.below names) = .ok place

def Lists (fs : FileSystem) (directory path : Path) : Prop :=
  ∃ found name, fs.namesIn directory = .ok found ∧ name ∈ found ∧ path = directory.child name

section

variable {fs : FileSystem} {directory : Path} {base place : Location} {names : List String}

variable (hdirectory : directory.IsWritten) (hbase : base.node.kind = .directory)
  (htidy : base.IsTidy)

include hbase htidy

theorem Reaches.listing (h : fs.Reaches directory base names place) :
    ∃ found, fs.namesIn (directory.below names) = .ok found ∧ found.Nodup ∧
      ∀ name ∈ found, (directory.below names).child name = directory.below (names ++ [name]) := by
  obtain ⟨entries, hentries⟩ := h.1.isDirectory hbase
  obtain ⟨hnodup, hnames⟩ := htidy h.1 hentries
  refine ⟨_, namesIn_of_locate h.2 hentries, hnodup, fun name hname => ?_⟩
  have hname := hnames name hname
  exact (below_append_singleton hname.toIsName hname.notSelf).symm

include hdirectory

theorem Reaches.child {name : String} {found : List String} {status : Status}
    (h : fs.Reaches directory base names place)
    (hfound : fs.namesIn (directory.below names) = .ok found) (hname : name ∈ found)
    (hstatus : fs.status true (directory.below (names ++ [name])) = .ok status)
    (hkind : status.kind = .directory)
    (hlink : ∀ status, fs.status false (directory.below (names ++ [name])) = .ok status →
      status.kind ≠ .link) :
    ∃ below, fs.Reaches directory base (names ++ [name]) below := by
  obtain ⟨entries, hentries⟩ := h.1.isDirectory hbase
  have hlisted : entries.map Prod.fst = found := by
    rw [namesIn_of_locate h.2 hentries] at hfound
    exact Except.ok.inj hfound
  have hname := (htidy h.1 hentries).2 name (hlisted ▸ hname)
  have hchild : directory.below (names ++ [name]) = (directory.below names).child name :=
    below_append_singleton hname.toIsName hname.notSelf
  have hwritten : (directory.below names).IsWritten := hdirectory.below fun other hother =>
    ⟨(h.1.valid htidy other hother).toIsName, (h.1.valid htidy other hother).notSelf⟩
  obtain ⟨below, hbelow, rfl⟩ := status_eq_ok_iff.1 hstatus
  obtain ⟨node, hlookup, hfalse, hreal⟩ :=
    locate_child hwritten hname h.2 hentries (hchild ▸ hbelow)
  rw [← hchild] at hfalse
  obtain rfl : below = place.child name node := by
    refine hreal fun heq => hlink _ (status_eq_ok_iff.2 ⟨_, hfalse, rfl⟩) ?_
    rwa [Node.kind_status]
  rw [Node.kind_status] at hkind
  cases node with
  | directory entries' => exact ⟨_, .child h.1 hentries hlookup, hbelow⟩
  | file _ _ | pipe _ | link _ => cases hkind

end

end FileSystem

namespace Walk

/-! ## What a walk has listed and what it can still list -/

def Mark.Covers (mark : Mark) (names : List String) : Prop :=
  match mark.task with
  | .enter _ _ | .visit _ | .descend _ => mark.names <+: names
  | .report _ => False

def Mark.IsApart (first second : Mark) : Prop := ∀ names, first.Covers names → ¬ second.Covers names

section

variable (fs : FileSystem) (directory : Path) (base : Location)

/-- The task is about a directory below the base, or about an entry of a directory that was listed.
The names of the listed directories are `ways`. -/
def Mark.Belongs (ways : List (List String)) (mark : Mark) : Prop :=
  match mark.task with
  | .enter path _ => path = directory.below mark.names ∧
      ∃ place, fs.Reaches directory base mark.names place
  | .visit entry | .descend entry | .report entry => entry.path = directory.below mark.names ∧
      ∃ above name found, mark.names = above ++ [name] ∧ above ∈ ways ∧
        fs.namesIn (directory.below above) = .ok found ∧ name ∈ found

/-- How far a walk has come.  The directories that were listed lie below the base, and no task can
list one of them again. -/
structure Explores (marks : List Mark) (ways : List (List String)) (reported : List Entry) :
    Prop where
  belong : ∀ mark ∈ marks, mark.Belongs fs directory base ways
  apart : marks.Pairwise Mark.IsApart
  ahead : ∀ mark ∈ marks, ∀ way ∈ ways, ¬ mark.Covers way
  reached : ∀ way ∈ ways, ∃ place, fs.Reaches directory base way place
  once : ways.Nodup
  within : ∀ entry ∈ reported, ∃ way ∈ ways, fs.Lists (directory.below way) entry.path

end

section

variable {fs : FileSystem} {directory : Path} {base : Location} {whole : Mark}
  {others : List Mark} {ways : List (List String)} {reported : List Entry}

theorem Mark.Belongs.mono {more : List (List String)} {mark : Mark}
    (h : mark.Belongs fs directory base ways) (hmore : ∀ way ∈ ways, way ∈ more) :
    mark.Belongs fs directory base more := by
  unfold Belongs at h ⊢
  split at h
  · exact h
  · obtain ⟨hpath, above, name, found, hnames, habove, hfound⟩ := h
    exact ⟨hpath, above, name, found, hnames, hmore _ habove, hfound⟩
  · obtain ⟨hpath, above, name, found, hnames, habove, hfound⟩ := h
    exact ⟨hpath, above, name, found, hnames, hmore _ habove, hfound⟩
  · obtain ⟨hpath, above, name, found, hnames, habove, hfound⟩ := h
    exact ⟨hpath, above, name, found, hnames, hmore _ habove, hfound⟩

theorem Explores.replace (parts : List Mark)
    (h : Explores fs directory base (whole :: others) ways reported)
    (hbelong : ∀ part ∈ parts, part.Belongs fs directory base ways)
    (hcovers : ∀ part ∈ parts, ∀ names, part.Covers names → whole.Covers names)
    (hapart : parts.Pairwise Mark.IsApart) :
    Explores fs directory base (parts ++ others) ways reported := by
  obtain ⟨-, hothers⟩ := List.forall_mem_cons.1 h.belong
  obtain ⟨hwhole, hrest⟩ := List.pairwise_cons.1 h.apart
  obtain ⟨hfirst, hahead⟩ := List.forall_mem_cons.1 h.ahead
  refine ⟨List.forall_mem_append.2 ⟨hbelong, hothers⟩, ?_, ?_, h.reached, h.once, h.within⟩
  · refine List.pairwise_append.2 ⟨hapart, hrest, fun part hpart other hother names hcover => ?_⟩
    exact hwhole other hother names (hcovers part hpart names hcover)
  · refine List.forall_mem_append.2 ⟨fun part hpart way hway hcover => ?_, hahead⟩
    exact hfirst way hway (hcovers part hpart way hcover)

theorem Explores.rest (h : Explores fs directory base (whole :: others) ways reported) :
    Explores fs directory base others ways reported :=
  h.replace [] (by simp) (by simp) .nil

theorem Explores.enter {path : Path} {relative : String} {names found : List String}
    (h : Explores fs directory base (⟨.enter path relative, names⟩ :: others) ways reported)
    (hfound : fs.namesIn (directory.below names) = .ok found) (hnodup : found.Nodup)
    (hchild : ∀ name ∈ found,
      (directory.below names).child name = directory.below (names ++ [name])) :
    Explores fs directory base
      ((sortNames found).map (fun name =>
        ⟨.visit (entryOf (directory.below names) relative name), names ++ [name]⟩) ++ others)
      (names :: ways) reported := by
  obtain ⟨⟨-, hreached⟩, hothers⟩ := List.forall_mem_cons.1 h.belong
  obtain ⟨hwhole, hrest⟩ := List.pairwise_cons.1 h.apart
  obtain ⟨hfirst, hahead⟩ := List.forall_mem_cons.1 h.ahead
  have hself : Mark.Covers ⟨.enter path relative, names⟩ names := List.prefix_rfl
  have hbelow {name : String} {others : List String} (hcover : names ++ [name] <+: others) :
      Mark.Covers ⟨.enter path relative, names⟩ others := (List.prefix_append _ _).trans hcover
  refine ⟨?_, ?_, ?_, List.forall_mem_cons.2 ⟨hreached, h.reached⟩, ?_, ?_⟩
  · refine List.forall_mem_append.2 ⟨?_, fun other hother => ?_⟩
    · rw [List.forall_mem_map]
      intro name hname
      have hname := List.mem_mergeSort.1 hname
      exact ⟨hchild name hname, names, name, found, rfl, List.mem_cons_self, hfound, hname⟩
    · exact (hothers other hother).mono fun way hway => List.mem_cons_of_mem _ hway
  · refine List.pairwise_append.2 ⟨?_, hrest, ?_⟩
    · rw [List.pairwise_map]
      refine (List.mergeSort_perm _ _).nodup_iff.2 hnodup |>.imp fun {first second} hne others => ?_
      rintro ⟨more, rfl⟩ ⟨more', heq⟩
      simp at heq
      exact hne heq.1.symm
    · rw [List.forall_mem_map]
      exact fun name _ other hother others hcover => hwhole other hother others (hbelow hcover)
  · refine List.forall_mem_append.2 ⟨?_, fun other hother => ?_⟩
    · rw [List.forall_mem_map]
      intro name _ way hway hcover
      obtain rfl | hway := List.mem_cons.1 hway
      · exact absurd hcover.length_le (by simp)
      · exact hfirst way hway (hbelow hcover)
    · refine List.forall_mem_cons.2 ⟨hwhole other hother names hself, hahead other hother⟩
  · exact List.nodup_cons.2 ⟨fun hmem => hfirst names hmem hself, h.once⟩
  · intro entry hentry
    obtain ⟨way, hway, hlists⟩ := h.within entry hentry
    exact ⟨way, List.mem_cons_of_mem _ hway, hlists⟩

end

section

variable {σ : Type} {fs : FileSystem} {host : Host σ} {walk : Walk σ} {steady : σ → Prop}
  {directory : Path} {base : Location} {others : List Mark} {ways : List (List String)}
  {reported : List Entry} {state last : σ}
  (hshown : fs.IsShownBy host steady) (hdirectory : directory.IsWritten)
  (hbase : base.node.kind = .directory) (htidy : base.IsTidy) (hfollow : walk.followLinks = false)
  (hstate : steady state)

omit hshown hdirectory hstate in
include hbase htidy in
theorem Explores.report {entry : Entry} {names : List String}
    (h : Explores fs directory base (⟨.report entry, names⟩ :: others) ways reported) :
    Explores fs directory base others ways (entry :: reported) := by
  obtain ⟨⟨hpath, above, name, found, rfl, habove, hfound, hname⟩, -⟩ :=
    List.forall_mem_cons.1 h.belong
  obtain ⟨place, hplace⟩ := h.reached above habove
  obtain ⟨found', hfound', -, hchild⟩ := hplace.listing hbase htidy
  obtain rfl : found = found' := by
    rw [hfound] at hfound'
    exact Except.ok.inj hfound'
  obtain ⟨hbelong, hapart, hahead, hreached, honce, hwithin⟩ := h.rest
  refine ⟨hbelong, hapart, hahead, hreached, honce, List.forall_mem_cons.2 ⟨?_, hwithin⟩⟩
  exact ⟨above, habove, found, name, hfound, hname, hpath.trans (hchild name hname).symm⟩

include hshown hdirectory hbase htidy hfollow hstate in
theorem reaches_of_entersInto {entry : Entry} {above found : List String} {name : String}
    {place : Location} (hplace : fs.Reaches directory base above place)
    (hfound : fs.namesIn (directory.below above) = .ok found) (hname : name ∈ found)
    (hpath : entry.path = directory.below (above ++ [name]))
    (h : walk.entersInto host entry state = some (.ok true, last)) :
    ∃ below, fs.Reaches directory base (above ++ [name]) below := by
  obtain ⟨descendable, middle, hdescendable, hrest⟩ := Act.bind_eq_ok_iff.1 h
  cases descendable with
  | false => cases hrest
  | true =>
      unfold isDescendable at hdescendable
      rw [hfollow, hpath] at hdescendable
      obtain ⟨isLink, between, hisLink, hrest⟩ := Act.bind_eq_ok_iff.1 hdescendable
      cases isLink with
      | true => cases hrest
      | false =>
          obtain ⟨hbetween, hlink⟩ := hshown.kind_of_hasKind hstate hisLink
          obtain ⟨-, hkind⟩ := hshown.kind_of_hasKind hbetween hrest
          obtain ⟨status, hstatus, hkind⟩ := hkind.1 rfl
          refine hplace.child hdirectory hbase htidy hfound hname hstatus hkind ?_
          intro status hstatus heq
          exact absurd (hlink.2 ⟨status, hstatus, heq⟩) (by simp)

include hshown hdirectory hbase htidy hfollow hstate in
/-- What a task that is carried out lists lies ahead, and the tasks that take its place can list no
more than it could. -/
theorem Explores.perform {whole : Mark} {found : Option Entry} {tasks : List Task}
    (h : Explores fs directory base (whole :: others) ways reported)
    (hperform : walk.perform host whole.task state = some (.ok (found, tasks), last)) :
    ∃ (parts : List Mark) (more : List (List String)), parts.map Mark.task = tasks ∧
      whole.task.listing = more.map directory.below ∧
        Explores fs directory base (parts ++ others) (more ++ ways) (found.toList ++ reported) := by
  obtain ⟨hwhole, -⟩ := List.forall_mem_cons.1 h.belong
  obtain ⟨task, names⟩ := whole
  cases task with
  | enter path relative =>
      obtain ⟨place, hplace⟩ := hwhole.2
      obtain rfl : path = directory.below names := hwhole.1
      obtain ⟨entries, hentries, hnodup, hchild⟩ := hplace.listing hbase htidy
      obtain ⟨middle, -, hlisted⟩ := hshown.listNames hentries walk.strict state hstate
      rw [Walk.perform, Act.bind_of_ok hlisted] at hperform
      cases hperform
      exact ⟨_, [names], by simp, rfl, h.enter hentries hnodup hchild⟩
  | visit entry =>
      have hdescend : Mark.Belongs fs directory base ways ⟨.descend entry, names⟩ := hwhole
      have hreport : Mark.Belongs fs directory base ways ⟨.report entry, names⟩ := hwhole
      cases hperform
      cases walk.bottomUp with
      | true =>
          refine ⟨[⟨.descend entry, names⟩, ⟨.report entry, names⟩], [], rfl, rfl, ?_⟩
          refine h.replace _ (by simpa using ⟨hdescend, hreport⟩) ?_ ?_
          · simp [Mark.Covers]
          · simp [Mark.IsApart, Mark.Covers]
      | false =>
          refine ⟨[⟨.report entry, names⟩, ⟨.descend entry, names⟩], [], rfl, rfl, ?_⟩
          refine h.replace _ (by simpa using ⟨hreport, hdescend⟩) ?_ ?_
          · simp [Mark.Covers]
          · simp [Mark.IsApart, Mark.Covers]
  | descend entry =>
      obtain ⟨enters, middle, henters, hrest⟩ := Act.bind_eq_ok_iff.1 hperform
      cases enters with
      | false =>
          cases hrest
          exact ⟨[], [], rfl, rfl, h.rest⟩
      | true =>
          cases hrest
          obtain ⟨hpath, above, name, entries, rfl, habove, hentries, hname⟩ := hwhole
          obtain ⟨place, hplace⟩ := h.reached above habove
          have hbelow := reaches_of_entersInto hshown hdirectory hbase htidy hfollow hstate hplace
            hentries hname hpath henters
          refine ⟨[⟨.enter entry.path entry.relative, above ++ [name]⟩], [], rfl, rfl, ?_⟩
          exact h.replace _ (by simpa using ⟨hpath, hbelow⟩) (by simp [Mark.Covers])
            (List.pairwise_singleton _ _)
  | report entry =>
      obtain ⟨accepted, middle, -, hrest⟩ := Act.bind_eq_ok_iff.1 hperform
      cases accepted with
      | false =>
          cases hrest
          exact ⟨[], [], rfl, rfl, h.rest⟩
      | true =>
          cases hrest
          exact ⟨[], [], rfl, rfl, h.report hbase htidy⟩

include hshown hbase htidy hstate in
theorem Explores.listing_of_failure {whole : Mark} {failure : Failure}
    (h : Explores fs directory base (whole :: others) ways reported)
    (hperform : walk.perform host whole.task state = some (.error failure, last)) :
    whole.task.listing = [] := by
  obtain ⟨hwhole, -⟩ := List.forall_mem_cons.1 h.belong
  obtain ⟨task, names⟩ := whole
  cases task with
  | enter path relative =>
      obtain ⟨place, hplace⟩ := hwhole.2
      obtain rfl : path = directory.below names := hwhole.1
      obtain ⟨entries, hentries, -⟩ := hplace.listing hbase htidy
      obtain ⟨middle, -, hlisted⟩ := hshown.listNames hentries walk.strict state hstate
      rw [Walk.perform, Act.bind_of_ok hlisted] at hperform
      cases hperform
  | visit _ | descend _ | report _ => rfl

end

/-! ## The course of a watched walk -/

section

variable {σ : Type} {fs : FileSystem} {host : Host σ} {walk : Walk σ} {steady : σ → Prop}
  {directory : Path} {base : Location}

def HasExplored (fs : FileSystem) (directory : Path) (base : Location) (steady : σ → Prop)
    (marks : List Mark) : List Entry × List Path × σ → Prop
  | (reported, listed, state) => steady state ∧ ∃ ways, listed = ways.map directory.below ∧
      Explores fs directory base marks ways reported

variable (hshown : fs.IsShownBy host steady) (hdirectory : directory.IsWritten)
  (hbase : base.node.kind = .directory) (htidy : base.IsTidy) (hfollow : walk.followLinks = false)
  (haccept : ∀ entry, Act.Repeats steady (walk.accept entry))
  (hdescend : ∀ entry, Act.Repeats steady (walk.mayDescend entry))

include hshown hdirectory hbase htidy hfollow haccept hdescend

theorem HasExplored.follow {marks : List Mark} {before after : List Entry × List Path × σ}
    {result : Except Failure (List Task ⊕ Unit)}
    (h : HasExplored fs directory base steady marks before)
    (hstep : walk.watched.follow host.watched (fun entry => Act.gather (entry :: ·))
      (marks.map Mark.task) before = some (result, after)) :
    ∃ following, HasExplored fs directory base steady following after ∧
      ∀ tasks, result = .ok (.inl tasks) → following.map Mark.task = tasks := by
  obtain ⟨reported, listed, state⟩ := before
  obtain ⟨hstate, ways, rfl, hexplores⟩ := h
  have hrepeats := repeats_perform hshown.isStill haccept hdescend
  cases marks with
  | nil =>
      cases hstep
      exact ⟨[], ⟨hstate, ways, rfl, hexplores⟩, by simp⟩
  | cons whole others =>
      obtain ⟨⟨found, tasks⟩, ⟨listed₁, middle⟩, hwatched, hrest⟩ |
          ⟨failure, ⟨listed₁, middle⟩, hwatched, heq⟩ := Act.beside_bind_eq_some_iff.1 hstep
      · rw [perform_watched] at hwatched
        obtain ⟨hdone, rfl⟩ := Act.beside_eq_some_iff.1 hwatched
        obtain ⟨parts, more, rfl, hlisting, hparts⟩ :=
          hexplores.perform hshown hdirectory hbase htidy hfollow hstate hdone
        have hstays := (hrepeats _).stays hstate hdone
        have hlisted : whole.task.listing ++ ways.map directory.below =
            (more ++ ways).map directory.below := by
          rw [hlisting, List.map_append]
        cases found with
        | none =>
            cases hrest
            exact ⟨parts ++ others, ⟨hstays, more ++ ways, hlisted, hparts⟩, by simp⟩
        | some entry =>
            cases hrest
            exact ⟨parts ++ others, ⟨hstays, more ++ ways, hlisted, hparts⟩, by simp⟩
      · rw [perform_watched] at hwatched
        obtain ⟨hdone, rfl⟩ := Act.beside_eq_some_iff.1 hwatched
        cases heq
        rw [hexplores.listing_of_failure hshown hbase htidy hstate hdone]
        exact ⟨others, ⟨(hrepeats _).stays hstate hdone, ways, rfl, hexplores.rest⟩, by simp⟩

theorem HasExplored.passes {marks : List Mark} {before after : List Entry × List Path × σ}
    (h : HasExplored fs directory base steady marks before)
    (hpasses : Act.Passes (walk.watched.follow host.watched fun entry => Act.gather (entry :: ·))
      (marks.map Mark.task) before after) :
    ∃ following, HasExplored fs directory base steady following after := by
  generalize hstack : marks.map Mark.task = stack at hpasses
  induction hpasses generalizing marks with
  | here => exact ⟨marks, h⟩
  | last hstep =>
      subst hstack
      obtain ⟨following, hfollowing, -⟩ :=
        h.follow hshown hdirectory hbase htidy hfollow haccept hdescend hstep
      exact ⟨following, hfollowing⟩
  | next hstep _ ih =>
      subst hstack
      obtain ⟨following, hfollowing, hnext⟩ :=
        h.follow hshown hdirectory hbase htidy hfollow haccept hdescend hstep
      exact ih hfollowing (hnext _ rfl)

end

/-- Wherever a walk that follows no links has come to: each directory that it has listed is the base
or lies below it and is reached through real directories only, none of them was listed twice, and
what was reported are entries of directories that were listed. -/
theorem walk_without_links_stays_below {σ : Type} {fs : FileSystem} {host : Host σ}
    {walk : Walk σ} {steady : σ → Prop} {text : String} {base : Location}
    (hshown : fs.IsShownBy host steady) (hlocate : fs.locate true (.ofText text) = .ok base)
    (hbase : base.node.kind = .directory) (htidy : base.IsTidy)
    (hfollow : walk.followLinks = false)
    (haccept : ∀ entry, Act.Repeats steady (walk.accept entry))
    (hdescend : ∀ entry, Act.Repeats steady (walk.mayDescend entry))
    {basepath : String} {state last : σ} {reported : List Entry} {listed : List Path}
    (hstate : steady state)
    (h : Act.Passes (walk.watched.follow host.watched fun entry => Act.gather (entry :: ·))
      (start (.ofText text) basepath) ([], [], state) (reported, listed, last)) :
    ∃ places : List Location,
      List.Forall₂ (fun path place => fs.locate true path = .ok place ∧
        ∃ names, base.Leads names place) listed places ∧
      (places.map Location.names).Nodup ∧
      ∀ entry ∈ reported, ∃ path ∈ listed, fs.Lists path entry.path := by
  have hstart : HasExplored fs (.ofText text) base steady [⟨.enter (.ofText text) basepath, []⟩]
      ([], [], state) := by
    refine ⟨hstate, [], rfl, ⟨?_, List.pairwise_singleton _ _, by simp, by simp, .nil, by simp⟩⟩
    simpa [Mark.Belongs] using ⟨base, .base, by simpa using hlocate⟩
  obtain ⟨following, -, ways, rfl, hexplores⟩ :=
    hstart.passes hshown (isWritten_ofText text) hbase htidy hfollow haccept hdescend h
  have : Nonempty Location := ⟨base⟩
  choose! place hplace using hexplores.reached
  refine ⟨ways.map place, ?_, ?_, fun entry hentry => ?_⟩
  · rw [List.forall₂_map_left_iff, List.forall₂_map_right_iff, List.forall₂_same]
    exact fun way hway => ⟨(hplace way hway).2, way, (hplace way hway).1⟩
  · have hnames : (ways.map place).map Location.names = ways.map (base.names ++ ·) := by
      rw [List.map_map]
      exact List.map_congr_left fun way hway => (hplace way hway).1.names_eq
    rw [hnames]
    exact hexplores.once.map (List.append_right_injective _)
  · obtain ⟨way, hway, hlists⟩ := hexplores.within entry hentry
    exact ⟨_, List.mem_map_of_mem hway, hlists⟩

end Walk

/-! ## A link back to the base -/

theorem Session.isShownBy_host {τ : Type} (files : FileSystem) :
    files.IsShownBy (host : Host (Session τ)) fun session => session.files = files where
  names path := by
    rintro session rfl
    exact ⟨session, rfl, rfl⟩
  status follow path := by
    rintro session rfl
    exact ⟨session, rfl, rfl⟩
  note note := fun session hsession =>
    ⟨{ session with notes := note :: session.notes }, hsession, rfl⟩

namespace FileSystem

def backLink : FileSystem where
  root := .directory [("a", .directory [("up", .link "..")])]
  working := []

theorem locate_backLink :
    backLink.locate true ⟨"/", []⟩ = .ok backLink.rootLocation ∧
    backLink.namesIn ⟨"/", []⟩ = .ok ["a"] ∧
    backLink.namesIn ⟨"/", ["a"]⟩ = .ok ["up"] ∧
    (∀ through, backLink.status through ⟨"/", ["a"]⟩ = .ok ⟨.directory, 0, 0⟩) ∧
    backLink.status false ⟨"/", ["a", "up"]⟩ = .ok ⟨.link, 2, 0⟩ := by
  have htexts : Path.text ⟨"/", []⟩ = "/" ∧ Path.text ⟨"/", ["a"]⟩ = "/a" ∧
      Path.text ⟨"/", ["a", "up"]⟩ = "/a/up" := by decide
  have hsteps : steps "/" = ["."] ∧ steps "/a" = ["a"] ∧ steps "/a/up" = ["a", "up"] := by decide
  have hsizes : "/".utf8ByteSize = 1 ∧ "/a".utf8ByteSize = 2 ∧ "/a/up".utf8ByteSize = 5 ∧
      "a".utf8ByteSize = 1 ∧ "up".utf8ByteSize = 2 := by decide
  unfold namesIn status locate
  simp only [htexts, hsteps]
  simp [backLink, rootLocation, follow, Path.isAbsolute, hsizes, pathLimit, nameLimit,
    Location.child]
  exact ⟨rfl, rfl, rfl, rfl⟩

theorem isTidy_backLink : backLink.rootLocation.IsTidy := by
  have hplaces : ∀ {names place}, backLink.rootLocation.Leads names place →
      place.node = backLink.root ∨ place.node = .directory [("up", .link "..")] := by
    intro names place h
    induction h with
    | base => exact .inl rfl
    | child _ hentries hlookup ih =>
        have hentry := Keyed.mem_of_lookup hlookup
        refine .inr ?_
        obtain hplace | hplace := ih
        · rw [Node.directory.inj (hentries.symm.trans hplace)] at hentry
          obtain ⟨-, hnode⟩ := Prod.mk.inj (List.mem_singleton.1 hentry)
          exact hnode
        · rw [Node.directory.inj (hentries.symm.trans hplace)] at hentry
          cases (Prod.mk.inj (List.mem_singleton.1 hentry)).2
  intro names place entries h hentries
  obtain hroot | hbelow := hplaces h
  · obtain rfl := Node.directory.inj (hroot.symm.trans hentries)
    exact ⟨by decide, by simpa using ⟨⟨by decide, by decide⟩, by decide, by decide⟩⟩
  · obtain rfl := Node.directory.inj (hbelow.symm.trans hentries)
    exact ⟨by decide, by simpa using ⟨⟨by decide, by decide⟩, by decide, by decide⟩⟩

end FileSystem

def unlinkedSelection : Selection (Session Unit) :=
  ⟨⟨"/", []⟩, .glob, true, false, false, "", .empty⟩

def unlinkedWalk : Walk (Session Unit) := unlinkedSelection.walk Session.host false

section

variable {session : Session Unit} (hfiles : session.files = .backLink)

include hfiles

theorem passes_backLink :
    Act.Passes (unlinkedWalk.watched.follow Session.host.watched
      fun entry => Act.gather (entry :: ·)) (Walk.start (.ofText "/") "") ([], [], session)
      ([⟨⟨"/", ["a", "up"]⟩, "a/up"⟩, ⟨⟨"/", ["a"]⟩, "a"⟩], [⟨"/", ["a"]⟩, ⟨"/", []⟩], session) := by
  obtain ⟨-, hroot, hbelow, hdirectory, hlink⟩ := FileSystem.locate_backLink
  have hfollow {task : Walk.Task} {tasks rest : List Walk.Task} {reported : List Entry}
      {listed : List Path} (h : unlinkedWalk.perform Session.host task session =
        some (.ok (none, tasks), session)) :
      unlinkedWalk.watched.follow Session.host.watched (fun entry => Act.gather (entry :: ·))
          (task :: rest) (reported, listed, session) =
        some (.ok (.inl (tasks ++ rest)), reported, task.listing ++ listed, session) := by
    have hwatched : unlinkedWalk.watched.perform Session.host.watched task (listed, session) =
        some (.ok (none, tasks), task.listing ++ listed, session) := by
      rw [Walk.perform_watched]
      exact Act.beside_eq_some_iff.2 ⟨h, rfl⟩
    exact Act.bind_of_ok (Act.beside_eq_some_iff.2 ⟨hwatched, rfl⟩)
  have hkind {through : Bool} {kind : Kind} {path : Path} {status : Status}
      (h : FileSystem.backLink.status through path = .ok status) :
      Session.host.hasKind through kind path session =
        some (.ok (status.kind == kind), session) :=
    Host.hasKind_of_ok kind (Session.host_status hfiles h)
  have hdescendable : unlinkedWalk.isDescendable Session.host ⟨"/", ["a"]⟩ session =
      some (.ok true, session) :=
    (Act.bind_of_ok (hkind (hdirectory false))).trans (hkind (hdirectory true))
  have henters : unlinkedWalk.entersInto Session.host ⟨⟨"/", ["a"]⟩, "a"⟩ session =
      some (.ok true, session) := Act.bind_of_ok hdescendable
  have hlinked : unlinkedWalk.isDescendable Session.host ⟨"/", ["a", "up"]⟩ session =
      some (.ok false, session) := Act.bind_of_ok (hkind hlink)
  have hleaves : unlinkedWalk.entersInto Session.host ⟨⟨"/", ["a", "up"]⟩, "a/up"⟩ session =
      some (.ok false, session) := Act.bind_of_ok hlinked
  have hnames := Session.host_names hfiles hroot
  have hnames' := Session.host_names hfiles hbelow
  refine .next (hfollow (Walk.perform_enter_of_sorted "" hnames (by simp))) ?_
  refine .next rfl <| .next rfl <| .next (hfollow (Act.bind_of_ok henters)) ?_
  refine .next (hfollow (Walk.perform_enter_of_sorted "a" hnames' (by simp))) ?_
  refine .next rfl <| .next rfl <| .next (hfollow (Act.bind_of_ok hleaves)) ?_
  exact .here

end

theorem walk_passes_by_back_link :
    ∃ places : List Location,
      List.Forall₂ (fun path place => FileSystem.backLink.locate true path = .ok place ∧
        ∃ names, FileSystem.backLink.rootLocation.Leads names place)
        [⟨"/", ["a"]⟩, ⟨"/", []⟩] places ∧
      (places.map Location.names).Nodup ∧
      ∀ entry ∈ ([⟨⟨"/", ["a", "up"]⟩, "a/up"⟩, ⟨⟨"/", ["a"]⟩, "a"⟩] : List Entry),
        ∃ path ∈ ([⟨"/", ["a"]⟩, ⟨"/", []⟩] : List Path),
          FileSystem.backLink.Lists path entry.path := by
  have htext : Path.ofText "/" = ⟨"/", []⟩ := by decide
  have hlocate : FileSystem.backLink.locate true (.ofText "/") =
      .ok FileSystem.backLink.rootLocation := htext ▸ FileSystem.locate_backLink.1
  have hshown := @Session.isShownBy_host Unit .backLink
  have hpure : unlinkedSelection.rules.IsPure fun session => session.files = .backLink :=
    ⟨List.forall_mem_nil _, List.forall_mem_nil _, List.forall_mem_nil _⟩
  have haccept : ∀ entry, Act.Repeats (fun session => session.files = .backLink)
      (unlinkedWalk.accept entry) := hpure.repeats_accepts hshown.isStill
  have hdescend : ∀ entry, Act.Repeats (fun session => session.files = .backLink)
      (unlinkedWalk.mayDescend entry) := hpure.repeats_mayDescend hshown.isStill
  have hfiles : (Session.ofFiles FileSystem.backLink ()).files = .backLink := rfl
  have hpasses := passes_backLink hfiles
  exact Walk.walk_without_links_stays_below hshown hlocate rfl FileSystem.isTidy_backLink rfl
    haccept hdescend rfl hpasses

end FileSelection
