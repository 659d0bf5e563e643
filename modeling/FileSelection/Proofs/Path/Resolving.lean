import FileSelection.Path.Resolve
import FileSelection.Proofs.Act
import FileSelection.Proofs.FileSystem.Descent

/-!
# Resolving written names

What the names of a written path lead to, link by link, is a relation between paths.  It says
nothing of the links that have been met before, nor of how many may be followed at one time; the
search for canonical paths, which keeps count of both, finds what the relation says, since no link
can be met again while it is being followed.
-/

namespace FileSelection.Path

open Act FileSelection.Text

variable {σ : Type} {steady : σ → Prop} {host : Host σ} {path other last last' reached : Path}
  {name target : String} {names : List String} {links links' budget : Nat} {followed : Followed}

/-! ## Paths in parts -/

theorem startsWith_slash (text : String) : text.startsWith "/" = (ofText text).isAbsolute := by
  have hslash : "/".toList = ['/'] := rfl
  rw [Bool.eq_iff_iff, String.startsWith_string_iff, hslash, ofText, isAbsolute]
  cases text.toList with
  | nil => simp [rootOf]
  | cons c rest =>
      by_cases hc : c = '/'
      · subst hc
        unfold rootOf
        split <;> simp_all
      · have hroot : rootOf (c :: rest) = "" := rootOf_eq_empty (by simpa using hc)
        simp [hroot, Ne.symm hc]

theorem up_below (hname : name ≠ "..") : (path.below [name]).up = path := by
  simp [up, below]

theorem up_below_parent : (path.below [".."]).up = (path.below [".."]).below [".."] := by
  simp [up, below]

theorem join_below (path below : Path) (names : List String) :
    path.join (below.below names) = (path.join below).below names := by
  have habsolute : (below.below names).isAbsolute = below.isAbsolute := rfl
  unfold join
  rw [habsolute]
  split
  · rfl
  · simp [Path.below]

theorem collapse_append_singleton (names : List String) (name : String) :
    collapse (names ++ [name]) =
      if name = ".." then (collapse names).dropLast else collapse names ++ [name] := by
  unfold collapse
  rw [List.foldl_append, List.foldl_cons, List.foldl_nil]
  by_cases h : name = ".."
  · simp [h, List.dropLast_reverse]
  · simp [h]

theorem collapse_of_valid {names : List String} (h : ∀ name ∈ names, name ≠ "..") :
    collapse names = names := by
  induction names using List.reverseRecOn with
  | nil => rfl
  | append_singleton names name ih =>
      obtain ⟨hnames, hname⟩ := List.forall_mem_append.1 h
      rw [collapse_append_singleton, if_neg (hname name (by simp)), ih hnames]

/-! ## Links -/

def origin (path : Path) : Path := if path.isAbsolute then ⟨"/", []⟩ else ⟨"", []⟩

def startAt (path : Path) (text : String) : Path :=
  if (ofText text).isAbsolute then ⟨"/", []⟩ else path

def IsNoLink (steady : σ → Prop) (host : Host σ) (path : Path) : Prop :=
  ∃ status, Answers steady (host.status false path) (.ok status) ∧ status.kind ≠ .link

def IsLinkTo (steady : σ → Prop) (host : Host σ) (path : Path) (target : String) : Prop :=
  (∃ status, Answers steady (host.status false path) (.ok status) ∧ status.kind = .link) ∧
    Answers steady (host.linkTarget path) (.ok target)

/-- Names lead from one path to another one, through this number of links. -/
inductive Resolves (steady : σ → Prop) (host : Host σ) : Path → List String → Path → Nat → Prop
  | done {path : Path} : Resolves steady host path [] path 0
  | self {path last : Path} {name : String} {names : List String} {links : Nat} :
      name = "" ∨ name = "." → Resolves steady host path names last links →
        Resolves steady host path (name :: names) last links
  | parent {path last : Path} {names : List String} {links : Nat} :
      Resolves steady host path.up names last links →
        Resolves steady host path (".." :: names) last links
  | entry {path last : Path} {name : String} {names : List String} {links : Nat} :
      IsEntryName name → IsNoLink steady host (path.below [name]) →
        Resolves steady host (path.below [name]) names last links →
          Resolves steady host path (name :: names) last links
  | link {path reached last : Path} {name target : String} {names : List String}
      {links links' : Nat} :
      IsEntryName name → IsLinkTo steady host (path.below [name]) target →
        Resolves steady host (path.startAt target) (partsOf target) reached links →
          Resolves steady host reached names last links' →
            Resolves steady host path (name :: names) last (links + 1 + links')

theorem IsEntryName.ordinary (h : IsEntryName name) : ¬(name = "" ∨ name = ".") ∧ name ≠ ".." :=
  ⟨not_or.2 ⟨h.nonempty, h.notSelf⟩, h.notParent⟩

theorem not_isEntryName_parent : ¬IsEntryName ".." := fun h => h.notParent rfl

theorem IsNoLink.not_isLinkTo {state : σ} (hstate : steady state)
    (h : IsNoLink steady host path) : ¬IsLinkTo steady host path target := by
  obtain ⟨status, hstatus, hkind⟩ := h
  rintro ⟨⟨status', hstatus', hkind'⟩, -⟩
  cases hstatus.unique hstate hstatus'
  exact hkind hkind'

theorem IsLinkTo.unique {target' : String} {state : σ} (hstate : steady state)
    (h : IsLinkTo steady host path target) (h' : IsLinkTo steady host path target') :
    target = target' :=
  Except.ok.inj (h.2.unique hstate h'.2)

theorem Resolves.unique {state : σ} (hstate : steady state)
    (h : Resolves steady host path names last links)
    (h' : Resolves steady host path names last' links') : last = last' ∧ links = links' := by
  induction h generalizing last' links' with
  | done =>
      cases h'
      exact ⟨rfl, rfl⟩
  | self hname _ ih =>
      cases h' with
      | self _ hrest => exact ih hrest
      | parent _ => exact absurd hname (by decide)
      | entry hentry _ _ => exact absurd hname hentry.ordinary.1
      | link hentry _ _ _ => exact absurd hname hentry.ordinary.1
  | parent _ ih =>
      cases h' with
      | self hname _ => exact absurd hname (by decide)
      | parent hrest => exact ih hrest
      | entry hentry _ _ => exact absurd hentry not_isEntryName_parent
      | link hentry _ _ _ => exact absurd hentry not_isEntryName_parent
  | entry hentry hnoLink _ ih =>
      cases h' with
      | self hname _ => exact absurd hname hentry.ordinary.1
      | parent _ => exact absurd hentry not_isEntryName_parent
      | entry _ _ hrest => exact ih hrest
      | link _ hlink _ _ => exact absurd hlink (hnoLink.not_isLinkTo hstate)
  | link hentry hlink _ _ ihtarget ihrest =>
      cases h' with
      | self hname _ => exact absurd hname hentry.ordinary.1
      | parent _ => exact absurd hentry not_isEntryName_parent
      | entry _ hnoLink _ => exact absurd hlink (hnoLink.not_isLinkTo hstate)
      | link _ hlink' htarget hrest =>
          cases hlink.unique hstate hlink'
          obtain ⟨rfl, rfl⟩ := ihtarget htarget
          obtain ⟨rfl, rfl⟩ := ihrest hrest
          exact ⟨rfl, rfl⟩

def leading (names : List String) : List String :=
  names.filter fun name => ¬(name = "" ∨ name = ".")

theorem leading_cons_of_spare (h : name = "" ∨ name = ".") (names : List String) :
    leading (name :: names) = leading names :=
  List.filter_cons_of_neg (by simpa [or_iff_not_imp_left] using h)

theorem leading_cons (h : ¬(name = "" ∨ name = ".")) (names : List String) :
    leading (name :: names) = name :: leading names :=
  List.filter_cons_of_pos (by simpa using h)

theorem Resolves.leading (h : Resolves steady host path names last links) :
    Resolves steady host path (leading names) last links := by
  induction h with
  | done => exact .done
  | self hname _ ih => rwa [leading_cons_of_spare hname]
  | parent _ ih =>
      rw [leading_cons (by decide)]
      exact .parent ih
  | entry hentry hnoLink _ ih =>
      rw [leading_cons hentry.ordinary.1]
      exact .entry hentry hnoLink ih
  | link hentry hlink htarget _ _ ih =>
      rw [leading_cons hentry.ordinary.1]
      exact .link hentry hlink htarget ih

theorem Resolves.of_leading (h : Resolves steady host path (Path.leading names) last links) :
    Resolves steady host path names last links := by
  induction names generalizing path links with
  | nil => exact h
  | cons name names ih =>
      by_cases hname : name = "" ∨ name = "."
      · rw [leading_cons_of_spare hname] at h
        exact .self hname (ih h)
      · rw [leading_cons hname] at h
        cases h with
        | self hspare _ => exact absurd hspare hname
        | parent hrest => exact .parent (ih hrest)
        | entry hentry hnoLink hrest => exact .entry hentry hnoLink (ih hrest)
        | link hentry hlink htarget hrest => exact .link hentry hlink htarget (ih hrest)

/-! ## The links that have been met -/

/-- The link at a path leads to another path in the end, through this number of further links. -/
def Ends (steady : σ → Prop) (host : Host σ) (path last : Path) (links : Nat) : Prop :=
  ∃ (above : Path) (name target : String), path = above.below [name] ∧
    IsLinkTo steady host path target ∧
      Resolves steady host (above.startAt target) (partsOf target) last links

theorem below_singleton_inj {name' : String} (h : path.below [name] = other.below [name']) :
    path = other ∧ name = name' := by
  obtain ⟨root, names⟩ := path
  obtain ⟨root', names'⟩ := other
  simp only [below, Path.mk.injEq] at h
  obtain ⟨rfl, hnames⟩ := h
  obtain ⟨rfl, hname⟩ := List.append_inj' hnames rfl
  exact ⟨rfl, List.singleton_inj.1 hname⟩

theorem Ends.unique {state : σ} (hstate : steady state) (h : Ends steady host path last links)
    (h' : Ends steady host path last' links') : last = last' ∧ links = links' := by
  obtain ⟨above, name, target, rfl, hlink, hresolves⟩ := h
  obtain ⟨above', name', target', hpath, hlink', hresolves'⟩ := h'
  obtain ⟨rfl, rfl⟩ := below_singleton_inj hpath
  cases hlink.unique hstate hlink'
  exact hresolves.unique hstate hresolves'

def Noted (steady : σ → Prop) (host : Host σ) (followed : Followed) : Prop :=
  ∀ path last, followed.lookup path = some (some last) → ∃ links, Ends steady host path last links

/-- Each link that is being followed has at least this number of further links on the way. -/
def Awaits (steady : σ → Prop) (host : Host σ) (followed : Followed) (links : Nat) : Prop :=
  ∀ path, followed.lookup path = some none →
    ∃ last further, Ends steady host path last further ∧ links ≤ further

theorem noted_nil : Noted steady host [] := nofun

theorem awaits_nil : Awaits steady host [] links := nofun

theorem Awaits.mono (h : Awaits steady host followed links) (hle : links' ≤ links) :
    Awaits steady host followed links' := by
  intro path hpath
  obtain ⟨last, further, hends, hlinks⟩ := h path hpath
  exact ⟨last, further, hends, Nat.le_trans hle hlinks⟩

theorem lookup_cons_eq_none_iff {met : Option Path} :
    List.lookup other ((path, met) :: followed) = some none ↔
      other = path ∧ met = none ∨ other ≠ path ∧ followed.lookup other = some none := by
  rw [List.lookup_cons]
  by_cases h : other = path
  · simp [h]
  · simp [h, beq_eq_false_iff_ne.2 h]

theorem Awaits.cons (h : Awaits steady host followed links') (hle : links ≤ links')
    (hends : Ends steady host path last links) :
    Awaits steady host ((path, none) :: followed) links := by
  intro other hother
  obtain ⟨rfl, -⟩ | ⟨-, hother⟩ := lookup_cons_eq_none_iff.1 hother
  · exact ⟨last, links, hends, Nat.le_refl links⟩
  · exact h.mono hle other hother

theorem lookup_of_ended {followed' : Followed}
    (h : ∀ other, followed'.lookup other = some none →
      List.lookup other ((path, none) :: followed) = some none)
    (hother : List.lookup other ((path, some last) :: followed') = some none) :
    followed.lookup other = some none := by
  obtain ⟨-, ⟨⟩⟩ | ⟨hne, hother⟩ := lookup_cons_eq_none_iff.1 hother
  obtain ⟨heq, -⟩ | ⟨-, hother⟩ := lookup_cons_eq_none_iff.1 (h other hother)
  · exact absurd heq hne
  · exact hother

theorem Noted.cons {end' : Option Path} (h : Noted steady host followed)
    (hend : ∀ last, end' = some last → ∃ links, Ends steady host path last links) :
    Noted steady host ((path, end') :: followed) := by
  intro other last hlookup
  rw [List.lookup_cons] at hlookup
  split at hlookup
  · rename_i hsame
    cases eq_of_beq hsame
    exact hend last (Option.some.inj hlookup)
  · exact h other last hlookup

/-! ## The search for canonical paths -/

section

variable {followed' : Followed} {result : Except Failure (Arrival × Followed)}
  (hentry : IsEntryName name)

include hentry

theorem answers_canonicalAfter_entry (hnoLink : IsNoLink steady host (path.below [name]))
    (hrest : Answers steady (canonicalAfter host budget names (path.below [name]) followed) result) :
    Answers steady (canonicalAfter host budget (name :: names) path followed) result := by
  obtain ⟨status, hstatus, hkind⟩ := hnoLink
  rw [canonicalAfter, if_neg (by simpa using hentry.ordinary.1),
    if_neg (by simpa using hentry.ordinary.2)]
  refine hstatus.attempt.bind ?_
  simp only [pure_bind, beq_eq_false_iff_ne.2 hkind]
  exact hrest

theorem answers_canonicalAfter_noted (hlink : IsLinkTo steady host (path.below [name]) target)
    (hlookup : followed.lookup (path.below [name]) = some (some reached))
    (hrest : Answers steady (canonicalAfter host budget names reached followed) result) :
    Answers steady (canonicalAfter host budget (name :: names) path followed) result := by
  obtain ⟨⟨status, hstatus, hkind⟩, -⟩ := hlink
  rw [canonicalAfter, if_neg (by simpa using hentry.ordinary.1),
    if_neg (by simpa using hentry.ordinary.2)]
  refine hstatus.attempt.bind ?_
  unfold below at hlookup
  simp only [pure_bind, beq_iff_eq.2 hkind, hlookup]
  exact hrest

theorem answers_canonicalAfter_new (hlink : IsLinkTo steady host (path.below [name]) target)
    (hlookup : followed.lookup (path.below [name]) = none)
    (htarget : Answers steady
      (canonicalAfter host budget (partsOf target) (path.startAt target)
        ((path.below [name], none) :: followed)) (.ok (.reached reached, followed')))
    (hrest : Answers steady
      (canonicalAfter host (budget + 1) names reached
        ((path.below [name], some reached) :: followed')) result) :
    Answers steady (canonicalAfter host (budget + 1) (name :: names) path followed) result := by
  obtain ⟨⟨status, hstatus, hkind⟩, hread⟩ := hlink
  rw [canonicalAfter, if_neg (by simpa using hentry.ordinary.1),
    if_neg (by simpa using hentry.ordinary.2)]
  refine hstatus.attempt.bind ?_
  unfold below at hlookup
  simp only [pure_bind, beq_iff_eq.2 hkind, hlookup]
  exact hread.bind (htarget.bind hrest)

end

/-- Names that lead to a path are followed to that path, if enough links may be followed at one
time.  By induction on the way.  A link that is being followed is not met again, since the way from
there would have to be longer than itself. -/
theorem Resolves.answers {state : σ} (hstate : steady state)
    (h : Resolves steady host path names last links) (hbudget : links ≤ budget)
    (hnoted : Noted steady host followed) (hawaits : Awaits steady host followed links) :
    ∃ followed', Answers steady (canonicalAfter host budget names path followed)
        (.ok (.reached last, followed')) ∧
      Noted steady host followed' ∧
        ∀ other, followed'.lookup other = some none → followed.lookup other = some none := by
  induction h generalizing budget followed with
  | done =>
      refine ⟨followed, ?_, hnoted, fun _ => id⟩
      rw [canonicalAfter]
      exact .pure _
  | self hname _ ih =>
      rw [canonicalAfter, if_pos (by simpa using hname)]
      exact ih hbudget hnoted hawaits
  | parent _ ih =>
      rw [canonicalAfter]
      exact ih hbudget hnoted hawaits
  | entry hentry hnoLink _ ih =>
      obtain ⟨followed', hanswers, hrest⟩ := ih hbudget hnoted hawaits
      exact ⟨followed', answers_canonicalAfter_entry hentry hnoLink hanswers, hrest⟩
  | @link path reached last name target names links links' hentry hlink htarget hrest ihtarget
        ihrest =>
      have hends : Ends steady host (path.below [name]) reached links :=
        ⟨path, name, target, rfl, hlink, htarget⟩
      rcases hlookup : followed.lookup (path.below [name]) with _ | _ | noted
      · obtain _ | budget := budget
        · omega
        obtain ⟨followed', hanswers, hnoted', hpending⟩ :=
          @ihtarget budget ((path.below [name], none) :: followed) (by omega)
            (hnoted.cons (by rintro _ ⟨⟩)) (hawaits.cons (by omega) hends)
        obtain ⟨followed'', hanswers', hnoted'', hpending'⟩ :=
          @ihrest (budget + 1) ((path.below [name], some reached) :: followed') (by omega)
            (hnoted'.cons (by rintro _ ⟨⟩; exact ⟨links, hends⟩))
            fun other hother => hawaits.mono (by omega) other (lookup_of_ended hpending hother)
        exact ⟨followed'', answers_canonicalAfter_new hentry hlink hlookup hanswers hanswers',
          hnoted'', fun other hother => lookup_of_ended hpending (hpending' other hother)⟩
      · obtain ⟨_, further, hends', hle⟩ := hawaits _ hlookup
        obtain ⟨-, rfl⟩ := hends.unique hstate hends'
        omega
      · obtain ⟨_, hends'⟩ := hnoted _ _ hlookup
        obtain ⟨rfl, -⟩ := hends.unique hstate hends'
        obtain ⟨followed', hanswers, hrest'⟩ :=
          @ihrest budget followed (by omega) hnoted (hawaits.mono (by omega))
        exact ⟨followed', answers_canonicalAfter_noted hentry hlink hlookup hanswers, hrest'⟩

end FileSelection.Path
