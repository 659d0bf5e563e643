import FileSelection.Proofs.FileSystem.Refusals
import FileSelection.Proofs.Toml.Faults

/-!
# Failures of finding and loading settings

Whatever the files hold, settings are found and loaded or there is a failure, and a run reports that
failure unless one of two things is behind it: links without an end where the search starts, or a
project file in which something else stands in the place of a table.
-/

namespace FileSelection

open Failure

/-! ## Canonical paths -/

section

variable [Ignore.Library] {σ : Type} {steady : σ → Prop} {host : Host σ}

/-- By induction on the links that may still be followed and, for each number of them, on the names
that are left. -/
theorem Path.canonicalAfter_reported (hhost : host.Responds steady) (links : Nat)
    (names : List String) (path : Path) (followed : Followed) :
    Act.FailsOnly steady Reported (canonicalAfter host links names path followed) := by
  induction links using Nat.strongRecOn generalizing names path followed with
  | ind links ihlinks =>
      induction names generalizing path followed with
      | nil =>
          rw [canonicalAfter]
          exact .pure _
      | cons name rest ihrest =>
          rw [canonicalAfter]
          split
          · exact ihrest _ _
          split
          · exact ihrest _ _
          dsimp only
          refine (hhost.status false _).attempt_bind (fun status _ => ?_) fun failure _ hfailure => ?_
          · refine Act.FailsOnly.bind (.pure _) fun isLink _ => ?_
            split
            · exact ihrest _ _
            split
            · exact ihrest _ _
            · exact .pure _
            cases links with
            | zero => exact .pure _
            | succ links =>
                refine (hhost.linkTarget _).bind fun target _ => ?_
                refine (ihlinks links (Nat.lt_succ_self links) _ _ _).bind ?_
                rintro ⟨arrival, followed'⟩ -
                cases arrival with
                | reached end' => exact ihrest _ _
                | stuck text => exact .pure _
          · dsimp only
            split
            · simp only [pure_bind]
              exact ihrest _ _
            · exact .throw_bind hfailure _

namespace Path

def Arrival.path : Arrival → Path
  | .reached path => path
  | .stuck text => ofText text

def settled (host : Host σ) (reached : Path) : Act σ Path := do
  let whole := (← host.workingDirectory).join reached
  let found : Path := { whole with names := collapse whole.names }
  match ← (host.status true found).attempt with
  | .error (.system .linkLoop _) => throw (.endlessLink found.text)
  | .error failure => if failure.isSystem then return found else throw failure
  | .ok _ => return found

omit [Ignore.Library] in
theorem canonical_eq (host : Host σ) (path : Path) :
    path.canonical host = (do
      let start : Path := if path.isAbsolute then ⟨"/", []⟩ else ⟨"", []⟩
      let (arrival, _) ← canonicalAfter host followLimit path.names start []
      settled host arrival.path) := by
  unfold canonical
  dsimp only
  congr 1
  funext ⟨arrival, followed⟩
  cases arrival <;> rfl

def NeverEnds (steady : σ → Prop) (host : Host σ) (failure : Failure) : Prop :=
  ∃ found text, failure = .endlessLink (Path.text found) ∧
    Act.Answers steady (host.status true found) (.error (.system .linkLoop text))

theorem settled_failures (hhost : host.Responds steady) (reached : Path) :
    Act.FailsOnly steady (ReportedOr (NeverEnds steady host)) (settled host reached) := by
  refine hhost.workingDirectory.orCause.bind fun working _ => ?_
  refine (hhost.status true _).attempt_bind (fun status _ => .pure _) ?_
  intro failure hanswers hfailure
  split
  · rename_i h
    cases h
    exact .throw (.inr ⟨_, _, rfl, hanswers⟩)
  · rename_i h
    cases h
    split
    · exact .pure _
    · exact .throw (.inl hfailure)
  · exact .pure _

/-- The canonical form of a path is not found because its links do not come to an end. -/
def Loops (steady : σ → Prop) (host : Host σ) (path : Path) (failure : Failure) : Prop :=
  Act.Answers steady (path.canonical host) (.error failure) ∧ NeverEnds steady host failure

theorem canonical_failures (hhost : host.Responds steady) (path : Path) :
    Act.FailsOnly steady (ReportedOr (path.Loops steady host)) (path.canonical host) := by
  have hfails : Act.FailsOnly steady (ReportedOr (NeverEnds steady host)) (path.canonical host) := by
    rw [canonical_eq]
    refine (canonicalAfter_reported hhost _ _ _ _).orCause.bind fun found _ => ?_
    exact settled_failures hhost _
  refine hfails.answered.mono ?_
  rintro failure ⟨hfailure, hanswers⟩
  exact hfailure.imp_right fun hends => ⟨hanswers, hends⟩

end Path

/-! ## Reading documents -/

namespace Settings

theorem orWrong_reported {α : Type} (key expected : String) (value : Value) (found : Option α) :
    Only Reported (orWrong key expected value found) := by
  cases found with
  | some found => exact .ok found
  | none =>
      refine .error ?_
      split
      · rfl
      · rfl

theorem put_reported (settings : Settings) (setting : Setting) (key : String) (value : Value) :
    Only Reported (settings.put setting key value) := by
  cases setting <;> exact (orWrong_reported _ _ _ _).map _

theorem putAll_reported (settings : Settings) (entries : List (String × Value)) :
    Only Reported (putAll settings entries).1 := by
  induction entries generalizing settings with
  | nil => exact .ok _
  | cons entry entries ih =>
      obtain ⟨key, value⟩ := entry
      unfold putAll
      split
      · exact ih settings
      split
      · exact ih _
      · rename_i h
        exact .error (put_reported _ _ _ _ _ h)

theorem readDocument_reported (hhost : host.Responds steady) (path : Path) :
    Act.FailsOnly steady Reported (readDocument host path) := by
  refine (hhost.read path).bind fun content _ => ?_
  split
  · exact .throw rfl
  · refine .ofExcept ((Toml.document?_faults _).mono ?_)
    rintro _ ⟨⟩
    · rfl
    · rfl

end Settings

/-! ## Project files -/

def Value.IsTable : Value → Prop
  | .table _ => True
  | _ => False

def Value.IsContainer : Value → Prop
  | .table _ | .list _ | .text _ => True
  | _ => False

namespace Settings

/-- What a project file can hold in the places of tables, with the failure to which it leads. -/
inductive Misshapen (document : Toml.Entries) : Failure → Prop
  | noContainer {value : Value} : document.lookup "tool" = some value → ¬value.IsContainer →
      Misshapen document .noContainer
  | noTable {value : Value} : document.lookup "tool" = some value → ¬value.IsTable →
      Misshapen document .noTable
  | noSection {entries : Toml.Entries} {value : Value} :
      document.lookup "tool" = some (.table entries) → entries.lookup sectionName = some value →
        ¬value.IsTable → Misshapen document .noTable

def Spoils (steady : σ → Prop) (host : Host σ) (path : Path) (failure : Failure) : Prop :=
  path.name = projectFile ∧
    ∃ document, Act.Answers steady (readDocument host path) (.ok document) ∧
      Misshapen document failure

omit [Ignore.Library] in
theorem holdsSection_failures (value : Value) :
    Only (fun failure => failure = .noContainer ∧ ¬value.IsContainer) (holdsSection value) := by
  unfold holdsSection
  split
  · exact .ok _
  · exact .ok _
  · exact .ok _
  · rename_i htable hlist htext
    refine .error ⟨rfl, ?_⟩
    cases value with
    | table entries => exact absurd rfl (htable entries)
    | list items => exact absurd rfl (hlist items)
    | text text => exact absurd rfl (htext text)
    | _ => exact id

theorem hasSection_failures (hhost : host.Responds steady) {path : Path}
    (hpath : path.name = projectFile) :
    Act.FailsOnly steady (ReportedOr (Spoils steady host path))
      (hasSection host path) := by
  refine (readDocument_reported hhost path).attempt_bind ?_ ?_
  · intro document hdocument
    refine .ofExcept ?_
    simp only [member, Except.bind]
    cases htool : document.lookup "tool" with
    | none => exact .ok _
    | some value =>
        refine (holdsSection_failures value).mono ?_
        rintro failure ⟨rfl, hvalue⟩
        exact .inr ⟨hpath, document, hdocument, .noContainer htool hvalue⟩
  · intro failure _ hfailure
    split
    · exact .pure _
    · rename_i h
      cases h
      split
      · exact .pure _
      · exact .throw (.inl hfailure)
    · rename_i h
      cases h

theorem isCandidate_failures (hhost : host.Responds steady) (path : Path) :
    Act.FailsOnly steady (ReportedOr (Spoils steady host path))
      (isCandidate host path) := by
  refine (hhost.hasKind true .file path).orCause.bind fun isFile _ => ?_
  split
  · exact .pure _
  split
  · rename_i hname
    exact hasSection_failures hhost (eq_of_beq hname)
  · exact .pure _

theorem firstCandidate_failures (hhost : host.Responds steady) (paths : List Path) :
    Act.FailsOnly steady
      (ReportedOr fun failure => ∃ path ∈ paths, Spoils steady host path failure)
      (firstCandidate host paths) := by
  induction paths with
  | nil => exact .pure _
  | cons path paths ih =>
      refine Act.FailsOnly.bind ?_ fun isFound _ => ?_
      · refine (isCandidate_failures hhost path).widen fun failure hspoils => ?_
        exact ⟨path, by simp, hspoils⟩
      split
      · exact .pure _
      · refine ih.widen ?_
        rintro failure ⟨other, hother, hspoils⟩
        exact ⟨other, by simp [hother], hspoils⟩

def places (directory : Path) : List Path :=
  directory.andParents.flatMap fun directory => fileNames.map directory.child

/-- What a run does not expect of the search for settings from a directory upwards. -/
inductive Unfindable (steady : σ → Prop) (host : Host σ) (directory : Path) (failure : Failure) :
    Prop
  | links : directory.Loops steady host failure → Unfindable steady host directory failure
  | project {top path : Path} : Act.Answers steady (directory.canonical host) (.ok top) →
      path ∈ places top → Spoils steady host path failure →
        Unfindable steady host directory failure

theorem find_failures (hhost : host.Responds steady) (directory : Path) :
    Act.FailsOnly steady (ReportedOr (Unfindable steady host directory))
      (find host directory) := by
  refine ((directory.canonical_failures hhost).widen fun _ => .links).bind fun top htop => ?_
  refine (firstCandidate_failures hhost (places top)).widen ?_
  rintro failure ⟨path, hpath, hspoils⟩
  exact .project htop hpath hspoils

omit [Ignore.Library] in
theorem sectionOf_failures (path : Path) (document : Toml.Entries) :
    Only (fun failure => path.name = projectFile ∧ Misshapen document failure)
        (sectionOf path document) ∧
      ∀ content, sectionOf path document = .ok content → ¬content.IsTable →
        path.name = projectFile ∧ Misshapen document .noTable := by
  unfold sectionOf
  split
  · rename_i hname
    simp only [member]
    cases htool : document.lookup "tool" with
    | none =>
        refine ⟨.ok _, ?_⟩
        rintro _ ⟨⟩ hcontent
        exact absurd trivial hcontent
    | some value =>
        cases value with
        | table entries =>
            refine ⟨.ok _, ?_⟩
            rintro _ ⟨⟩ hcontent
            cases hsection : entries.lookup sectionName with
            | none =>
                rw [hsection] at hcontent
                exact absurd trivial hcontent
            | some content =>
                rw [hsection] at hcontent
                exact ⟨eq_of_beq hname, .noSection htool hsection hcontent⟩
        | _ => exact ⟨.error ⟨eq_of_beq hname, .noTable htool id⟩, nofun⟩
  · refine ⟨.ok _, ?_⟩
    rintro _ ⟨⟩ hcontent
    exact absurd trivial hcontent

theorem notes_reported (hhost : host.Responds steady) (keys : List String) :
    Act.FailsOnly steady Reported (keys.forM fun key => host.note (.unknownSetting key)) := by
  induction keys with
  | nil => exact .pure _
  | cons key keys ih => exact (hhost.note _).bind fun _ _ => ih

theorem load_failures (hhost : host.Responds steady) (path : Path) :
    Act.FailsOnly steady (ReportedOr (Spoils steady host path))
      (load host path) := by
  refine (readDocument_reported hhost path).orCause.bind fun document hdocument => ?_
  obtain ⟨honly, htable⟩ := sectionOf_failures path document
  have hspoils {failure : Failure} (h : path.name = projectFile ∧ Misshapen document failure) :
      Spoils steady host path failure := ⟨h.1, document, hdocument, h.2⟩
  refine .ofExcept_bind (honly.mono fun _ h => .inr (hspoils h)) fun content hsection => ?_
  refine (hhost.note _).orCause.bind fun _ _ => ?_
  split
  · refine (notes_reported hhost _).orCause.bind fun _ _ => ?_
    exact .ofExcept (putAll_reported _ _).orCause
  · rename_i hcontent
    refine .throw (.inr (hspoils (htable content hsection ?_)))
    cases content with
    | table entries => exact absurd rfl (hcontent entries)
    | _ => exact id

end Settings

end

end FileSelection
