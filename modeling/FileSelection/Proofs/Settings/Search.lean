import FileSelection.Proofs.FileSystem.Canonical

/-!
# The search for settings

From an existing directory the nearest settings file is found, whatever the files hold, as long as
no file that is met before it stops or misleads the search: a place that the system refuses to look
at, a project file that is not encoded as a text, one with a number of too many digits, or one in
which something else stands in the place of the table of tools.
-/

namespace FileSelection.Settings

open Act FileSelection.Path

variable {τ : Type} {files : FileSystem} {path : Path} {status : Status}
  {content : ByteArray} {text : String} {document : Toml.Entries} {failure : Failure}

/-! ## What stands at a place -/

def IsRegular (files : FileSystem) (path : Path) : Prop :=
  ∃ status, files.status true path = .ok status ∧ status.kind = .file

def Holds (files : FileSystem) (path : Path) (text : String) : Prop :=
  ∃ content, files.read path = .ok content ∧ String.fromUTF8? content = some text

def IsDocument (files : FileSystem) (path : Path) (document : Toml.Entries) : Prop :=
  ∃ text, Holds files path text ∧
    Toml.document? (Text.unifyNewlines text.toList) = .ok document

def HasEntry (document : Toml.Entries) : Prop :=
  ∃ tools entry, document.lookup "tool" = some (.table tools) ∧
    tools.lookup sectionName = some entry

/-- A regular file, and a project file only if its table of tools has an entry for this tool. -/
def IsSettingsFile (files : FileSystem) (path : Path) : Prop :=
  IsRegular files path ∧
    (path.name = projectFile → ∃ document, IsDocument files path document ∧ HasEntry document)

structure IsProjectFile (files : FileSystem) (path : Path) : Prop where
  regular : IsRegular files path
  name : path.name = projectFile

inductive Stops (files : FileSystem) (path : Path) : Failure → Prop
  | refused {failure : Failure} : files.status true path = .error failure →
      Host.meansAbsent failure = false → Stops files path failure
  | notUtf8 {content : ByteArray} : IsProjectFile files path → files.read path = .ok content →
      String.fromUTF8? content = none → Stops files path .notUtf8
  | unread {text : String} {failure : Failure} : IsProjectFile files path →
      Holds files path text → Toml.document? (Text.unifyNewlines text.toList) = .error failure →
        failure ≠ .malformedDocument → Stops files path failure
  | noContainer {document : Toml.Entries} {value : Value} : IsProjectFile files path →
      IsDocument files path document → document.lookup "tool" = some value →
        ¬value.IsContainer → Stops files path .noContainer

/-- A project file counts although it has no table of tools, since the name of the tool is an item of
a list or a part of a text that stands in its place. -/
inductive Misleads (files : FileSystem) (path : Path) : Prop
  | list {document : Toml.Entries} {items : List Value} : IsProjectFile files path →
      IsDocument files path document → document.lookup "tool" = some (.list items) →
        .text sectionName ∈ items → Misleads files path
  | text {document : Toml.Entries} {text : String} : IsProjectFile files path →
      IsDocument files path document → document.lookup "tool" = some (.text text) →
        sectionName.toList <:+: text.toList → Misleads files path

/-- There is no settings file, and nothing that stops or misleads the search. -/
structure IsPassed (files : FileSystem) (path : Path) : Prop where
  noSettings : ¬IsSettingsFile files path
  noFailure : ∀ failure, ¬Stops files path failure
  noMention : ¬Misleads files path

/-! ## The answer at a place -/

section

variable (record : τ) {result : Except Failure Bool}

theorem answers_readDocument (hread : files.read path = .ok content) :
    Answers (Session.Rests files record) (readDocument Session.host path)
      (match String.fromUTF8? content with
        | none => .error .notUtf8
        | some text => Toml.document? (Text.unifyNewlines text.toList)) := by
  refine (Session.answers_read hread).bind ?_
  cases String.fromUTF8? content with
  | none => exact .ofExcept (.error .notUtf8)
  | some text => exact .ofExcept _

theorem Holds.answers (h : Holds files path text) :
    Answers (Session.Rests files record) (readDocument Session.host path)
      (Toml.document? (Text.unifyNewlines text.toList)) := by
  obtain ⟨content, hread, htext⟩ := h
  have hanswers := answers_readDocument record hread
  rwa [htext] at hanswers

theorem IsDocument.answers (h : IsDocument files path document) :
    Answers (Session.Rests files record) (hasSection Session.host path)
      (holdsSection ((document.lookup "tool").getD (.table []))) := by
  obtain ⟨text, hholds, hdocument⟩ := h
  have hread := hholds.answers record
  rw [hdocument] at hread
  exact hread.attempt.bind (.ofExcept _)

theorem answers_hasSection_of_error
    (h : Answers (Session.Rests files record) (readDocument Session.host path) (.error failure))
    (hfailure : failure ≠ .malformedDocument) (hsystem : failure.isSystem = false) :
    Answers (Session.Rests files record) (hasSection Session.host path) (.error failure) := by
  refine h.attempt.bind ?_
  split
  · rename_i heq
    cases heq
    exact absurd rfl hfailure
  · rename_i heq
    cases heq
    rw [hsystem]
    exact .ofExcept (.error failure)
  · rename_i heq
    cases heq

theorem answers_isFile_of_ok (h : files.status true path = .ok status) :
    Answers (Session.Rests files record) (Session.host.isFile path)
      (.ok (status.kind == .file)) :=
  .bind ((Session.answers_status h).attempt.bind (.pure (some status))) (.pure _)

theorem answers_isFile_of_error (h : files.status true path = .error failure) :
    Answers (Session.Rests files record) (Session.host.isFile path)
      (if Host.meansAbsent failure then .ok false else .error failure) := by
  split
  · rename_i habsent
    have hnothing : Answers (Session.Rests files record) (Session.host.status? true path)
        (.ok none) := by
      refine (Session.answers_status h).attempt.bind ?_
      dsimp only
      rw [if_pos habsent]
      exact .pure none
    exact hnothing.bind (.pure _)
  · rename_i hrefused
    have hfails : Answers (Session.Rests files record) (Session.host.status? true path)
        (.error failure) := by
      refine (Session.answers_status h).attempt.bind ?_
      dsimp only
      rw [if_neg hrefused]
      exact .ofExcept (.error failure)
    exact hfails.bind_error

theorem IsRegular.answers (h : IsRegular files path) :
    Answers (Session.Rests files record) (Session.host.isFile path) (.ok true) := by
  obtain ⟨status, hstatus, hkind⟩ := h
  have hanswers := answers_isFile_of_ok record hstatus
  rwa [hkind] at hanswers

theorem IsRegular.exists_read (h : IsRegular files path) :
    ∃ content, files.read path = .ok content := by
  obtain ⟨status, hstatus, hkind⟩ := h
  obtain ⟨place, hplace, rfl⟩ := FileSystem.status_eq_ok_iff.1 hstatus
  rw [Node.kind_status] at hkind
  cases hnode : place.node with
  | file content modified => exact ⟨content, by rw [FileSystem.read, hplace, Except.bind, hnode]⟩
  | pipe _ | link _ | directory _ =>
      rw [hnode] at hkind
      cases hkind

theorem IsProjectFile.answers (h : IsProjectFile files path)
    (hsection : Answers (Session.Rests files record) (hasSection Session.host path) result) :
    Answers (Session.Rests files record) (isCandidate Session.host path) result := by
  refine (h.regular.answers record).bind ?_
  rw [if_neg (by simp), if_pos (by simp [h.name])]
  exact hsection

theorem HasEntry.holdsSection (h : HasEntry document) :
    holdsSection ((document.lookup "tool").getD (.table [])) = .ok true := by
  obtain ⟨tools, entry, htool, hentry⟩ := h
  rw [htool, Option.getD_some, Settings.holdsSection]
  have hany : tools.any (·.1 == sectionName) = true :=
    List.any_eq_true.2 ⟨_, Keyed.mem_of_lookup hentry, beq_self_eq_true _⟩
  rw [hany]

theorem IsSettingsFile.answers (h : IsSettingsFile files path) :
    Answers (Session.Rests files record) (isCandidate Session.host path) (.ok true) := by
  obtain ⟨hregular, hproject⟩ := h
  by_cases hname : path.name = projectFile
  · obtain ⟨document, hdocument, hentry⟩ := hproject hname
    have hanswers := hdocument.answers record
    rw [hentry.holdsSection] at hanswers
    exact IsProjectFile.answers record ⟨hregular, hname⟩ hanswers
  · refine (hregular.answers record).bind ?_
    rw [if_neg (by simp), if_neg (by simpa using hname)]
    exact .pure true

theorem holdsSection_of_noContainer {value : Value} (h : ¬value.IsContainer) :
    holdsSection value = .error .noContainer := by
  cases value with
  | table _ | list _ | text _ => exact absurd trivial h
  | _ => rfl

theorem Stops.answers (h : Stops files path failure) :
    Answers (Session.Rests files record) (isCandidate Session.host path) (.error failure) := by
  cases h with
  | refused hstatus hrefused =>
      have hanswers := answers_isFile_of_error record hstatus
      rw [hrefused] at hanswers
      exact hanswers.bind_error
  | notUtf8 hproject hread htext =>
      have hanswers := answers_readDocument record hread
      rw [htext] at hanswers
      exact hproject.answers record (answers_hasSection_of_error record hanswers nofun rfl)
  | @unread text failure hproject hholds hdocument hfailure =>
      have hanswers := hholds.answers record
      rw [hdocument] at hanswers
      have hsystem : failure.isSystem = false := by
        obtain _ | _ := Toml.document?_faults _ failure hdocument <;> rfl
      exact hproject.answers record (answers_hasSection_of_error record hanswers hfailure hsystem)
  | noContainer hproject hdocument htool hvalue =>
      have hanswers := hdocument.answers record
      rw [htool, Option.getD_some, holdsSection_of_noContainer hvalue] at hanswers
      exact hproject.answers record hanswers

theorem Misleads.answers (h : Misleads files path) :
    Answers (Session.Rests files record) (isCandidate Session.host path) (.ok true) := by
  cases h with
  | @list document items hproject hdocument htool hitem =>
      have hanswers := hdocument.answers record
      have hany : (items.any fun item => text? item == some sectionName) = true :=
        List.any_eq_true.2 ⟨_, hitem, beq_self_eq_true _⟩
      rw [htool, Option.getD_some, holdsSection, hany] at hanswers
      exact hproject.answers record hanswers
  | text hproject hdocument htool hpart =>
      have hanswers := hdocument.answers record
      have hoccurs := (Text.occursIn_iff (by decide)).2 hpart
      rw [htool, Option.getD_some, holdsSection, hoccurs] at hanswers
      exact hproject.answers record hanswers

theorem eq_text_of_text? {value : Value} (h : text? value = some text) : value = .text text := by
  cases value with
  | text text => exact congrArg Value.text (Option.some.inj h)
  | _ => cases h

theorem IsDocument.holdsSection_of_passed (h : IsPassed files path)
    (hproject : IsProjectFile files path) (hdocument : IsDocument files path document) :
    holdsSection ((document.lookup "tool").getD (.table [])) = .ok false := by
  cases htool : document.lookup "tool" with
  | none => rfl
  | some value =>
      rw [Option.getD_some]
      by_cases hvalue : value.IsContainer
      · cases value with
        | table tools =>
            have hnone : ¬tools.any (·.1 == sectionName) = true := by
              intro hany
              obtain ⟨entry, hmem, hkey⟩ := List.any_eq_true.1 hany
              have hsome := List.lookup_isSome_iff.2 ⟨entry, hmem, BEq.symm hkey⟩
              obtain ⟨value, hentry⟩ := Option.isSome_iff_exists.1 hsome
              exact h.noSettings
                ⟨hproject.regular, fun _ => ⟨document, hdocument, tools, value, htool, hentry⟩⟩
            rw [holdsSection, Bool.eq_false_iff.2 hnone]
        | list items =>
            have hnone : ¬(items.any fun item => text? item == some sectionName) = true := by
              intro hany
              obtain ⟨item, hitem, htext⟩ := List.any_eq_true.1 hany
              obtain rfl := eq_text_of_text? (eq_of_beq htext)
              exact h.noMention (.list hproject hdocument htool hitem)
            rw [holdsSection, Bool.eq_false_iff.2 hnone]
        | text text =>
            have hnone : ¬Text.occursIn sectionName.toList text.toList = true := fun hoccurs =>
              h.noMention (.text hproject hdocument htool
                ((Text.occursIn_iff (by decide)).1 hoccurs))
            rw [holdsSection, Bool.eq_false_iff.2 hnone]
        | _ => exact hvalue.elim
      · exact absurd (.noContainer hproject hdocument htool hvalue) (h.noFailure _)

theorem IsProjectFile.answers_of_passed (hproject : IsProjectFile files path)
    (h : IsPassed files path) :
    Answers (Session.Rests files record) (isCandidate Session.host path) (.ok false) := by
  obtain ⟨content, hread⟩ := hproject.regular.exists_read
  cases htext : String.fromUTF8? content with
  | none => exact absurd (.notUtf8 hproject hread htext) (h.noFailure _)
  | some text =>
      have hholds : Holds files path text := ⟨content, hread, htext⟩
      cases hdocument : Toml.document? (Text.unifyNewlines text.toList) with
      | error failure =>
          by_cases hmalformed : failure = .malformedDocument
          · have hanswers := hholds.answers record
            rw [hdocument, hmalformed] at hanswers
            exact hproject.answers record (hanswers.attempt.bind (.pure false))
          · exact absurd (.unread hproject hholds hdocument hmalformed) (h.noFailure _)
      | ok document =>
          have hdocument' : IsDocument files path document := ⟨text, hholds, hdocument⟩
          have hanswers := hdocument'.answers record
          rw [hdocument'.holdsSection_of_passed h hproject] at hanswers
          exact hproject.answers record hanswers

theorem isPassed_of_absent (h : files.status true path = .error failure)
    (habsent : Host.meansAbsent failure = true) : IsPassed files path := by
  have hnoFile : ¬IsRegular files path := by
    rintro ⟨status, hstatus, -⟩
    rw [h] at hstatus
    cases hstatus
  refine ⟨fun hsettings => hnoFile hsettings.1, ?_, ?_⟩
  · rintro _ (⟨hstatus, hrefused⟩ | ⟨hproject, -, -⟩ | ⟨hproject, -, -, -⟩ | ⟨hproject, -, -, -⟩)
    · rw [h] at hstatus
      cases hstatus
      rw [habsent] at hrefused
      cases hrefused
    · exact hnoFile hproject.regular
    · exact hnoFile hproject.regular
    · exact hnoFile hproject.regular
  · rintro (⟨hproject, -, -, -⟩ | ⟨hproject, -, -, -⟩)
    · exact hnoFile hproject.regular
    · exact hnoFile hproject.regular

theorem IsPassed.answers (h : IsPassed files path) :
    Answers (Session.Rests files record) (isCandidate Session.host path) (.ok false) := by
  cases hstatus : files.status true path with
  | error failure =>
      have hanswers := answers_isFile_of_error record hstatus
      cases habsent : Host.meansAbsent failure with
      | false => exact absurd (.refused hstatus habsent) (h.noFailure failure)
      | true =>
          rw [if_pos habsent] at hanswers
          exact hanswers.bind (.pure false)
  | ok status =>
      by_cases hkind : status.kind = .file
      · have hregular : IsRegular files path := ⟨status, hstatus, hkind⟩
        by_cases hname : path.name = projectFile
        · exact IsProjectFile.answers_of_passed record ⟨hregular, hname⟩ h
        · exact absurd ⟨hregular, fun heq => absurd heq hname⟩ h.noSettings
      · have hanswers := answers_isFile_of_ok record hstatus
        rw [beq_eq_false_iff_ne.2 hkind] at hanswers
        exact hanswers.bind (.pure false)

end

/-! ## The nearest settings file -/

section

variable (record : τ) {before after : List Path} {result : Except Failure (Option Path)}

theorem answers_firstCandidate_append (hbefore : ∀ path ∈ before, IsPassed files path)
    (hafter : Answers (Session.Rests files record) (firstCandidate Session.host after) result) :
    Answers (Session.Rests files record) (firstCandidate Session.host (before ++ after))
      result := by
  induction before with
  | nil => exact hafter
  | cons path before ih =>
      obtain ⟨hpath, hbefore⟩ := List.forall_mem_cons.1 hbefore
      exact (hpath.answers record).bind (ih hbefore)

theorem answers_firstCandidate_of_true
    (h : Answers (Session.Rests files record) (isCandidate Session.host path) (.ok true)) :
    Answers (Session.Rests files record) (firstCandidate Session.host (path :: after))
      (.ok (some path)) :=
  h.bind (.pure (some path))

theorem Stops.answers_firstCandidate (h : Stops files path failure) :
    Answers (Session.Rests files record) (firstCandidate Session.host (path :: after))
      (.error failure) :=
  (h.answers record).bind_error

end

section

variable {text : String} {place : Location} (hsound : files.IsSound) (record : τ)
  (hlocate : files.locate true (ofText text) = .ok place) (hplace : place.node.kind = .directory)
  (haccepts : files.Accepts ((ofText text).origin, FileSystem.steps (ofText text).text))

include hsound hlocate hplace haccepts

theorem answers_find {result : Except Failure (Option Path)}
    (h : Answers (Session.Rests files record)
      (firstCandidate Session.host (places ⟨"/", place.names⟩)) result) :
    Answers (Session.Rests files record) (find Session.host (ofText text)) result :=
  (FileSystem.answers_canonical hsound (isWritten_ofText text) hlocate hplace haccepts).bind h

end

/-- From an existing directory, the search goes through the places in their order, from the physical
place of the directory upwards: it ends at the first one with a settings file, and without one it
finds nothing, unless it comes before that to a place that stops or misleads it. -/
theorem nearest_settings_file_is_found (hsound : files.IsSound) (record : τ) (text : String)
    {place : Location} (hlocate : files.locate true (Path.ofText text) = .ok place)
    (hplace : place.node.kind = .directory)
    (haccepts : files.Accepts ((Path.ofText text).origin,
      FileSystem.steps (Path.ofText text).text)) :
    (∀ before path after, places ⟨"/", place.names⟩ = before ++ path :: after →
      (∀ other ∈ before, IsPassed files other) →
        (IsSettingsFile files path ∨ Misleads files path →
          Answers (Session.Rests files record) (find Session.host (Path.ofText text))
            (.ok (some path))) ∧
        ∀ failure, Stops files path failure →
          Answers (Session.Rests files record) (find Session.host (Path.ofText text))
            (.error failure)) ∧
      ((∀ path ∈ places ⟨"/", place.names⟩, IsPassed files path) →
        Answers (Session.Rests files record) (find Session.host (Path.ofText text)) (.ok none)) := by
  refine ⟨fun before path after hplaces hbefore => ⟨fun hfound => ?_, fun failure hstops => ?_⟩,
    fun hpassed => ?_⟩
  · have hcandidate : Answers (Session.Rests files record) (isCandidate Session.host path)
        (.ok true) :=
      hfound.elim (fun hsettings => hsettings.answers record) fun hmisleads =>
        hmisleads.answers record
    refine answers_find hsound record hlocate hplace haccepts ?_
    rw [hplaces]
    exact answers_firstCandidate_append record hbefore
      (answers_firstCandidate_of_true record hcandidate)
  · refine answers_find hsound record hlocate hplace haccepts ?_
    rw [hplaces]
    exact answers_firstCandidate_append record hbefore (hstops.answers_firstCandidate record)
  · refine answers_find hsound record hlocate hplace haccepts ?_
    have hnone : Answers (Session.Rests files record) (firstCandidate Session.host []) (.ok none) :=
      .pure none
    have hall := answers_firstCandidate_append record hpassed hnone
    rwa [List.append_nil] at hall

def settingsNode : Node := .directory [(".treeselect.toml", .file .empty 0)]

def strayTree : FileSystem where
  root := .directory [("d", settingsNode), ("l", .link "d"), (projectFile, .file ⟨#[0xff]⟩ 0)]
  working := []

theorem leads_strayTree {names : List String} {place : Location}
    (h : strayTree.rootLocation.Leads names place) :
    place = strayTree.rootLocation ∨ place = strayTree.rootLocation.child "d" settingsNode := by
  induction h with
  | base => exact .inl rfl
  | @child _ place name entries below _ hentries hlookup ih =>
      obtain rfl | rfl := ih
      · cases hentries
        have hmem := Keyed.mem_of_lookup hlookup
        simp only [List.mem_cons, List.not_mem_nil, Prod.mk.injEq, reduceCtorEq, and_false,
          or_false] at hmem
        obtain ⟨rfl, hnode⟩ := hmem
        exact .inr (by rw [hnode])
      · cases hentries
        have hmem := Keyed.mem_of_lookup hlookup
        simp at hmem

theorem isSound_strayTree : strayTree.IsSound where
  root := rfl
  tidy := by
    intro names place entries hleads hentries
    obtain rfl | rfl := leads_strayTree hleads
    · cases hentries
      decide
    · cases hentries
      decide
  noNul := by
    intro names place entries hleads hentries
    obtain rfl | rfl := leads_strayTree hleads
    · cases hentries
      decide
    · cases hentries
      decide
  working := ⟨_, .base, by rw [FileSystem.workingLocation]; exact FileSystem.follow.eq_1 ..⟩

theorem marks_strayTree :
    strayTree.Marks ⟨"/", ["d"]⟩ (strayTree.rootLocation.child "d" settingsNode) :=
  .child .root rfl rfl (by decide)

theorem locate_strayTree :
    strayTree.locate true ⟨"/", ["l"]⟩ =
      .ok (strayTree.rootLocation.child "d" settingsNode) := by
  have hnotSlash : "d".startsWith "/" = false := by
    rw [startsWith_slash]
    decide
  have hsteps : FileSystem.steps "d" ++ [] = ["d"] := by decide
  have hfollow : FileSystem.follow strayTree.rootLocation true 40 strayTree.rootLocation ["l"] =
      FileSystem.follow strayTree.rootLocation true 39 strayTree.rootLocation ["d"] := by
    rw [FileSystem.follow_link_cons rfl (by decide) (by decide) (by decide) rfl, hnotSlash,
      hsteps, if_neg Bool.false_ne_true]
  refine FileSystem.locate_eq_ok_iff.2 ⟨by decide, by decide, _, rfl, ?_⟩
  rw [show FileSystem.steps (Path.text ⟨"/", ["l"]⟩) = ["l"] by decide]
  refine hfollow.trans ?_
  rw [FileSystem.follow_name_cons rfl (by decide) (by decide) (by decide) rfl (by decide)]
  exact FileSystem.follow.eq_1 ..

theorem accepts_strayTree : strayTree.Accepts (⟨"/", []⟩, ["l"]) := by
  have hlink : strayTree.locate false ⟨"/", ["l"]⟩ =
      .ok (strayTree.rootLocation.child "l" (.link "d")) :=
    FileSystem.Marks.root.locate_entry isSound_strayTree rfl rfl (by decide) (by decide)
      fun _ => rfl
  have hdirectory : strayTree.locate false ⟨"/", ["d"]⟩ =
      .ok (strayTree.rootLocation.child "d" settingsNode) :=
    FileSystem.Marks.root.locate_entry isSound_strayTree rfl rfl (by decide) (by decide)
      fun _ => rfl
  have hsteps : FileSystem.steps "d" ++ [] = ["d"] := by decide
  have hstart : Path.startAt ⟨"/", []⟩ "d" = ⟨"/", []⟩ := by decide
  refine FileSystem.accepts_cons (by decide) (by decide) hlink (fun h => absurd rfl h) ?_
  rintro _ ⟨⟩
  rw [hsteps, hstart]
  refine FileSystem.accepts_cons (by decide) (by decide) hdirectory ?_ nofun
  exact fun _ => FileSystem.accepts_nil _ _

theorem isSettingsFile_strayTree :
    IsSettingsFile strayTree ⟨"/", ["d", ".treeselect.toml"]⟩ := by
  have hfile : strayTree.locate true ⟨"/", ["d", ".treeselect.toml"]⟩ =
      .ok ((strayTree.rootLocation.child "d" settingsNode).child ".treeselect.toml"
        (.file .empty 0)) :=
    marks_strayTree.locate_entry isSound_strayTree rfl rfl (by decide) (by decide) nofun
  exact ⟨⟨_, FileSystem.status_eq_ok_iff.2 ⟨_, hfile, rfl⟩, rfl⟩, fun h => absurd h (by decide)⟩

theorem settings_file_is_found_through_link :
    strayTree.IsSound ∧
      strayTree.locate true (Path.ofText "/l") =
        .ok (strayTree.rootLocation.child "d" settingsNode) ∧
      (strayTree.rootLocation.child "d" settingsNode).node.kind = .directory ∧
      strayTree.Accepts ((Path.ofText "/l").origin, FileSystem.steps (Path.ofText "/l").text) ∧
      Answers (Session.Rests strayTree ()) (find Session.host (Path.ofText "/l"))
        (.ok (some ⟨"/", ["d", ".treeselect.toml"]⟩)) := by
  have hpath : Path.ofText "/l" = ⟨"/", ["l"]⟩ := by decide
  have hlocate : strayTree.locate true (Path.ofText "/l") =
      .ok (strayTree.rootLocation.child "d" settingsNode) := by
    rw [hpath]
    exact locate_strayTree
  have haccepts : strayTree.Accepts
      ((Path.ofText "/l").origin, FileSystem.steps (Path.ofText "/l").text) := by
    have hstart : ((Path.ofText "/l").origin, FileSystem.steps (Path.ofText "/l").text) =
        (⟨"/", []⟩, ["l"]) := by decide
    rw [hstart]
    exact accepts_strayTree
  refine ⟨isSound_strayTree, hlocate, rfl, haccepts, ?_⟩
  have hfound := nearest_settings_file_is_found isSound_strayTree () "/l" hlocate rfl haccepts
  exact (hfound.1 [] _ _ rfl nofun).1 (.inl isSettingsFile_strayTree)

theorem isPassed_strayTree {name : String} (hname : name ∈ [".treeselect.toml", "treeselect.toml"]) :
    IsPassed strayTree ⟨"/", [name]⟩ := by
  have hmissing : strayTree.locate true ⟨"/", [name]⟩ =
      .error (.system .noEntry (Path.text ⟨"/", [name]⟩)) := by
    simp only [List.mem_cons, List.not_mem_nil, or_false] at hname
    obtain rfl | rfl := hname
    · exact FileSystem.Marks.root.locate_missing isSound_strayTree rfl rfl (by decide) (by decide)
        (by decide) (by decide) true
    · exact FileSystem.Marks.root.locate_missing isSound_strayTree rfl rfl (by decide) (by decide)
        (by decide) (by decide) true
  have hstatus : strayTree.status true ⟨"/", [name]⟩ =
      .error (.system .noEntry (Path.text ⟨"/", [name]⟩)) := by
    rw [FileSystem.status, hmissing]
    rfl
  exact isPassed_of_absent hstatus rfl

/-- The search fails although there is no settings file. -/
theorem stray_bytes_stop_search :
    (∀ path ∈ places ⟨"/", []⟩, ¬IsSettingsFile strayTree path) ∧
      Answers (Session.Rests strayTree ()) (find Session.host (ofText "/")) (.error .notUtf8) := by
  have hplaces : places ⟨"/", []⟩ =
      [⟨"/", [".treeselect.toml"]⟩, ⟨"/", ["treeselect.toml"]⟩] ++ [⟨"/", [projectFile]⟩] := by
    decide
  have hbefore : ∀ path ∈ [(⟨"/", [".treeselect.toml"]⟩ : Path), ⟨"/", ["treeselect.toml"]⟩],
      IsPassed strayTree path := by
    simpa using ⟨isPassed_strayTree (by simp), isPassed_strayTree (by simp)⟩
  have hlocate : strayTree.locate true ⟨"/", [projectFile]⟩ =
      .ok (strayTree.rootLocation.child projectFile (.file ⟨#[0xff]⟩ 0)) :=
    FileSystem.Marks.root.locate_entry isSound_strayTree rfl rfl (by decide) (by decide) nofun
  have hstray : String.fromUTF8? ⟨#[0xff]⟩ = none := by decide
  have hproject : IsProjectFile strayTree ⟨"/", [projectFile]⟩ :=
    ⟨⟨_, FileSystem.status_eq_ok_iff.2 ⟨_, hlocate, rfl⟩, rfl⟩, rfl⟩
  have hread : strayTree.read ⟨"/", [projectFile]⟩ = .ok ⟨#[0xff]⟩ := by
    rw [FileSystem.read, hlocate]
    rfl
  have hstops : Stops strayTree ⟨"/", [projectFile]⟩ .notUtf8 :=
    .notUtf8 hproject hread hstray
  constructor
  · rw [hplaces]
    refine List.forall_mem_append.2 ⟨fun path hpath => (hbefore path hpath).noSettings, ?_⟩
    rw [List.forall_mem_singleton]
    rintro ⟨-, hdocument⟩
    obtain ⟨_, ⟨_, ⟨content, hcontent, htext⟩, -⟩, -⟩ := hdocument rfl
    rw [hread] at hcontent
    cases hcontent
    rw [hstray] at htext
    cases htext
  · have hpath : ofText "/" = ⟨"/", []⟩ := by decide
    have hstart : ((⟨"/", []⟩ : Path).origin, FileSystem.steps (Path.text ⟨"/", []⟩)) =
        (⟨"/", []⟩, ["."]) := by decide
    have hroot : strayTree.locate true ⟨"/", []⟩ = .ok strayTree.rootLocation := by
      refine FileSystem.locate_eq_ok_iff.2 ⟨by decide, by decide, _, rfl, ?_⟩
      rw [show FileSystem.steps (Path.text ⟨"/", []⟩) = ["."] by decide,
        FileSystem.follow_self_cons rfl, FileSystem.follow]
    refine answers_find isSound_strayTree () (by rw [hpath]; exact hroot) rfl ?_ ?_
    · rw [hpath, hstart]
      exact FileSystem.accepts_self (FileSystem.accepts_nil _ _)
    · rw [show strayTree.rootLocation.names = [] from rfl, hplaces]
      exact answers_firstCandidate_append () hbefore (hstops.answers_firstCandidate ())

end FileSelection.Settings
