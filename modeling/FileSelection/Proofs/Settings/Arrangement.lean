import FileSelection.Proofs.Settings.Failures
import FileSelection.Proofs.Settings.Spellings
import Mathlib.Data.List.Perm.Basic
import Mathlib.Logic.Relation

/-!
# Arrangements of a document

A document can be rearranged in steps: its keys and sections come in another order, a key moves into
a section or out of it, a section or a key gets another name, a key without a meaning comes or goes.
No step changes which values are written for a setting, apart from their order.  So there is no
difference for the settings as long as each of them is written once.
-/

namespace FileSelection.Settings

variable {setting : Setting} {document other entries rest : List (String × Value)}
  {key name : String} {value : Value}

/-! ## Steps -/

/-- One step of a rearrangement.  What a step does at the front of a document can be done anywhere,
since the order can be changed before and after it. -/
inductive Rearranges : List (String × Value) → List (String × Value) → Prop
  | reorder {document other : List (String × Value)} :
      document.Perm other → Rearranges document other
  | reorderSection {name : String} {entries others rest : List (String × Value)} :
      entries.Perm others →
        Rearranges ((name, .table entries) :: rest) ((name, .table others) :: rest)
  | enterSection {key name : String} {value : Value} {entries rest : List (String × Value)} :
      ¬ value.IsTable →
        Rearranges ((key, value) :: (name, .table entries) :: rest)
          ((name, .table ((key, value) :: entries)) :: rest)
  | addSection {name : String} {rest : List (String × Value)} :
      Rearranges rest ((name, .table []) :: rest)
  | renameSection {name other : String} {entries rest : List (String × Value)} :
      Rearranges ((name, .table entries) :: rest) ((other, .table entries) :: rest)
  | respell {key other : String} {value : Value} {rest : List (String × Value)} :
      Setting.underscored key = Setting.underscored other → ¬ value.IsTable →
        Rearranges ((key, value) :: rest) ((other, value) :: rest)
  | addUnknown {key : String} {value : Value} {rest : List (String × Value)} :
      Setting.ofKey? key = none → ¬ value.IsTable → Rearranges rest ((key, value) :: rest)

abbrev IsRearranged : List (String × Value) → List (String × Value) → Prop :=
  Relation.EqvGen Rearranges

theorem written_section : written ((name, .table entries) :: rest) = entries ++ written rest := rfl

theorem written_setting (h : ¬ value.IsTable) :
    written ((key, value) :: rest) = (key, value) :: written rest := by
  cases value with
  | table entries => exact absurd trivial h
  | _ => rfl

theorem perm_valuesOf (h : entries.Perm other) (setting : Setting) :
    (valuesOf setting entries).Perm (valuesOf setting other) :=
  (h.filter _).map _

theorem perm_valuesOf_of_rearranges (h : Rearranges document other) (setting : Setting) :
    (valuesOf setting (written document)).Perm (valuesOf setting (written other)) := by
  cases h with
  | reorder hperm => exact perm_valuesOf (hperm.flatMap_right _) setting
  | reorderSection hperm => exact perm_valuesOf (hperm.append_right _) setting
  | enterSection hvalue =>
      refine perm_valuesOf ?_ setting
      rw [written_setting hvalue, written_section, written_section]
      exact .refl _
  | addSection => exact .refl _
  | renameSection => exact .refl _
  | @respell key other value rest hspelling hvalue =>
      have hkey := Setting.ofKey?_congr hspelling
      rw [written_setting hvalue, written_setting hvalue]
      by_cases hsetting : Setting.ofKey? key = some setting
      · rw [valuesOf_cons_self hsetting, valuesOf_cons_self (hkey ▸ hsetting)]
      · rw [valuesOf_cons_of_ne hsetting, valuesOf_cons_of_ne (hkey ▸ hsetting)]
  | addUnknown hkey hvalue =>
      rw [written_setting hvalue, valuesOf_cons_of_ne (by simp [hkey])]

theorem perm_valuesOf_of_isRearranged (h : IsRearranged document other) (setting : Setting) :
    (valuesOf setting (written document)).Perm (valuesOf setting (written other)) := by
  induction h with
  | rel _ _ hstep => exact perm_valuesOf_of_rearranges hstep setting
  | refl _ => exact .refl _
  | symm _ _ _ ih => exact ih.symm
  | trans _ _ _ _ _ ih₁ ih₂ => exact ih₁.trans ih₂

/-! ## Documents that make each setting once -/

/-- No setting is written twice. -/
def WritesOnce (document : List (String × Value)) : Prop :=
  ∀ setting, (valuesOf setting (written document)).length ≤ 1

theorem writesOnce_of_keysDiffer (h : KeysDiffer (written document)) : WritesOnce document := by
  intro setting
  have hkeys : ∀ entry ∈ entriesOf setting (written document),
      Setting.underscored entry.1 = setting.name := by
    intro entry hentry
    exact (Setting.name_of_ofKey? (ofKey?_of_mem_entriesOf hentry)).symm
  have hnodup : KeysDiffer (entriesOf setting (written document)) :=
    (List.filter_sublist.map _).nodup h
  rw [KeysDiffer, List.map_eq_replicate_iff.2 hkeys, List.nodup_replicate] at hnodup
  rwa [valuesOf_eq_map, List.length_map]

theorem WritesOnce.valuesOf_flatten (h : WritesOnce document) (setting : Setting) :
    valuesOf setting (flatten document) = valuesOf setting (written document) := by
  have hlength := h setting
  rw [valuesOf_eq_map, List.length_map] at hlength
  rw [valuesOf_eq_map, valuesOf_eq_map, entriesOf_flatten]
  match entriesOf setting (written document), hlength with
  | [], _ => rfl
  | [entry], _ => rfl

theorem WritesOnce.of_isRearranged (hdocument : WritesOnce document)
    (h : IsRearranged document other) : WritesOnce other := fun setting =>
  (perm_valuesOf_of_isRearranged h setting).length_eq ▸ hdocument setting

theorem WritesOnce.valuesOf_eq (hdocument : WritesOnce document) (h : IsRearranged document other)
    (setting : Setting) :
    valuesOf setting (written document) = valuesOf setting (written other) := by
  have hperm := perm_valuesOf_of_isRearranged h setting
  match hvalues : valuesOf setting (written document), hdocument setting with
  | [], _ =>
      rw [hvalues] at hperm
      exact hperm.nil_eq
  | [value], _ =>
      rw [hvalues] at hperm
      exact List.singleton_perm.1 hperm

/-! ## The outcome -/

def IsRefused (document : List (String × Value)) : Prop :=
  ∃ key setting value, (key, value) ∈ written document ∧ Setting.ofKey? key = some setting ∧
    ¬ setting.Takes value ∧ (ofDocument document).1 = .error (wrong setting key value)

theorem forall_isRight_iff :
    (∀ entry ∈ entries, IsRight entry) ↔
      ∀ setting, ∀ value ∈ valuesOf setting entries, setting.Takes value := by
  constructor
  · intro h setting value hvalue
    obtain ⟨key, hmem, hkey⟩ := mem_valuesOf_iff.1 hvalue
    exact h _ hmem setting hkey
  · rintro h ⟨key, value⟩ hmem setting hkey
    exact h setting value (mem_valuesOf_iff.2 ⟨key, hmem, hkey⟩)

theorem WritesOnce.isRefused (h : WritesOnce document)
    (hwrong : ¬ ∀ entry ∈ written document, IsRight entry) : IsRefused document := by
  obtain ⟨hright, -⟩ | ⟨key, setting, value, hmem, hkey, htakes, hfailure⟩ :=
    putAll_cases {} (flatten document)
  · simp only [forall_isRight_iff, h.valuesOf_flatten] at hright hwrong
    exact absurd hright hwrong
  · exact ⟨key, setting, value, (mem_flatten_iff.1 hmem).mem_written, hkey, htakes, hfailure⟩

/-- If no two keys are spellings of one key, the sections and the order of a document, the names of
its sections, the spellings of its keys and the keys without a meaning do not matter: rearranged in
any way, the document makes the same settings, or is refused as before for a value of the wrong
type. -/
theorem arrangement_is_irrelevant (hdiffer : KeysDiffer (written document))
    (h : IsRearranged document other) :
    (∃ made, (ofDocument document).1 = .ok made ∧ (ofDocument other).1 = .ok made) ∨
      (IsRefused document ∧ IsRefused other) := by
  have honce := writesOnce_of_keysDiffer hdiffer
  have hother := honce.of_isRearranged h
  have hvalues := honce.valuesOf_eq h
  have hsame : (∀ entry ∈ written document, IsRight entry) ↔
      ∀ entry ∈ written other, IsRight entry := by
    simp only [forall_isRight_iff, hvalues]
  by_cases hright : ∀ entry ∈ written document, IsRight entry
  · obtain ⟨made, hmade, hcontent⟩ := ofDocument_of_right hright
    obtain ⟨made', hmade', hcontent'⟩ := ofDocument_of_right (hsame.1 hright)
    have heq : made = made' := eq_of_content? fun setting => by
      rw [hcontent, hcontent', honce.valuesOf_flatten, hother.valuesOf_flatten, hvalues]
    exact .inl ⟨made, hmade, heq ▸ hmade'⟩
  · exact .inr ⟨honce.isRefused hright, hother.isRefused fun h => hright (hsame.2 h)⟩

/-! ## A rearranged document -/

def scattered : List (String × Value) :=
  [("strict", .bool true), ("walk", .table [("follow-symlinks", .bool false)])]

def exchanged : List (String × Value) :=
  [("x", .int 1), ("options", .table [("strict", .bool true)]), ("follow_symlinks", .bool false)]

theorem isRearranged_exchanged : IsRearranged scattered exchanged := by
  have hout : Rearranges
      [("follow-symlinks", .bool false), ("walk", .table []), ("strict", .bool true)]
      [("walk", .table [("follow-symlinks", .bool false)]), ("strict", .bool true)] :=
    .enterSection id
  have hspelling : Rearranges
      [("follow-symlinks", .bool false), ("walk", .table []), ("strict", .bool true)]
      [("follow_symlinks", .bool false), ("walk", .table []), ("strict", .bool true)] :=
    .respell (by decide) id
  have hname : Rearranges
      [("walk", .table [("strict", .bool true)]), ("follow_symlinks", .bool false)]
      [("options", .table [("strict", .bool true)]), ("follow_symlinks", .bool false)] :=
    .renameSection
  have hin : Rearranges
      [("strict", .bool true), ("walk", .table []), ("follow_symlinks", .bool false)]
      [("walk", .table [("strict", .bool true)]), ("follow_symlinks", .bool false)] :=
    .enterSection id
  refine .trans _ _ _ (.rel _ _ (.reorder (.swap _ _ _))) ?_
  refine .trans _ _ _ (.symm _ _ (.rel _ _ hout)) ?_
  refine .trans _ _ _ (.rel _ _ hspelling) ?_
  refine .trans _ _ _ (.rel _ _ (.reorder (List.reverse_perm _).symm)) ?_
  refine .trans _ _ _ (.rel _ _ hin) ?_
  refine .trans _ _ _ (.rel _ _ hname) ?_
  exact .rel _ _ (.addUnknown (by decide) id)

theorem exchanged_keys_make_same_settings :
    KeysDiffer (written scattered) ∧ IsRearranged scattered exchanged ∧
      ∃ made, (ofDocument scattered).1 = .ok made ∧ (ofDocument exchanged).1 = .ok made := by
  have hdiffer : KeysDiffer (written scattered) := by decide
  refine ⟨hdiffer, isRearranged_exchanged, ?_⟩
  obtain hmade | ⟨⟨_, _, _, -, -, -, hfailure⟩, -⟩ :=
    arrangement_is_irrelevant hdiffer isRearranged_exchanged
  · exact hmade
  · have hmade : (ofDocument scattered).1 =
        .ok { strict := some true, followLinks := some false } := by decide
    rw [hfailure] at hmade
    cases hmade

end FileSelection.Settings
