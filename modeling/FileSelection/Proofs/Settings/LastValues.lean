import FileSelection.Proofs.Keyed
import FileSelection.Settings.Basic

/-!
# Values that count

Of the values that a document gives to one spelling of a key, only the last one counts.  The
settings are made from the values that count, and the first one of the wrong type is a failure that
names its key.  A value that is overwritten is not looked at, and neither is a table at the top
level, which is a section whatever its name.
-/

namespace FileSelection

/-! ## Types of values -/

def Value.IsText : Value → Prop
  | .text _ => True
  | _ => False

def Value.IsTextList : Value → Prop
  | .list items => ∀ item ∈ items, item.IsText
  | _ => False

def Value.IsFlag : Value → Prop
  | .bool _ => True
  | _ => False

def Setting.Takes : Setting → Value → Prop
  | .includes, value | .excludes, value | .prunes, value => value.IsText ∨ value.IsTextList
  | .ignoreFile, value | .basepath, value | .engine, value => value.IsText
  | .caseSensitive, value | .strict, value | .followLinks, value => value.IsFlag

def Setting.expected : Setting → String
  | .includes | .excludes | .prunes => "a string or a list of strings"
  | .ignoreFile | .basepath | .engine => "a string"
  | .caseSensitive | .strict | .followLinks => "true or false"

namespace Settings

inductive Content where
  | patterns (list : List String)
  | text (text : String)
  | flag (flag : Bool)
  deriving DecidableEq, Repr

def content? (settings : Settings) : Setting → Option Content
  | .includes => settings.includes.map .patterns
  | .excludes => settings.excludes.map .patterns
  | .prunes => settings.prunes.map .patterns
  | .ignoreFile => settings.ignoreFile.map .text
  | .basepath => settings.basepath.map .text
  | .engine => settings.engine.map .text
  | .caseSensitive => settings.caseSensitive.map .flag
  | .strict => settings.strict.map .flag
  | .followLinks => settings.followLinks.map .flag

def reading? : Setting → Value → Option Content
  | .includes, value | .excludes, value | .prunes, value => (patterns? value).map .patterns
  | .ignoreFile, value | .basepath, value | .engine, value => (text? value).map .text
  | .caseSensitive, value | .strict, value | .followLinks, value => (flag? value).map .flag

variable {setting : Setting} {value : Value}

theorem isSome_text?_iff : (text? value).isSome ↔ value.IsText := by
  cases value <;> simp [text?, Value.IsText]

theorem isSome_mapM_text?_iff {items : List Value} :
    (items.mapM text?).isSome ↔ ∀ item ∈ items, item.IsText := by
  induction items with
  | nil => simp
  | cons item items ih =>
      rw [List.forall_mem_cons, ← isSome_text?_iff, ← ih, List.mapM_cons]
      cases text? item with
      | none => simp
      | some text => cases items.mapM text? <;> simp

theorem isSome_patterns?_iff : (patterns? value).isSome ↔ value.IsText ∨ value.IsTextList := by
  cases value with
  | list items => simp [patterns?, Value.IsText, Value.IsTextList, isSome_mapM_text?_iff]
  | _ => simp [patterns?, Value.IsText, Value.IsTextList]

theorem isSome_flag?_iff : (flag? value).isSome ↔ value.IsFlag := by
  cases value <;> simp [flag?, Value.IsFlag]

theorem isSome_reading?_iff : (reading? setting value).isSome ↔ setting.Takes value := by
  cases setting <;> rw [reading?, Option.isSome_map]
  case includes | excludes | prunes => exact isSome_patterns?_iff
  case ignoreFile | basepath | engine => exact isSome_text?_iff
  case caseSensitive | strict | followLinks => exact isSome_flag?_iff

/-! ## One value -/

def wrong (setting : Setting) (key : String) (value : Value) : Failure :=
  if value.isShown then .wrongSetting key setting.expected value.shown else .longValue

theorem put_of_reading {content : Content} (settings : Settings) (key : String)
    (h : reading? setting value = some content) :
    ∃ made, settings.put setting key value = .ok made ∧
      ∀ other, made.content? other = if other = setting then some content
        else settings.content? other := by
  cases setting <;>
    · obtain ⟨read, hread, rfl⟩ := Option.map_eq_some_iff.1 h
      simp only [put, patternsOf, textOf, flagOf, hread, orWrong, Except.map]
      refine ⟨_, rfl, fun other => ?_⟩
      cases other <;> rfl

theorem put_of_no_reading (settings : Settings) (key : String)
    (h : reading? setting value = none) :
    settings.put setting key value = .error (wrong setting key value) := by
  cases setting <;>
    · have hread := Option.map_eq_none_iff.1 h
      simp only [put, patternsOf, textOf, flagOf, hread, orWrong, Except.map]
      rfl

/-! ## Entries one after the other -/

def IsRight (entry : String × Value) : Prop :=
  ∀ setting, Setting.ofKey? entry.1 = some setting → setting.Takes entry.2

def valuesOf (setting : Setting) (entries : List (String × Value)) : List Value :=
  (entries.filter fun entry => Setting.ofKey? entry.1 == some setting).map Prod.snd

/-- The settings are those that the last values make, on top of others. -/
def AreMadeFrom (settings : Settings) (entries : List (String × Value)) (made : Settings) : Prop :=
  ∀ setting, made.content? setting =
    ((valuesOf setting entries).getLast?.map (reading? setting)).getD (settings.content? setting)

variable {settings made : Settings} {entries : List (String × Value)} {key : String}

theorem valuesOf_cons_self (h : Setting.ofKey? key = some setting) :
    valuesOf setting ((key, value) :: entries) = value :: valuesOf setting entries := by
  rw [valuesOf, List.filter_cons_of_pos (by simp [h])]
  rfl

theorem valuesOf_cons_of_ne (h : Setting.ofKey? key ≠ some setting) :
    valuesOf setting ((key, value) :: entries) = valuesOf setting entries := by
  rw [valuesOf, List.filter_cons_of_neg (by simpa using h)]
  rfl

theorem mem_valuesOf_iff :
    value ∈ valuesOf setting entries ↔
      ∃ key, (key, value) ∈ entries ∧ Setting.ofKey? key = some setting := by
  simp [valuesOf]

theorem AreMadeFrom.cons_unknown (hkey : Setting.ofKey? key = none)
    (h : settings.AreMadeFrom entries made) :
    settings.AreMadeFrom ((key, value) :: entries) made := by
  intro setting
  rw [valuesOf_cons_of_ne (by simp [hkey])]
  exact h setting

theorem AreMadeFrom.cons_known {first : Settings} {content : Content}
    (hkey : Setting.ofKey? key = some setting) (hreading : reading? setting value = some content)
    (hfirst : ∀ other, first.content? other = if other = setting then some content
      else settings.content? other)
    (h : first.AreMadeFrom entries made) :
    settings.AreMadeFrom ((key, value) :: entries) made := by
  intro other
  rw [h other, hfirst other]
  by_cases hother : other = setting
  · subst hother
    rw [valuesOf_cons_self hkey, if_pos rfl, List.getLast?_cons, ← hreading]
    cases (valuesOf other entries).getLast? <;> rfl
  · have hne : Setting.ofKey? key ≠ some other := by simpa [hkey] using Ne.symm hother
    rw [valuesOf_cons_of_ne hne, if_neg hother]

theorem putAll_cases (settings : Settings) (entries : List (String × Value)) :
    ((∀ entry ∈ entries, IsRight entry) ∧
      ∃ made, (putAll settings entries).1 = .ok made ∧ settings.AreMadeFrom entries made) ∨
    ∃ key setting value, (key, value) ∈ entries ∧ Setting.ofKey? key = some setting ∧
      ¬ setting.Takes value ∧ (putAll settings entries).1 = .error (wrong setting key value) := by
  induction entries generalizing settings with
  | nil => exact .inl ⟨List.forall_mem_nil _, settings, rfl, fun setting => rfl⟩
  | cons entry entries ih =>
      obtain ⟨key, value⟩ := entry
      cases hkey : Setting.ofKey? key with
      | none =>
          have hputAll : (putAll settings ((key, value) :: entries)).1 =
              (putAll settings entries).1 := by simp only [putAll, hkey]
          rw [hputAll]
          refine (ih settings).imp ?_ ?_
          · rintro ⟨hright, made, hmade, hfrom⟩
            refine ⟨List.forall_mem_cons.2 ⟨?_, hright⟩, made, hmade, hfrom.cons_unknown hkey⟩
            intro setting hsetting
            cases hkey.symm.trans hsetting
          · rintro ⟨other, setting, found, hmem, hwrong⟩
            exact ⟨other, setting, found, List.mem_cons_of_mem _ hmem, hwrong⟩
      | some setting =>
          cases hreading : reading? setting value with
          | none =>
              refine .inr ⟨key, setting, value, List.mem_cons_self, hkey, ?_, ?_⟩
              · rw [← isSome_reading?_iff, hreading]
                simp
              · simp only [putAll, hkey, put_of_no_reading settings key hreading]
          | some content =>
              obtain ⟨first, hput, hfirst⟩ := put_of_reading settings key hreading
              have hputAll : (putAll settings ((key, value) :: entries)).1 =
                  (putAll first entries).1 := by simp only [putAll, hkey, hput]
              rw [hputAll]
              refine (ih first).imp ?_ ?_
              · rintro ⟨hright, made, hmade, hfrom⟩
                refine ⟨List.forall_mem_cons.2 ⟨?_, hright⟩, made, hmade,
                  hfrom.cons_known hkey hreading hfirst⟩
                intro other hother
                cases hkey.symm.trans hother
                rw [← isSome_reading?_iff, hreading]
                rfl
              · rintro ⟨other, otherSetting, found, hmem, hwrong⟩
                exact ⟨other, otherSetting, found, List.mem_cons_of_mem _ hmem, hwrong⟩

/-! ## Documents -/

def written (document : List (String × Value)) : List (String × Value) :=
  document.flatMap fun entry =>
    match entry.2 with
    | .table entries => entries
    | value => [(entry.1, value)]

/-- The key has the value, at the top level or in one section. -/
def Occurs (document : List (String × Value)) (key : String) (value : Value) : Prop :=
  (key, value) ∈ document ∨
    ∃ name entries, (name, .table entries) ∈ document ∧ (key, value) ∈ entries

/-- The value is the last one that is written for this spelling of the key. -/
def Counts (document : List (String × Value)) (key : String) (value : Value) : Prop :=
  (written document).reverse.lookup key = some value

variable {document : List (String × Value)}

theorem flatten_eq_foldl_put (document : List (String × Value)) :
    flatten document =
      (written document).foldl (fun flat entry => Keyed.put entry.1 entry.2 flat) [] := by
  rw [written, List.foldl_flatMap, flatten]
  congr 1
  funext flat entry
  obtain ⟨key, value⟩ := entry
  cases value <;> rfl

theorem mem_flatten_iff : (key, value) ∈ flatten document ↔ Counts document key value := by
  have hnodup : ((flatten document).map Prod.fst).Nodup := by
    rw [flatten_eq_foldl_put]
    exact Keyed.nodup_keys_foldl_put List.nodup_nil
  rw [← Keyed.lookup_eq_some_iff_mem hnodup, flatten_eq_foldl_put, Keyed.lookup_foldl_put,
    List.lookup_nil, Option.or_none, Counts]

theorem Counts.mem_written (h : Counts document key value) : (key, value) ∈ written document :=
  List.mem_reverse.1 (Keyed.mem_of_lookup h)

theorem exists_counts (h : (key, value) ∈ written document) : ∃ last, Counts document key last := by
  rw [← List.mem_reverse] at h
  cases hlookup : (written document).reverse.lookup key with
  | none => simpa using List.lookup_eq_none_iff.1 hlookup _ h
  | some last => exact ⟨last, hlookup⟩

theorem counts_of_nodup (hnodup : ((written document).map Prod.fst).Nodup)
    (h : (key, value) ∈ written document) : Counts document key value := by
  have hreverse : ((written document).reverse.map Prod.fst).Nodup := by
    rw [List.map_reverse]
    exact List.nodup_reverse.2 hnodup
  exact (Keyed.lookup_eq_some_iff_mem hreverse).2 (List.mem_reverse.2 h)

theorem occurs_of_mem_written (h : (key, value) ∈ written document) :
    Occurs document key value := by
  obtain ⟨⟨name, found⟩, hfound, hmem⟩ := List.mem_flatMap.1 h
  cases found with
  | table entries => exact .inr ⟨name, entries, hfound, hmem⟩
  | _ =>
      cases List.mem_singleton.1 hmem
      exact .inl hfound

theorem Occurs.mem_written (h : Occurs document key value)
    (htables : ∀ entries, (key, .table entries) ∉ document) : (key, value) ∈ written document := by
  obtain hmem | ⟨name, entries, hmem, hentry⟩ := h
  · refine List.mem_flatMap.2 ⟨_, hmem, ?_⟩
    cases value with
    | table entries => exact absurd hmem (htables entries)
    | _ => exact List.mem_singleton_self _
  · exact List.mem_flatMap.2 ⟨_, hmem, hentry⟩

/-- A value that counts is not of the type of its setting. -/
structure IsWrong (document : List (String × Value)) (key : String) (setting : Setting)
    (value : Value) : Prop where
  counts : Counts document key value
  known : Setting.ofKey? key = some setting
  notTaken : ¬ setting.Takes value

theorem message_wrong (setting : Setting) (key : String) (h : value.isShown = true) :
    (wrong setting key value).message =
      s!"Config key `{key}` must be {setting.expected}: {value.shown}" := by
  rw [wrong, if_pos h]
  rfl

theorem content?_empty (setting : Setting) : ({} : Settings).content? setting = none := by
  cases setting <;> rfl

theorem AreMadeFrom.counts {content : Content}
    (h : ({} : Settings).AreMadeFrom (flatten document) made)
    (hcontent : made.content? setting = some content) :
    ∃ key value, Counts document key value ∧ Setting.ofKey? key = some setting ∧
      setting.Takes value ∧ reading? setting value = some content := by
  rw [h setting, content?_empty] at hcontent
  cases hlast : (valuesOf setting (flatten document)).getLast? with
  | none =>
      rw [hlast] at hcontent
      cases hcontent
  | some value =>
      rw [hlast, Option.map_some, Option.getD_some] at hcontent
      obtain ⟨key, hmem, hkey⟩ := mem_valuesOf_iff.1 (List.mem_of_getLast? hlast)
      refine ⟨key, value, mem_flatten_iff.1 hmem, hkey, ?_, hcontent⟩
      rw [← isSome_reading?_iff, hcontent]
      rfl

theorem AreMadeFrom.isSome_content? (h : ({} : Settings).AreMadeFrom (flatten document) made)
    (hright : ∀ entry ∈ flatten document, IsRight entry) (hcounts : Counts document key value)
    (hkey : Setting.ofKey? key = some setting) : (made.content? setting).isSome := by
  have hmem : value ∈ valuesOf setting (flatten document) :=
    mem_valuesOf_iff.2 ⟨key, mem_flatten_iff.2 hcounts, hkey⟩
  rw [h setting]
  cases hlast : (valuesOf setting (flatten document)).getLast? with
  | none =>
      rw [List.getLast?_eq_none_iff.1 hlast] at hmem
      cases hmem
  | some last =>
      obtain ⟨other, hother, hnamed⟩ := mem_valuesOf_iff.1 (List.mem_of_getLast? hlast)
      exact isSome_reading?_iff.2 (hright _ hother setting hnamed)

/-- A document is refused exactly if a value that counts is of the wrong type, and the failure names
the key of such a value.  Otherwise the settings are those whose keys are written, each with what
one of the values that count makes of it.  If no spelling is written twice and no setting is given a
table at the top level, every value that occurs counts. -/
theorem wrong_values_that_count_are_named (document : List (String × Value)) :
    ((∃ key setting value, IsWrong document key setting value) →
      ∃ key setting value, IsWrong document key setting value ∧
        (ofDocument document).1 = .error (wrong setting key value) ∧
        (value.isShown = true → (wrong setting key value).message =
          s!"Config key `{key}` must be {setting.expected}: {value.shown}")) ∧
    ((∀ key setting value, ¬ IsWrong document key setting value) →
      ∃ made, (ofDocument document).1 = .ok made ∧ ∀ setting,
        (∀ content, made.content? setting = some content → ∃ key value,
          Counts document key value ∧ Setting.ofKey? key = some setting ∧
            setting.Takes value ∧ reading? setting value = some content) ∧
        ((made.content? setting).isSome ↔
          ∃ key value, (key, value) ∈ written document ∧ Setting.ofKey? key = some setting)) ∧
    (((written document).map Prod.fst).Nodup →
      (∀ key entries, (key, .table entries) ∈ document → Setting.ofKey? key = none) →
        ∀ key setting value, Setting.ofKey? key = some setting →
          (Occurs document key value ↔ Counts document key value)) := by
  refine ⟨?_, ?_, ?_⟩
  · rintro ⟨key, setting, value, hwrong⟩
    obtain ⟨hright, -⟩ | ⟨key, setting, value, hmem, hkey, htakes, hfailure⟩ :=
      putAll_cases {} (flatten document)
    · exact absurd (hright _ (mem_flatten_iff.2 hwrong.counts) setting hwrong.known) hwrong.notTaken
    · exact ⟨key, setting, value, ⟨mem_flatten_iff.1 hmem, hkey, htakes⟩, hfailure,
        message_wrong setting key⟩
  · intro hnone
    obtain ⟨hright, made, hmade, hfrom⟩ | ⟨key, setting, value, hmem, hkey, htakes, -⟩ :=
      putAll_cases {} (flatten document)
    · refine ⟨made, hmade, fun setting => ⟨fun content => hfrom.counts, ?_, ?_⟩⟩
      · intro hset
        obtain ⟨content, hcontent⟩ := Option.isSome_iff_exists.1 hset
        obtain ⟨key, value, hcounts, hkey, -⟩ := hfrom.counts hcontent
        exact ⟨key, value, hcounts.mem_written, hkey⟩
      · rintro ⟨key, value, hwritten, hkey⟩
        obtain ⟨last, hcounts⟩ := exists_counts hwritten
        exact hfrom.isSome_content? hright hcounts hkey
    · exact absurd ⟨mem_flatten_iff.1 hmem, hkey, htakes⟩ (hnone key setting value)
  · intro hnodup htables key setting value hkey
    constructor
    · intro h
      refine counts_of_nodup hnodup (h.mem_written fun entries hmem => ?_)
      cases hkey.symm.trans (htables key entries hmem)
    · exact fun h => occurs_of_mem_written h.mem_written

/-! ## A value that is overwritten -/

def strictTwice (more : List (String × Value)) : List (String × Value) :=
  [("strict", .text "yes"), ("walk", .table (("strict", .bool true) :: more))]

theorem wrong_section_value_is_named :
    (ofDocument (strictTwice [("ignore-dirs", .bool true)])).1 =
      .error (.wrongSetting "ignore-dirs" "a string or a list of strings" "True") := by
  have hwrong : IsWrong (strictTwice [("ignore-dirs", .bool true)]) "ignore-dirs" .prunes
      (.bool true) := ⟨rfl, by decide, by rintro (h | h) <;> exact h⟩
  obtain ⟨hnamed, -, -⟩ :=
    wrong_values_that_count_are_named (strictTwice [("ignore-dirs", .bool true)])
  obtain ⟨key, setting, value, ⟨hcounts, hkey, htakes⟩, hfailure, -⟩ := hnamed ⟨_, _, _, hwrong⟩
  rw [hfailure]
  by_cases hfirst : key = "ignore-dirs"
  · subst hfirst
    cases hcounts.symm.trans hwrong.counts
    cases hkey.symm.trans hwrong.known
    rfl
  · have hstrict : key = "strict" := by
      have hmem : key ∈ (written (strictTwice [("ignore-dirs", .bool true)])).map Prod.fst :=
        List.mem_map_of_mem hcounts.mem_written
      simpa [written, strictTwice, hfirst] using hmem
    subst hstrict
    have hcounts' : Counts (strictTwice [("ignore-dirs", .bool true)]) "strict" (.bool true) := rfl
    have hkey' : Setting.ofKey? "strict" = some .strict := by decide
    cases hcounts.symm.trans hcounts'
    cases hkey.symm.trans hkey'
    exact absurd trivial htakes

/-- A value of the wrong type is passed over when the key is written again. -/
theorem overwritten_value_is_not_checked :
    ¬ ∀ document key setting value, Occurs document key value →
      Setting.ofKey? key = some setting → ¬ setting.Takes value →
        ∃ failure, (ofDocument document).1 = .error failure := by
  intro h
  obtain ⟨failure, hfailure⟩ := h (strictTwice []) "strict" .strict (.text "yes")
    (.inl List.mem_cons_self) (by decide) id
  have hmade : (ofDocument (strictTwice [])).1 = .ok { strict := some true } := by decide
  cases hfailure.symm.trans hmade

end Settings

end FileSelection
