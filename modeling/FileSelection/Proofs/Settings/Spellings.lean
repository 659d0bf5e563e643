import FileSelection.Proofs.Settings.LastValues

/-!
# Spellings of keys

A key may be written with hyphens in place of its underscores.  The values of a setting are gathered
under each of its spellings before the spellings are taken for one key, so that the spelling that
has come in last decides, and within it the last value.  With underscores in all keys it is the last
value that decides.  The two differ only where a setting returns to a spelling after another one has
come in.
-/

namespace FileSelection

mutual

/-- The value with underscores in place of the hyphens in all keys. -/
def Value.underscored : Value → Value
  | .list items => .list (Value.underscoredItems items)
  | .table entries => .table (Value.underscoredEntries entries)
  | value => value

def Value.underscoredItems : List Value → List Value
  | [] => []
  | item :: items => item.underscored :: Value.underscoredItems items

def Value.underscoredEntries : List (String × Value) → List (String × Value)
  | [] => []
  | (key, value) :: entries =>
      (Setting.underscored key, value.underscored) :: Value.underscoredEntries entries

end

theorem Value.underscoredEntries_eq_map (entries : List (String × Value)) :
    Value.underscoredEntries entries =
      entries.map fun entry => (Setting.underscored entry.1, entry.2.underscored) := by
  induction entries with
  | nil => rfl
  | cons entry entries ih => rw [Value.underscoredEntries, ih, List.map_cons]

namespace Setting

variable {key : String} {setting : Setting} {value : Value}

theorem underscored_underscored (key : String) : underscored (underscored key) = underscored key := by
  unfold underscored
  rw [String.toList_ofList, List.map_map]
  congr 1
  refine List.map_congr_left fun c _ => ?_
  by_cases hc : c = '-' <;> simp [hc]

theorem ofKey?_underscored (key : String) : ofKey? (underscored key) = ofKey? key := by
  rw [ofKey?, underscored_underscored, ofKey?]

theorem ofKey?_congr {other : String} (h : underscored key = underscored other) :
    ofKey? key = ofKey? other := by
  rw [← ofKey?_underscored key, h, ofKey?_underscored]

theorem name_of_ofKey? (h : ofKey? key = some setting) : setting.name = underscored key := by
  unfold ofKey? at h
  exact eq_of_beq (List.find?_some h :)

theorem underscoredItems_of_texts {items : List Value} (h : ∀ item ∈ items, item.IsText) :
    Value.underscoredItems items = items := by
  induction items with
  | nil => rfl
  | cons item items ih =>
      obtain ⟨hitem, hitems⟩ := List.forall_mem_cons.1 h
      rw [Value.underscoredItems, ih hitems]
      cases item with
      | text text => rfl
      | _ => exact hitem.elim

theorem Takes.underscored_eq (h : setting.Takes value) : value.underscored = value := by
  cases value with
  | list items =>
      have htexts : ∀ item ∈ items, item.IsText := by
        cases setting with
        | includes | excludes | prunes => exact h.resolve_left id
        | ignoreFile | basepath | engine | caseSensitive | strict | followLinks => exact h.elim
      rw [Value.underscored, underscoredItems_of_texts htexts]
  | table entries => cases setting <;> simp [Takes, Value.IsText, Value.IsTextList, Value.IsFlag] at h
  | _ => rfl

end Setting

namespace Settings

variable {setting : Setting} {document entries : List (String × Value)} {key : String}

/-! ## The entries of a setting -/

/-- No two of the keys are spellings of one key. -/
def KeysDiffer (entries : List (String × Value)) : Prop :=
  (entries.map fun entry => Setting.underscored entry.1).Nodup

instance : Decidable (KeysDiffer entries) := inferInstanceAs (Decidable (List.Nodup _))

def entriesOf (setting : Setting) (entries : List (String × Value)) : List (String × Value) :=
  entries.filter fun entry => Setting.ofKey? entry.1 == some setting

def spellings (setting : Setting) (entries : List (String × Value)) : List String :=
  ((entriesOf setting entries).map Prod.fst).eraseDups

/-- The last value of the setting is written under a spelling that is older than another one. -/
def ReturnsToSpelling (setting : Setting) (entries : List (String × Value)) : Prop :=
  (entriesOf setting entries).getLast?.map Prod.fst ≠ (spellings setting entries).getLast?

theorem valuesOf_eq_map (setting : Setting) (entries : List (String × Value)) :
    valuesOf setting entries = (entriesOf setting entries).map Prod.snd := rfl

theorem entriesOf_flatten (setting : Setting) (document : List (String × Value)) :
    entriesOf setting (flatten document) =
      (entriesOf setting (written document)).foldl
        (fun flat entry => Keyed.put entry.1 entry.2 flat) [] := by
  rw [flatten_eq_foldl_put, entriesOf,
    Keyed.filter_foldl_put (fun key => Setting.ofKey? key == some setting), List.filter_nil, entriesOf]

theorem lookup_reverse_entriesOf (h : Setting.ofKey? key = some setting)
    (entries : List (String × Value)) :
    (entriesOf setting entries).reverse.lookup key = entries.reverse.lookup key := by
  rw [entriesOf, ← List.filter_reverse]
  exact Keyed.lookup_filter (fun key => Setting.ofKey? key == some setting) (by simp [h]) _

theorem ofKey?_of_mem_entriesOf {entry : String × Value} (h : entry ∈ entriesOf setting entries) :
    Setting.ofKey? entry.1 = some setting :=
  eq_of_beq (List.mem_filter.1 h).2

theorem getLast?_valuesOf_flatten (setting : Setting) (document : List (String × Value)) :
    (valuesOf setting (flatten document)).getLast? =
      (spellings setting (written document)).getLast?.bind fun key =>
        (written document).reverse.lookup key := by
  rw [valuesOf_eq_map, List.getLast?_map, entriesOf_flatten, Keyed.getLast?_foldl_put, spellings]
  cases hlast : ((entriesOf setting (written document)).map Prod.fst).eraseDups.getLast? with
  | none => rfl
  | some key =>
      have hmem := List.mem_eraseDups.1 (List.mem_of_getLast? hlast)
      obtain ⟨entry, hentry, rfl⟩ := List.mem_map.1 hmem
      rw [Option.bind_some, Option.bind_some,
        lookup_reverse_entriesOf (ofKey?_of_mem_entriesOf hentry)]
      cases (written document).reverse.lookup entry.1 <;> rfl

theorem getLast?_valuesOf_of_not_returns (h : ¬ ReturnsToSpelling setting (written document)) :
    (valuesOf setting (flatten document)).getLast? =
      (valuesOf setting (written document)).getLast? := by
  rw [ReturnsToSpelling, not_not] at h
  rw [getLast?_valuesOf_flatten, ← h, valuesOf_eq_map, List.getLast?_map]
  cases hlast : (entriesOf setting (written document)).getLast? with
  | none => rfl
  | some entry =>
      obtain ⟨key, value⟩ := entry
      have hkey := ofKey?_of_mem_entriesOf (List.mem_of_getLast? hlast)
      obtain ⟨front, hfront⟩ := List.getLast?_eq_some_iff.1 hlast
      show (written document).reverse.lookup key = some value
      rw [← lookup_reverse_entriesOf hkey, hfront]
      simp

/-! ## Settings that return to no spelling -/

theorem not_returnsToSpelling_of_one (key : String)
    (h : ∀ entry ∈ entriesOf setting entries, entry.1 = key) :
    ¬ ReturnsToSpelling setting entries := by
  have hkeys : ∀ other ∈ (entriesOf setting entries).map Prod.fst, other = key :=
    List.forall_mem_map.2 h
  rw [ReturnsToSpelling, not_not, spellings, ← List.getLast?_map]
  cases hmap : (entriesOf setting entries).map Prod.fst with
  | nil => rfl
  | cons first rest =>
      rw [hmap] at hkeys
      have hsame : ∀ other ∈ rest, other = first := fun other hother =>
        (hkeys other (List.mem_cons_of_mem _ hother)).trans (hkeys first List.mem_cons_self).symm
      have hnone : (rest.filter fun other => !other == first) = [] := by simpa using hsame
      rw [List.eraseDups_cons, hnone, List.getLast?_cons]
      cases hlast : rest.getLast? with
      | none => rfl
      | some last => exact congrArg some (hsame last (List.mem_of_getLast? hlast))

theorem not_returnsToSpelling_of_length_le (h : (valuesOf setting entries).length ≤ 2) :
    ¬ ReturnsToSpelling setting entries := by
  rw [valuesOf_eq_map, List.length_map] at h
  rw [ReturnsToSpelling, not_not, spellings]
  match hentries : entriesOf setting entries, h with
  | [], _ => rfl
  | [first], _ => rfl
  | [first, second], _ =>
      by_cases hkey : second.1 = first.1
      · simp [List.eraseDups_cons, hkey]
      · simp [List.eraseDups_cons, hkey]

/-! ## Documents with underscores -/

def underscoredEntry (entry : String × Value) : String × Value :=
  (Setting.underscored entry.1, entry.2.underscored)

theorem written_underscored (document : List (String × Value)) :
    written (Value.underscoredEntries document) = (written document).map underscoredEntry := by
  induction document with
  | nil => rfl
  | cons entry document ih =>
      obtain ⟨key, value⟩ := entry
      unfold written at ih ⊢
      rw [Value.underscoredEntries, List.flatMap_cons, List.flatMap_cons, List.map_append, ih]
      congr 1
      cases value with
      | table entries =>
          simp only [Value.underscored]
          exact Value.underscoredEntries_eq_map entries
      | list items => simp only [Value.underscored, List.map_cons, List.map_nil, underscoredEntry]
      | _ => rfl

theorem entriesOf_underscored (setting : Setting) (document : List (String × Value)) :
    entriesOf setting (written (Value.underscoredEntries document)) =
      (entriesOf setting (written document)).map underscoredEntry := by
  rw [written_underscored, entriesOf, List.filter_map, entriesOf]
  refine congrArg (List.map underscoredEntry) (List.filter_congr fun entry _ => ?_)
  simp [underscoredEntry, Setting.ofKey?_underscored]

theorem underscored_of_isRight {entry : String × Value} (h : IsRight entry)
    (hkey : Setting.ofKey? entry.1 = some setting) : (underscoredEntry entry).2 = entry.2 :=
  (h setting hkey).underscored_eq

theorem IsRight.underscored {entry : String × Value} (h : IsRight entry) :
    IsRight (underscoredEntry entry) := by
  intro setting hkey
  rw [underscoredEntry, Setting.ofKey?_underscored] at hkey
  rw [underscored_of_isRight h hkey]
  exact h setting hkey

theorem valuesOf_underscored (hright : ∀ entry ∈ written document, IsRight entry)
    (setting : Setting) :
    valuesOf setting (written (Value.underscoredEntries document)) =
      valuesOf setting (written document) := by
  rw [valuesOf_eq_map, valuesOf_eq_map, entriesOf_underscored, List.map_map]
  refine List.map_congr_left fun entry hentry => ?_
  exact underscored_of_isRight (hright entry (List.mem_filter.1 hentry).1)
    (ofKey?_of_mem_entriesOf hentry)

theorem not_returnsToSpelling_underscored (setting : Setting) (document : List (String × Value)) :
    ¬ ReturnsToSpelling setting (written (Value.underscoredEntries document)) := by
  refine not_returnsToSpelling_of_one setting.name fun entry hentry => ?_
  have hkey := ofKey?_of_mem_entriesOf hentry
  rw [entriesOf_underscored] at hentry
  obtain ⟨plain, -, rfl⟩ := List.mem_map.1 hentry
  rw [Setting.name_of_ofKey? hkey]
  exact (Setting.underscored_underscored plain.1).symm

/-! ## What the settings are -/

theorem eq_of_content? {first second : Settings}
    (h : ∀ setting, first.content? setting = second.content? setting) : first = second := by
  have hpatterns : Function.Injective (Option.map Content.patterns) :=
    Option.map_injective fun _ _ => Content.patterns.inj
  have htext : Function.Injective (Option.map Content.text) :=
    Option.map_injective fun _ _ => Content.text.inj
  have hflag : Function.Injective (Option.map Content.flag) :=
    Option.map_injective fun _ _ => Content.flag.inj
  cases first
  cases second
  simp only [Settings.mk.injEq]
  exact ⟨hpatterns (h .includes), hpatterns (h .excludes), hpatterns (h .prunes),
    htext (h .ignoreFile), htext (h .basepath), htext (h .engine), hflag (h .caseSensitive),
    hflag (h .strict), hflag (h .followLinks)⟩

theorem ofDocument_of_right (hright : ∀ entry ∈ written document, IsRight entry) :
    ∃ made, (ofDocument document).1 = .ok made ∧ ∀ setting, made.content? setting =
      (valuesOf setting (flatten document)).getLast?.bind (reading? setting) := by
  obtain ⟨-, made, hmade, hfrom⟩ | ⟨key, setting, value, hmem, hkey, htakes, -⟩ :=
    putAll_cases {} (flatten document)
  · refine ⟨made, hmade, fun setting => ?_⟩
    rw [hfrom setting, content?_empty]
    cases (valuesOf setting (flatten document)).getLast? <;> rfl
  · exact absurd (hright _ (mem_flatten_iff.1 hmem).mem_written setting hkey) htakes

/-- If all values are of the right types, the settings are made with whatever spelling of the keys.
With underscores in all keys, each setting is what its last value makes of it.  As the keys are
written, it is what the last value of its newest spelling makes of it, which is the same unless the
setting returns to an older spelling and, in any case, if it is written at most twice. -/
theorem newest_spelling_decides (document : List (String × Value))
    (hright : ∀ entry ∈ written document, IsRight entry) :
    ∃ made plain, (ofDocument document).1 = .ok made ∧
      (ofDocument (Value.underscoredEntries document)).1 = .ok plain ∧
      (∀ setting, plain.content? setting =
        (valuesOf setting (written document)).getLast?.bind (reading? setting)) ∧
      (∀ setting, made.content? setting =
        ((spellings setting (written document)).getLast?.bind fun key =>
          (written document).reverse.lookup key).bind (reading? setting)) ∧
      (∀ setting, ¬ ReturnsToSpelling setting (written document) →
        made.content? setting = plain.content? setting) ∧
      ((∀ setting, ¬ ReturnsToSpelling setting (written document) ∨
        (valuesOf setting (written document)).length ≤ 2) → made = plain) := by
  obtain ⟨made, hmade, hcontent⟩ := ofDocument_of_right hright
  have hunderscored : ∀ entry ∈ written (Value.underscoredEntries document), IsRight entry := by
    rw [written_underscored]
    exact List.forall_mem_map.2 fun entry hentry => (hright entry hentry).underscored
  obtain ⟨plain, hplain, hlast⟩ := ofDocument_of_right hunderscored
  have hplainContent (setting : Setting) : plain.content? setting =
      (valuesOf setting (written document)).getLast?.bind (reading? setting) := by
    rw [hlast, getLast?_valuesOf_of_not_returns (not_returnsToSpelling_underscored setting document),
      valuesOf_underscored hright]
  have hsame (setting : Setting) (h : ¬ ReturnsToSpelling setting (written document)) :
      made.content? setting = plain.content? setting := by
    rw [hcontent, hplainContent, getLast?_valuesOf_of_not_returns h]
  refine ⟨made, plain, hmade, hplain, hplainContent, fun setting => ?_, hsame, fun h => ?_⟩
  · rw [hcontent, getLast?_valuesOf_flatten]
  · exact eq_of_content? fun setting =>
      hsame setting ((h setting).elim id not_returnsToSpelling_of_length_le)

/-! ## Two spellings in three sections -/

def hyphenAgain : List (String × Value) :=
  [("a", .table [("case-sensitive", .bool true)]), ("b", .table [("case_sensitive", .bool false)]),
    ("c", .table [("case-sensitive", .bool true)])]

theorem isRight_hyphenAgain : ∀ entry ∈ written hyphenAgain, IsRight entry := by
  have hyphen : Setting.ofKey? "case-sensitive" = some .caseSensitive := by decide
  have underscore : Setting.ofKey? "case_sensitive" = some .caseSensitive := by decide
  have hright {key : String} (flag : Bool) (hkey : Setting.ofKey? key = some .caseSensitive) :
      IsRight (key, .bool flag) := by
    intro setting hsetting
    cases hkey.symm.trans hsetting
    exact trivial
  exact List.forall_mem_cons.2 ⟨hright true hyphen, List.forall_mem_cons.2
    ⟨hright false underscore, List.forall_mem_singleton.2 (hright true hyphen)⟩⟩

theorem middle_value_decides :
    ∃ made plain, (ofDocument hyphenAgain).1 = .ok made ∧
      (ofDocument (Value.underscoredEntries hyphenAgain)).1 = .ok plain ∧
      made.content? .caseSensitive = some (.flag false) ∧
      plain.content? .caseSensitive = some (.flag true) := by
  obtain ⟨made, plain, hmade, hplain, hlast, hnewest, -, -⟩ :=
    newest_spelling_decides hyphenAgain isRight_hyphenAgain
  refine ⟨made, plain, hmade, hplain, ?_, ?_⟩
  · rw [hnewest]
    decide
  · rw [hlast]
    decide

/-- No table has two spellings of one key and all values are of the right types, and still it
matters whether the key is written with a hyphen. -/
theorem spelling_matters_where_it_returns :
    (∀ entry ∈ written hyphenAgain, IsRight entry) ∧
    KeysDiffer hyphenAgain ∧
    (∀ name entries, (name, .table entries) ∈ hyphenAgain → KeysDiffer entries) ∧
    (ofDocument hyphenAgain).1 ≠ (ofDocument (Value.underscoredEntries hyphenAgain)).1 := by
  refine ⟨isRight_hyphenAgain, by decide, ?_, by decide⟩
  intro name entries hmem
  simp only [hyphenAgain, List.mem_cons, List.not_mem_nil, or_false, Prod.mk.injEq,
    Value.table.injEq] at hmem
  obtain ⟨-, rfl⟩ | ⟨-, rfl⟩ | ⟨-, rfl⟩ := hmem
  · decide
  · decide
  · decide

end Settings

end FileSelection
