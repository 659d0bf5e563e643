import FileSelection.CommandLine.Options
import FileSelection.Proofs.CommandLine.Words
import Mathlib.Data.List.Induction

/-!
# What goes before what

A setting that the command line makes itself goes before the one in a settings file, however empty
its value is, and that one goes before the value that the options start from.
-/

namespace FileSelection

open CommandLine

/-! ## Values of settings -/

inductive SettingValue where
  | patterns (list : List Argument)
  | file (file : Option Argument)
  | text (text : String)
  | flag (flag : Bool)

def Options.value (options : Options) : Setting → SettingValue
  | .includes => .patterns options.includes
  | .excludes => .patterns options.excludes
  | .prunes => .patterns options.prunes
  | .ignoreFile => .file options.ignoreFile
  | .basepath => .text options.basepath
  | .engine => .text options.engine
  | .caseSensitive => .flag options.caseSensitive
  | .strict => .flag options.strict
  | .followLinks => .flag options.followLinks

def Options.withoutSettings (options : Options) : Options :=
  { ({} : Options) with
    directory := options.directory
    bottomUp := options.bottomUp
    selected := options.selected
    absolute := options.absolute
    settingsFile := options.settingsFile
    noSettings := options.noSettings
    verbose := options.verbose
    version := options.version }

def Settings.value? (settings : Settings) : Setting → Option SettingValue
  | .includes => settings.includes.map fun list => .patterns (Options.texts list)
  | .excludes => settings.excludes.map fun list => .patterns (Options.texts list)
  | .prunes => settings.prunes.map fun list => .patterns (Options.texts list)
  | .ignoreFile => settings.ignoreFile.map fun file => .file (some (.text file))
  | .basepath => settings.basepath.map .text
  | .engine => settings.engine.map .text
  | .caseSensitive => settings.caseSensitive.map .flag
  | .strict => settings.strict.map .flag
  | .followLinks => settings.followLinks.map .flag

def CommandLine.Sentence.argumentsOf (sentence : Sentence Key) (setting : Setting) :
    List (Option Argument) :=
  (sentence.options.filter fun given => given.1.key == .setting setting).map Prod.snd

/-- What the arguments of its option make of a setting.  Patterns add up, and of other arguments the
last one counts; two flags turn their settings off. -/
def Setting.valueOf : Setting → List (Option Argument) → SettingValue
  | .includes, arguments | .excludes, arguments | .prunes, arguments =>
      .patterns (arguments.flatMap Option.toList)
  | .ignoreFile, arguments => .file arguments.getLast?.join
  | .basepath, arguments => .text ((arguments.getLast?.join.bind Argument.text?).getD "")
  | .engine, arguments => .text ((arguments.getLast?.join.bind Argument.text?).getD "glob")
  | .strict, _ => .flag true
  | .caseSensitive, _ | .followLinks, _ => .flag false

/-! ## Options that are given -/

namespace Options

theorem value_apply_of_ne {key : Key} {setting : Setting} (h : key ≠ .setting setting)
    (options : Options) (argument : Option Argument) :
    (options.apply key argument).value setting = options.value setting := by
  cases key with
  | setting other => cases other <;> cases setting <;> first | rfl | exact absurd rfl h
  | _ => rfl

theorem value_apply_self {options : Options} {setting : Setting}
    {arguments : List (Option Argument)} (argument : Option Argument)
    (h : options.value setting =
      if arguments = [] then ({} : Options).value setting else setting.valueOf arguments) :
    (options.apply (.setting setting) argument).value setting =
      setting.valueOf (arguments ++ [argument]) := by
  have hpatterns {list : List Argument}
      (hlist : SettingValue.patterns list = if arguments = [] then .patterns []
        else .patterns (arguments.flatMap Option.toList)) :
      SettingValue.patterns (list ++ argument.toList) =
        .patterns ((arguments ++ [argument]).flatMap Option.toList) := by
    by_cases hnone : arguments = []
    · rw [if_pos hnone] at hlist
      cases hlist
      simp [hnone]
    · rw [if_neg hnone] at hlist
      cases hlist
      simp
  cases setting with
  | includes | excludes | prunes => exact hpatterns h
  | ignoreFile | basepath | engine => simp [apply, value, Setting.valueOf]
  | caseSensitive | strict | followLinks => rfl

theorem value_ofSentence (sentence : Sentence Key) (setting : Setting) :
    (ofSentence sentence).value setting =
      if sentence.argumentsOf setting = [] then ({} : Options).value setting
      else setting.valueOf (sentence.argumentsOf setting) := by
  obtain ⟨given, operand, unrecognised⟩ := sentence
  induction given using List.reverseRecOn with
  | nil =>
      cases setting with
      | _ => rfl
  | append_singleton given last ih =>
      obtain ⟨rule, argument⟩ := last
      have hlast : ofSentence ⟨given ++ [(rule, argument)], operand, unrecognised⟩ =
          (ofSentence ⟨given, operand, unrecognised⟩).apply rule.key argument := by
        simp [ofSentence]
      rw [hlast]
      by_cases hkey : rule.key = .setting setting
      · have harguments :
            Sentence.argumentsOf ⟨given ++ [(rule, argument)], operand, unrecognised⟩ setting =
              Sentence.argumentsOf ⟨given, operand, unrecognised⟩ setting ++ [argument] := by
          simp [Sentence.argumentsOf, hkey]
        rw [hkey, harguments, value_apply_self argument ih, if_neg (by simp)]
      · have harguments :
            Sentence.argumentsOf ⟨given ++ [(rule, argument)], operand, unrecognised⟩ setting =
              Sentence.argumentsOf ⟨given, operand, unrecognised⟩ setting := by
          simp [Sentence.argumentsOf, hkey]
        rw [harguments, value_apply_of_ne hkey, ih]

theorem made_getD {α β : Type} (made : α → SettingValue) (read : β → α) (found : Option β)
    (own : α) :
    made ((found.map read).getD own) = (found.map fun value => made (read value)).getD (made own) := by
  cases found with
  | none => rfl
  | some value => rfl

theorem value_withSettings? (options : Options) (explicit : List Setting)
    (settings : Option Settings) (setting : Setting) :
    (options.withSettings? explicit settings).value setting =
      if setting ∈ explicit then options.value setting
      else (settings.bind (·.value? setting)).getD (options.value setting) := by
  cases settings with
  | none => simp [withSettings?]
  | some settings =>
      rw [withSettings?, Option.bind_some]
      by_cases h : setting ∈ explicit
      · rw [if_pos h]
        cases setting with
        | _ => simp [withSettings, value, h]
      · rw [if_neg h]
        cases setting with
        | includes | excludes | prunes | ignoreFile =>
            simp only [withSettings, value, Settings.value?, List.contains_iff_mem, h, if_false]
            exact made_getD _ _ _ _
        | basepath | engine | caseSensitive | strict | followLinks =>
            simp only [withSettings, value, Settings.value?, List.contains_iff_mem, h, if_false]
            rw [Option.getD_map]

theorem withoutSettings_withSettings? (options : Options) (explicit : List Setting)
    (settings : Option Settings) :
    (options.withSettings? explicit settings).withoutSettings = options.withoutSettings := by
  cases settings with
  | none => rfl
  | some settings => rfl

end Options

/-! ## Settings of a command line -/

theorem isProper_optionRules : IsProper optionRules where
  distinct := by decide
  noEquals := by decide
  hyphens := by
    simp [optionRules, spellings, flag, argument]

theorem Options.mem_explicit_iff {sentence : Sentence Key} {setting : Setting} :
    setting ∈ Setting.all.filter (explicitIn sentence) ↔
      ∃ rule : OptionRule Key, rule.key = .setting setting ∧
        rule ∈ sentence.options.map Prod.fst := by
  have hall : setting ∈ Setting.all := by
    cases setting with
    | _ => decide
  rw [List.mem_filter, and_iff_right hall, explicitIn, List.any_eq_true]
  constructor
  · rintro ⟨⟨rule, argument⟩, hgiven, hkey⟩
    exact ⟨rule, beq_iff_eq.1 hkey, List.mem_map_of_mem hgiven⟩
  · rintro ⟨rule, hkey, hrule⟩
    obtain ⟨given, hgiven, rfl⟩ := List.mem_map.1 hrule
    exact ⟨given, hgiven, beq_iff_eq.2 hkey⟩

theorem Options.argumentsOf_eq_nil_iff {sentence : Sentence Key} {setting : Setting} :
    sentence.argumentsOf setting = [] ↔ setting ∉ Setting.all.filter (explicitIn sentence) := by
  rw [Options.mem_explicit_iff, Sentence.argumentsOf, List.map_eq_nil_iff, List.filter_eq_nil_iff]
  constructor
  · rintro hnone ⟨rule, hkey, hrule⟩
    obtain ⟨given, hgiven, rfl⟩ := List.mem_map.1 hrule
    exact hnone given hgiven (beq_iff_eq.2 hkey)
  · intro hnone given hgiven hkey
    exact hnone ⟨given.1, beq_iff_eq.1 hkey, List.mem_map_of_mem hgiven⟩

/-- In a command line that is accepted, a setting is made exactly if a word before the divider names
its option.  Its value is then what the arguments of the option say, even if that is empty;
otherwise it is the value in the settings file, even if that is empty, and without one the value
that the options start from.  Nothing else in the options depends on a settings file. -/
theorem command_line_goes_before_settings {words : List String} {options : Options}
    {explicit : List Setting} (h : Options.ofWords words = .ok (options, explicit)) :
    (∀ setting, setting ∈ explicit ↔ ∃ rule : OptionRule Key, rule.key = .setting setting ∧
      ∃ word ∈ words.takeWhile (· != "--"), Names optionRules rule word) ∧
    (∃ sentence, read Text.isDigit (· == .help) optionRules words = .ok sentence ∧
      ∀ setting, options.value setting =
        if setting ∈ explicit then setting.valueOf (sentence.argumentsOf setting)
        else ({} : Options).value setting) ∧
    ∀ settings : Option Settings,
      (∀ setting, (options.withSettings? explicit settings).value setting =
        if setting ∈ explicit then options.value setting
        else (settings.bind (·.value? setting)).getD (({} : Options).value setting)) ∧
      (options.withSettings? explicit settings).withoutSettings = options.withoutSettings := by
  unfold Options.ofWords at h
  cases hread : read Text.isDigit (· == .help) optionRules words with
  | error stop =>
      rw [hread] at h
      cases h
  | ok sentence =>
      rw [hread] at h
      cases h
      have hvalue (setting : Setting) : (Options.ofSentence sentence).value setting =
          if setting ∈ Setting.all.filter (Options.explicitIn sentence) then
            setting.valueOf (sentence.argumentsOf setting)
          else ({} : Options).value setting := by
        rw [Options.value_ofSentence]
        simp only [Options.argumentsOf_eq_nil_iff, ite_not]
      refine ⟨fun setting => ?_, ⟨sentence, rfl, hvalue⟩, fun settings =>
        ⟨fun setting => ?_, Options.withoutSettings_withSettings? _ _ settings⟩⟩
      · rw [Options.mem_explicit_iff]
        simp only [mem_options_iff isProper_optionRules hread]
      · rw [Options.value_withSettings?]
        split
        · rfl
        · rename_i hopen
          rw [hvalue, if_neg hopen]

theorem explicit_words_go_before_settings :
    ∃ options explicit, Options.ofWords ["-vi", "*.py", "--ignore-f=", "--basep", "", "t"] =
        .ok (options, explicit) ∧
      explicit = [.includes, .ignoreFile, .basepath] ∧
      ∀ settings : Settings, settings.basepath = some "p" → settings.excludes = some [] →
        settings.strict = none →
          (options.withSettings? explicit (some settings)).value .basepath = .text "" ∧
          (options.withSettings? explicit (some settings)).value .excludes = .patterns [] ∧
          (options.withSettings? explicit (some settings)).value .strict = .flag false := by
  have hwords : ∃ options, Options.ofWords ["-vi", "*.py", "--ignore-f=", "--basep", "", "t"] =
      .ok (options, [.includes, .ignoreFile, .basepath]) ∧ options.basepath = "" :=
    ⟨_, rfl, rfl⟩
  obtain ⟨options, hwords, hbasepath⟩ := hwords
  obtain ⟨-, -, hsettings⟩ := command_line_goes_before_settings hwords
  refine ⟨options, _, hwords, rfl, fun settings hp hnone hopen => ?_⟩
  obtain ⟨hvalue, -⟩ := hsettings (some settings)
  refine ⟨?_, ?_, ?_⟩
  · rw [hvalue, if_pos (by decide), Options.value, hbasepath]
  · rw [hvalue, if_neg (by decide)]
    simp [Settings.value?, hnone, Options.texts]
  · rw [hvalue, if_neg (by decide)]
    simp [Settings.value?, hopen, Options.value]

end FileSelection
