import FileSelection.CommandLine.Grammar
import FileSelection.Keyed
import Mathlib.Data.List.Nodup
import Mathlib.Data.List.TakeDrop
import Mathlib.Data.List.TakeWhile

/-!
# What the words of a command line say

A word names an option if its part before `=` is a spelling of the option or the beginning of no
other one, or if a letter after its hyphen does.  In a command line that is read without a fault,
exactly the options are found that the words before the divider name.
-/

namespace FileSelection.CommandLine

variable {κ : Type}

/-! ## Words that name options -/

/-- The beginning of a long word is a spelling of the option, or the beginning of no other one. -/
def Means (rules : List (OptionRule κ)) (rule : OptionRule κ) (start : List Char) : Prop :=
  ∃ name, (name, rule) ∈ spellings rules ∧ start <+: name.toList ∧
    (name.toList = start ∨ ∀ other ∈ spellings rules, start <+: other.1.toList → other.1 = name)

/-- The letters stand for short options, up to one that takes what is left as its argument. -/
inductive Joins (rules : List (OptionRule κ)) (rule : OptionRule κ) : List Char → Prop
  | here {c : Char} {rest : List Char} :
      (String.ofList ['-', c], rule) ∈ spellings rules → Joins rules rule (c :: rest)
  | later {c : Char} {rest : List Char} {other : OptionRule κ} :
      (String.ofList ['-', c], other) ∈ spellings rules → other.takesArgument = false →
        Joins rules rule rest → Joins rules rule (c :: rest)

/-- The word names the option, if it is read as an option.  After the first letter of a short word,
`=` says nothing. -/
def Names (rules : List (OptionRule κ)) (rule : OptionRule κ) (word : String) : Prop :=
  match word.toList with
  | '-' :: '-' :: rest => Means rules rule (('-' :: '-' :: rest).takeWhile (· != '='))
  | '-' :: c :: '=' :: rest => Joins rules rule (c :: rest)
  | '-' :: letters => Joins rules rule letters
  | _ => False

/-- Each spelling is that of one option, either a letter after one hyphen or a name after two. -/
structure IsProper (rules : List (OptionRule κ)) : Prop where
  distinct : ((spellings rules).map Prod.fst).Nodup
  noEquals : ∀ spelling ∈ spellings rules, '=' ∉ spelling.1.toList
  hyphens : ∀ spelling ∈ spellings rules,
    (∃ c, c ≠ '-' ∧ spelling.1.toList = ['-', c]) ∨ ['-', '-'] <+: spelling.1.toList

section

variable {rules : List (OptionRule κ)} {rule other : OptionRule κ} {name : String}

theorem IsProper.unique (hrules : IsProper rules) (h : (name, rule) ∈ spellings rules)
    (hother : (name, other) ∈ spellings rules) : rule = other := by
  have hsame := List.inj_on_of_nodup_map hrules.distinct h hother rfl
  exact (Prod.mk.inj hsame).2

theorem IsProper.lookup_eq_some_iff (hrules : IsProper rules) :
    (spellings rules).lookup name = some rule ↔ (name, rule) ∈ spellings rules := by
  refine ⟨Keyed.mem_of_lookup, fun h => ?_⟩
  cases hlookup : (spellings rules).lookup name with
  | none => simpa using List.lookup_eq_none_iff.1 hlookup _ h
  | some found => rw [hrules.unique h (Keyed.mem_of_lookup hlookup)]

theorem not_joins_nil : ¬ Joins rules rule [] := by
  rintro ⟨⟩

theorem joins_cons_iff {c : Char} {letters : List Char} (hrules : IsProper rules)
    (hfirst : (String.ofList ['-', c], other) ∈ spellings rules) :
    Joins rules rule (c :: letters) ↔
      rule = other ∨ (other.takesArgument = false ∧ Joins rules rule letters) := by
  constructor
  · rintro (hhere | ⟨hlater, hpasses, hrest⟩)
    · exact .inl (hrules.unique hhere hfirst)
    · rw [hrules.unique hlater hfirst] at hpasses
      exact .inr ⟨hpasses, hrest⟩
  · rintro (rfl | ⟨hpasses, hrest⟩)
    · exact .here hfirst
    · exact .later hfirst hpasses hrest

end

/-! ## Words as they are read -/

def stem (word : String) : String := String.ofList (word.toList.takeWhile (· != '='))

def ownArgument (word : String) : Option String := (cutAtEquals? word.toList).map Prod.snd

section

variable {isDigit : Char → Bool} {rules : List (OptionRule κ)} {rule : OptionRule κ}
  {word : String} {c : Char} {rest : List Char}

theorem cutAtEquals?_eq_none (h : '=' ∉ word.toList) : cutAtEquals? word.toList = none ∧
    stem word = word := by
  have hall : ∀ c ∈ word.toList, (c != '=') = true := by
    intro c hc
    simp only [bne_iff_ne]
    rintro rfl
    exact h hc
  unfold cutAtEquals? stem
  rw [List.span_eq_takeWhile_dropWhile, List.takeWhile_eq_self_iff.2 hall,
    List.dropWhile_eq_nil_iff.2 hall]
  exact ⟨rfl, by simp⟩

theorem exists_cutAtEquals? (h : '=' ∈ word.toList) :
    ∃ argument, cutAtEquals? word.toList = some (stem word, argument) := by
  unfold cutAtEquals? stem
  rw [List.span_eq_takeWhile_dropWhile]
  cases hrest : word.toList.dropWhile (· != '=') with
  | nil => simpa using List.dropWhile_eq_nil_iff.1 hrest _ h
  | cons c argument => exact ⟨_, rfl⟩

theorem classify_eq (hrules : IsProper rules) (hword : word.toList = '-' :: c :: rest) :
    classify isDigit rules word =
      match (spellings rules).lookup (stem word) with
      | some rule => .ok (.option word ⟨some rule, stem word, ownArgument word⟩)
      | none =>
          match candidates rules word with
          | [reading] => .ok (.option word reading)
          | [] =>
              if isNegativeNumber isDigit word.toList || word.toList.contains ' ' then
                .ok (.text word)
              else .ok (.option word ⟨none, word, none⟩)
          | several => .error (.ambiguous word (several.map (·.name))) := by
  unfold classify
  split
  · simp_all
  · simp_all
  · by_cases hequals : '=' ∈ word.toList
    · obtain ⟨argument, hcut⟩ := exists_cutAtEquals? hequals
      have hspelled : (spellings rules).lookup word = none := by
        cases hlookup : (spellings rules).lookup word with
        | none => rfl
        | some rule => exact absurd hequals (hrules.noEquals _ (Keyed.mem_of_lookup hlookup))
      rw [hspelled, ownArgument, hcut]
      cases hlookup : (spellings rules).lookup (stem word) with
      | some rule => simp [hlookup]
      | none =>
          rcases candidates rules word with _ | ⟨reading, _ | ⟨other, more⟩⟩
          · simp [hlookup]
          · simp [hlookup]
          · simp [hlookup]
    · obtain ⟨hcut, hstem⟩ := cutAtEquals?_eq_none hequals
      rw [ownArgument, hstem, hcut]
      cases (spellings rules).lookup word with
      | some rule => rfl
      | none =>
          rcases candidates rules word with _ | ⟨reading, _ | ⟨other, more⟩⟩
          · rfl
          · rfl
          · rfl
  · simp_all

theorem candidates_long (hword : word.toList = '-' :: '-' :: rest) :
    candidates rules word =
      ((spellings rules).filter fun spelling => (stem word).toList.isPrefixOf spelling.1.toList).map
        fun spelling => ⟨some spelling.2, spelling.1, ownArgument word⟩ := by
  unfold candidates
  split
  · by_cases hequals : '=' ∈ word.toList
    · obtain ⟨argument, hcut⟩ := exists_cutAtEquals? hequals
      rw [ownArgument, hcut]
      rfl
    · obtain ⟨hcut, hstem⟩ := cutAtEquals?_eq_none hequals
      rw [ownArgument, hcut, hstem]
      rfl
  · simp_all
  · simp_all

theorem mem_candidates_short {reading : Reading κ} (hrules : IsProper rules)
    (hword : word.toList = '-' :: c :: rest) (hc : c ≠ '-')
    (hstem : ∀ rule, (stem word, rule) ∉ spellings rules) :
    reading ∈ candidates rules word ↔ ∃ rule, (String.ofList ['-', c], rule) ∈ spellings rules ∧
      reading = ⟨some rule, String.ofList ['-', c], some (String.ofList rest)⟩ := by
  have hlonger : ∀ spelling ∈ spellings rules, ¬ word.toList <+: spelling.1.toList := by
    rintro ⟨name, rule⟩ hspelling hlonger
    obtain ⟨d, -, hname⟩ | ⟨more, hname⟩ := hrules.hyphens _ hspelling
    · have hsame : word.toList = name.toList := hlonger.eq_of_length_le (by simp [hname, hword])
      obtain rfl : word = name := String.toList_inj.1 hsame
      have hwhole : stem word = word := (cutAtEquals?_eq_none (hrules.noEquals _ hspelling)).2
      exact hstem rule (hwhole.symm ▸ hspelling)
    · rw [hword, ← hname] at hlonger
      obtain ⟨-, hsecond⟩ := List.cons_prefix_cons.1 hlonger
      exact hc (List.cons_prefix_cons.1 hsecond).1
  unfold candidates
  split
  · rename_i heq
    exact absurd (List.cons.inj (List.cons.inj (hword.symm.trans heq)).2).1 hc
  · rename_i first tail hne heq
    obtain ⟨rfl, rfl⟩ : first = c ∧ tail = rest := by simpa [hword] using heq.symm
    rw [List.mem_filterMap]
    constructor
    · rintro ⟨⟨name, rule⟩, hspelling, hreading⟩
      simp only [beq_iff_eq, List.isPrefixOf_iff_prefix] at hreading
      rw [if_neg (hlonger _ hspelling)] at hreading
      split at hreading
      · rename_i hname
        subst hname
        exact ⟨rule, hspelling, (Option.some.inj hreading).symm⟩
      · cases hreading
    · rintro ⟨rule, hspelling, rfl⟩
      exact ⟨_, hspelling, by simp⟩
  · simp_all

end

/-! ## Words that are taken apart -/

def Cluster.rules (found : Cluster κ) : List (OptionRule κ) :=
  found.complete.map Prod.fst ++ found.waiting.toList

def Word.cluster (rules : List (OptionRule κ)) : Word κ → Except UsageError (Cluster κ)
  | .divider | .text _ | .option _ ⟨none, _, _⟩ => .ok ⟨[], none⟩
  | .option _ ⟨some rule, name, argument⟩ => Cluster.ofReading rules rule name argument

namespace Cluster

variable {rules : List (OptionRule κ)} {rule other : OptionRule κ} {found : Cluster κ}

@[simp]
theorem rules_bare (rule : OptionRule κ) : (bare rule).rules = [rule] := by
  unfold bare
  split
  · rfl
  · rfl

@[simp]
theorem rules_withArgument (rule : OptionRule κ) (text : String) :
    (withArgument rule text).rules = [rule] := rfl

theorem mem_rules_joined {letters : List Char} (hrules : IsProper rules)
    (h : joined rules rule letters = .ok found) :
    other ∈ found.rules ↔
      other = rule ∨ (rule.takesArgument = false ∧ Joins rules other letters) := by
  induction letters generalizing rule found with
  | nil =>
      cases h
      simp only [rules_bare, List.mem_singleton]
      exact ⟨.inl, fun h => h.resolve_right (by rintro ⟨-, ⟨⟩⟩)⟩
  | cons c rest ih =>
      rw [joined] at h
      split at h
      · rename_i htakes
        cases h
        simp [htakes]
      · rename_i htakes
        have hflag : rule.takesArgument = false := by simpa using htakes
        split at h
        · cases h
        · rename_i next hlookup
          have hnext := hrules.lookup_eq_some_iff.1 hlookup
          obtain ⟨more, hmore, heq⟩ : ∃ more, joined rules next rest = .ok more ∧
              found = { more with complete := (rule, none) :: more.complete } := by
            cases hjoined : joined rules next rest with
            | error error =>
                rw [hjoined] at h
                cases h
            | ok more =>
                rw [hjoined] at h
                exact ⟨more, rfl, (Except.ok.inj h).symm⟩
          subst heq
          have hrest := ih hmore
          simp only [Cluster.rules, List.map_cons, List.cons_append, List.mem_cons] at hrest ⊢
          rw [hrest, joins_cons_iff hrules hnext, hflag]
          simp

theorem rules_ofReading_long {name : String} {argument : Option String}
    (hname : ['-', '-'] <+: name.toList) (h : ofReading rules rule name argument = .ok found) :
    found.rules = [rule] := by
  cases argument with
  | none =>
      cases h
      exact rules_bare rule
  | some text =>
      simp only [ofReading, List.isPrefixOf_iff_prefix.2 hname, Bool.or_true, if_true] at h
      split at h
      · cases h
        rfl
      · cases h

theorem mem_rules_ofReading_short {name : String} {argument : Option String}
    (hrules : IsProper rules) (h : ofReading rules rule name argument = .ok found) :
    other ∈ found.rules ↔ other = rule ∨ (rule.takesArgument = false ∧
      ∃ text ∈ argument, Joins rules other text.toList) := by
  cases argument with
  | none =>
      cases h
      simp
  | some text =>
      rw [ofReading] at h
      split at h
      · rename_i htakes
        cases h
        simp [htakes]
      · split at h
        · cases h
        · simpa using mem_rules_joined hrules h

end Cluster

section

variable {isDigit : Char → Bool} {rules : List (OptionRule κ)} {rule : OptionRule κ}
  {word : String} {found : Word κ} {cluster : Cluster κ}

theorem rules_of_no_candidate {isText : Prop} [Decidable isText]
    (hfound : (if isText then (.ok (.text word) : Except UsageError (Word κ))
      else .ok (.option word ⟨none, word, none⟩)) = .ok found)
    (hcluster : found.cluster rules = .ok cluster) : cluster.rules = [] := by
  split at hfound
  · cases hfound
    cases hcluster
    rfl
  · cases hfound
    cases hcluster
    rfl

theorem mem_rules_long {rest : List Char} (hrules : IsProper rules)
    (hword : word.toList = '-' :: '-' :: rest) (hfound : classify isDigit rules word = .ok found)
    (hcluster : found.cluster rules = .ok cluster) :
    rule ∈ cluster.rules ↔ Means rules rule (stem word).toList := by
  have hlong : ['-', '-'] <+: (stem word).toList := by
    rw [stem, String.toList_ofList, hword]
    exact List.prefix_append ['-', '-'] _
  rw [classify_eq hrules hword] at hfound
  cases hlookup : (spellings rules).lookup (stem word) with
  | some first =>
      have hfirst := hrules.lookup_eq_some_iff.1 hlookup
      rw [hlookup] at hfound
      cases hfound
      rw [Cluster.rules_ofReading_long hlong hcluster, List.mem_singleton]
      constructor
      · rintro rfl
        exact ⟨_, hfirst, List.prefix_rfl, .inl rfl⟩
      · rintro ⟨name, hname, -, hexact | honly⟩
        · obtain rfl : name = stem word := String.toList_inj.1 hexact
          exact hrules.unique hname hfirst
        · obtain rfl : stem word = name := honly _ hfirst List.prefix_rfl
          exact hrules.unique hname hfirst
  | none =>
      have hcandidates : candidates rules word = _ := candidates_long hword
      have hbegins {spelling : String × OptionRule κ} : spelling ∈ (spellings rules).filter
          (fun spelling => (stem word).toList.isPrefixOf spelling.1.toList) ↔
            spelling ∈ spellings rules ∧ (stem word).toList <+: spelling.1.toList := by
        rw [List.mem_filter, List.isPrefixOf_iff_prefix]
      rw [hlookup] at hfound
      generalize (spellings rules).filter
        (fun spelling => (stem word).toList.isPrefixOf spelling.1.toList) = begun
        at hcandidates hbegins
      rcases begun with _ | ⟨⟨name, first⟩, _ | ⟨second, more⟩⟩
      · rw [hcandidates] at hfound
        rw [rules_of_no_candidate hfound hcluster]
        refine iff_of_false List.not_mem_nil ?_
        rintro ⟨name, hname, hbelow, -⟩
        exact List.not_mem_nil (hbegins.2 ⟨hname, hbelow⟩)
      · obtain ⟨hfirst, hbelow⟩ := hbegins.1 (List.mem_singleton_self _)
        rw [hcandidates] at hfound
        cases hfound
        rw [Cluster.rules_ofReading_long (hlong.trans hbelow) hcluster, List.mem_singleton]
        constructor
        · rintro rfl
          refine ⟨name, hfirst, hbelow, .inr fun other hother hstarts => ?_⟩
          rw [List.mem_singleton.1 (hbegins.2 ⟨hother, hstarts⟩)]
        · rintro ⟨other, hother, hstarts, -⟩
          exact (Prod.mk.inj (List.mem_singleton.1 (hbegins.2 ⟨hother, hstarts⟩))).2
      · rw [hcandidates] at hfound
        cases hfound

theorem names_short_iff {c : Char} {rest : List Char} (hrules : IsProper rules)
    (hword : word.toList = '-' :: c :: rest) (hc : c ≠ '-') {first : OptionRule κ}
    (hfirst : (String.ofList ['-', c], first) ∈ spellings rules) :
    Names rules rule word ↔ rule = first ∨ (first.takesArgument = false ∧
      Joins rules rule (if rest.head? = some '=' then rest.tail else rest)) := by
  rw [← joins_cons_iff hrules hfirst]
  unfold Names
  rw [hword]
  split
  · simp_all
  · simp_all
  · rename_i letters hlong hequals heq
    obtain rfl : letters = c :: rest := (List.cons.inj heq).2.symm
    rw [if_neg]
    intro hhead
    obtain ⟨more, rfl⟩ := List.head?_eq_some_iff.1 hhead
    exact hequals _ _ rfl
  · simp_all

theorem spelled_of_names_short {c : Char} {rest : List Char}
    (hword : word.toList = '-' :: c :: rest) (hc : c ≠ '-') (h : Names rules rule word) :
    ∃ first, (String.ofList ['-', c], first) ∈ spellings rules := by
  have hfirst {letters : List Char} (h : Joins rules rule (c :: letters)) :
      ∃ first, (String.ofList ['-', c], first) ∈ spellings rules := by
    obtain hhere | ⟨hlater, -, -⟩ := h
    · exact ⟨_, hhere⟩
    · exact ⟨_, hlater⟩
  unfold Names at h
  rw [hword] at h
  split at h
  · simp_all
  · rename_i heq
    cases heq
    exact hfirst h
  · rename_i heq
    cases heq
    exact hfirst h
  · cases h

theorem short_of_stem {c : Char} {rest : List Char} {first : OptionRule κ}
    (hrules : IsProper rules) (hword : word.toList = '-' :: c :: rest) (hc : c ≠ '-')
    (hfirst : (stem word, first) ∈ spellings rules) :
    stem word = String.ofList ['-', c] ∧
      ((rest = [] ∧ ownArgument word = none) ∨
        ∃ more, rest = '=' :: more ∧ ownArgument word = some (String.ofList more)) := by
  have hstem : (stem word).toList = '-' :: (c :: rest).takeWhile (· != '=') := by
    rw [stem, String.toList_ofList, hword]
    rfl
  have hhyphens := hrules.hyphens _ hfirst
  simp only [hstem] at hhyphens
  have hequals : c ≠ '=' := by
    rintro rfl
    simp at hhyphens
  have hletter : (c :: rest).takeWhile (· != '=') = c :: rest.takeWhile (· != '=') := by
    simp [hequals]
  rw [hletter] at hstem hhyphens
  have hnone : rest.takeWhile (· != '=') = [] := by
    obtain ⟨d, -, hd⟩ | hlong := hhyphens
    · simpa using (List.cons.inj (List.cons.inj hd).2).2
    · exact absurd (by simpa using hlong : '-' = c) hc.symm
  refine ⟨String.toList_inj.1 (by simp [hstem, hnone]), ?_⟩
  unfold ownArgument cutAtEquals?
  rw [hword, List.span_eq_takeWhile_dropWhile]
  cases rest with
  | nil => exact .inl ⟨rfl, by simp [hequals]⟩
  | cons d more =>
      obtain rfl : d = '=' := by
        by_contra hd
        simp [hd] at hnone
      exact .inr ⟨more, rfl, by simp [hequals]⟩

theorem mem_rules_short {c : Char} {rest : List Char} (hrules : IsProper rules)
    (hword : word.toList = '-' :: c :: rest) (hc : c ≠ '-')
    (hfound : classify isDigit rules word = .ok found)
    (hcluster : found.cluster rules = .ok cluster) :
    rule ∈ cluster.rules ↔ Names rules rule word := by
  rw [classify_eq hrules hword] at hfound
  cases hlookup : (spellings rules).lookup (stem word) with
  | some first =>
      have hfirst := hrules.lookup_eq_some_iff.1 hlookup
      obtain ⟨hstem, hrest⟩ := short_of_stem hrules hword hc hfirst
      rw [hlookup] at hfound
      cases hfound
      rw [Cluster.mem_rules_ofReading_short hrules hcluster,
        names_short_iff hrules hword hc (hstem ▸ hfirst)]
      obtain ⟨rfl, hown⟩ | ⟨more, rfl, hown⟩ := hrest
      · simp [hown, not_joins_nil]
      · simp [hown]
  | none =>
      have hstem : ∀ rule, (stem word, rule) ∉ spellings rules := fun rule hrule => by
        simpa using List.lookup_eq_none_iff.1 hlookup _ hrule
      have hcandidates (reading : Reading κ) : reading ∈ candidates rules word ↔ _ :=
        mem_candidates_short hrules hword hc hstem
      rw [hlookup] at hfound
      generalize candidates rules word = readings at hcandidates hfound
      rcases readings with _ | ⟨reading, _ | ⟨second, more⟩⟩
      · rw [rules_of_no_candidate hfound hcluster]
        refine iff_of_false List.not_mem_nil fun hnames => ?_
        obtain ⟨first, hfirst⟩ := spelled_of_names_short hword hc hnames
        exact List.not_mem_nil ((hcandidates _).2 ⟨first, hfirst, rfl⟩)
      · obtain ⟨first, hfirst, rfl⟩ := (hcandidates reading).1 (List.mem_singleton_self _)
        cases hfound
        have hequals : c ≠ '=' := by
          rintro rfl
          exact hrules.noEquals _ hfirst (by simp)
        have hreading : Cluster.ofReading rules first (String.ofList ['-', c])
          (some (String.ofList rest)) = .ok cluster := hcluster
        rw [Cluster.mem_rules_ofReading_short hrules hreading,
          names_short_iff hrules hword hc hfirst, if_neg]
        · simp
        intro hhead
        obtain ⟨more, rfl⟩ := List.head?_eq_some_iff.1 hhead
        refine hstem first ?_
        rw [stem, hword]
        simpa [hequals] using hfirst
      · cases hfound

theorem classify_text (hshort : ∀ c rest, word.toList ≠ '-' :: c :: rest) :
    classify isDigit rules word = .ok (.text word) := by
  unfold classify
  split
  · rfl
  · rfl
  · rename_i letters hne hword
    cases letters with
    | nil => exact absurd rfl hne
    | cons c rest => exact absurd hword (hshort c rest)
  · rfl

theorem not_names_text (hshort : ∀ c rest, word.toList ≠ '-' :: c :: rest) :
    ¬ Names rules rule word := by
  intro hnames
  unfold Names at hnames
  split at hnames
  · exact hshort _ _ ‹_›
  · exact hshort _ _ ‹_›
  · rename_i letters _ _ hword
    cases letters with
    | nil => exact not_joins_nil hnames
    | cons c rest => exact hshort _ _ hword
  · exact hnames

theorem mem_rules_iff_names (hrules : IsProper rules)
    (hfound : classify isDigit rules word = .ok found)
    (hcluster : found.cluster rules = .ok cluster) :
    rule ∈ cluster.rules ↔ Names rules rule word := by
  by_cases hshort : ∀ c rest, word.toList ≠ '-' :: c :: rest
  · rw [classify_text hshort] at hfound
    cases hfound
    cases hcluster
    exact iff_of_false List.not_mem_nil (not_names_text hshort)
  · push Not at hshort
    obtain ⟨c, rest, hword⟩ := hshort
    by_cases hc : c = '-'
    · subst hc
      rw [mem_rules_long hrules hword hfound hcluster, stem, String.toList_ofList]
      unfold Names
      simp only [hword]
    · exact mem_rules_short hrules hword hc hfound hcluster

end

/-! ## Command lines -/

section

variable {halts : κ → Bool} {rules : List (OptionRule κ)} {rule : OptionRule κ}
  {sentence result : Sentence κ}

theorem options_of_take {argument : Option Argument}
    (h : take halts sentence rule argument = .ok result) :
    result.options = sentence.options ++ [(rule, argument)] := by
  unfold take at h
  simp only [bind, Except.bind, pure, Except.pure, throw, throwThe, MonadExceptOf.throw] at h
  repeat' split at h
  all_goals cases h
  all_goals rfl

theorem options_of_takeAll {more : List (OptionRule κ × Option Argument)}
    (h : takeAll halts sentence more = .ok result) :
    result.options = sentence.options ++ more := by
  induction more generalizing sentence with
  | nil =>
      cases h
      simp
  | cons first more ih =>
      obtain ⟨rule, argument⟩ := first
      rw [takeAll] at h
      cases htake : take halts sentence rule argument with
      | error stop =>
          rw [htake] at h
          cases h
      | ok next =>
          rw [htake] at h
          rw [ih h, options_of_take htake]
          simp

theorem options_readTail (sentence : Sentence κ) (words : List (Word κ)) :
    (readTail sentence words).options = sentence.options := by
  unfold readTail
  split
  · rfl
  · rfl

def Gives (rules : List (OptionRule κ)) (words : List (Word κ)) (rule : OptionRule κ) : Prop :=
  ∃ word ∈ words, ∃ cluster, word.cluster rules = .ok cluster ∧ rule ∈ cluster.rules

theorem gives_cons_iff {word : Word κ} {words : List (Word κ)} {cluster : Cluster κ}
    (h : word.cluster rules = .ok cluster) :
    Gives rules (word :: words) rule ↔ rule ∈ cluster.rules ∨ Gives rules words rule := by
  simp [Gives, h]

theorem isOption_eq_false {word : Word κ} (h : ∀ whole reading, word ≠ .option whole reading) :
    word.isOption = false := by
  cases word with
  | divider | text _ => rfl
  | option whole reading => exact absurd rfl (h whole reading)

theorem cluster_of_not_option {word : Word κ} (h : word.isOption = false) :
    word.cluster rules = .ok ⟨[], none⟩ := by
  cases word with
  | divider | text _ => rfl
  | option _ _ => cases h

theorem options_of_readWords {words : List (Word κ)}
    (h : readWords halts rules sentence words = .ok result) :
    (∀ word ∈ words, ∃ cluster, word.cluster rules = .ok cluster) ∧
      (rule ∈ result.options.map Prod.fst ↔
        rule ∈ sentence.options.map Prod.fst ∨ Gives rules words rule) := by
  fun_induction readWords halts rules sentence words with
  | case1 sentence =>
      cases h
      simp [options_readTail, Gives]
  | case2 sentence whole reading words hnone ih =>
      have hcluster : (Word.option whole reading).cluster rules = .ok ⟨[], none⟩ := by
        obtain ⟨_, _, _⟩ := reading
        cases hnone
        rfl
      obtain ⟨hclusters, hrules⟩ := ih h
      refine ⟨List.forall_mem_cons.2 ⟨⟨_, hcluster⟩, hclusters⟩, ?_⟩
      rw [hrules, gives_cons_iff hcluster]
      simp [Cluster.rules, Sentence.reject]
  | case3 | case6 => cases h
  | case4 sentence whole reading first hfirst found hfound words hwaiting ih =>
      have hcluster : (Word.option whole reading).cluster rules = .ok found := by
        obtain ⟨_, _, _⟩ := reading
        cases hfirst
        exact hfound
      cases htake : takeAll halts sentence found.complete with
      | error stop =>
          rw [htake] at h
          cases h
      | ok next =>
          rw [htake] at h
          obtain ⟨hclusters, hrules⟩ := ih next h
          refine ⟨List.forall_mem_cons.2 ⟨⟨_, hcluster⟩, hclusters⟩, ?_⟩
          rw [hrules, gives_cons_iff hcluster, options_of_takeAll htake]
          simp [Cluster.rules, hwaiting, or_assoc]
  | case5 sentence whole reading first hfirst found hfound last argument words hwaiting options ih =>
      have hcluster : (Word.option whole reading).cluster rules = .ok found := by
        obtain ⟨_, _, _⟩ := reading
        cases hfirst
        exact hfound
      cases htake : takeAll halts sentence options with
      | error stop =>
          rw [htake] at h
          cases h
      | ok next =>
          rw [htake] at h
          obtain ⟨hclusters, hrules⟩ := ih next h
          refine ⟨List.forall_mem_cons.2 ⟨⟨_, hcluster⟩,
            List.forall_mem_cons.2 ⟨⟨_, rfl⟩, hclusters⟩⟩, ?_⟩
          rw [hrules, gives_cons_iff hcluster, gives_cons_iff rfl, options_of_takeAll htake]
          simp [Cluster.rules, hwaiting, options, or_assoc]
  | case7 sentence word words hword hlater hoperand ih =>
      have hcluster : word.cluster rules = _ := cluster_of_not_option (isOption_eq_false hword)
      obtain ⟨hclusters, hrules⟩ := ih h
      refine ⟨List.forall_mem_cons.2 ⟨⟨_, hcluster⟩, hclusters⟩, ?_⟩
      rw [hrules, gives_cons_iff hcluster]
      simp [Cluster.rules]
  | case8 sentence word words hword hlater hoperand ih =>
      have hcluster : word.cluster rules = _ := cluster_of_not_option (isOption_eq_false hword)
      obtain ⟨hclusters, hrules⟩ := ih h
      refine ⟨List.forall_mem_cons.2 ⟨⟨_, hcluster⟩, hclusters⟩, ?_⟩
      rw [hrules, gives_cons_iff hcluster]
      simp [Cluster.rules, Sentence.reject]
  | case9 sentence word words hword hlater =>
      have hnone : ∀ other ∈ word :: words, other.cluster rules = .ok ⟨[], none⟩ := by
        refine List.forall_mem_cons.2 ⟨cluster_of_not_option (isOption_eq_false hword), ?_⟩
        intro other hother
        refine cluster_of_not_option (Bool.eq_false_iff.2 fun hoption => hlater ?_)
        exact List.any_eq_true.2 ⟨other, hother, hoption⟩
      cases h
      refine ⟨fun other hother => ⟨_, hnone other hother⟩, ?_⟩
      rw [options_readTail, or_iff_left]
      rintro ⟨other, hother, cluster, hcluster, hrule⟩
      rw [hnone other hother] at hcluster
      cases hcluster
      exact List.not_mem_nil hrule

variable {isDigit : Char → Bool}

theorem classifyAll_eq_ok {words : List String} {found : List (Word κ)}
    (h : classifyAll isDigit rules words = .ok found) :
    (∀ word ∈ words.takeWhile (· != "--"), ∃ read ∈ found,
      classify isDigit rules word = .ok read) ∧
    ∀ read ∈ found, read.isOption = false ∨
      ∃ word ∈ words.takeWhile (· != "--"), classify isDigit rules word = .ok read := by
  induction words generalizing found with
  | nil =>
      cases h
      simp
  | cons word words ih =>
      rw [classifyAll] at h
      split at h
      · rename_i hdivider
        cases h
        simp [beq_iff_eq.1 hdivider, Word.isOption]
      · rename_i hword
        cases hfirst : classify isDigit rules word with
        | error error =>
            rw [hfirst] at h
            cases h
        | ok first =>
            cases hrest : classifyAll isDigit rules words with
            | error error =>
                rw [hfirst, hrest] at h
                cases h
            | ok rest =>
                rw [hfirst, hrest] at h
                cases h
                obtain ⟨hread, hwords⟩ := ih hrest
                have hkept : (word :: words).takeWhile (· != "--") =
                    word :: words.takeWhile (· != "--") := List.takeWhile_cons_of_pos (by
                  simpa using hword)
                rw [hkept]
                constructor
                · refine List.forall_mem_cons.2 ⟨⟨first, List.mem_cons_self, hfirst⟩, ?_⟩
                  intro other hother
                  obtain ⟨read, hmem, hread⟩ := hread other hother
                  exact ⟨read, List.mem_cons_of_mem _ hmem, hread⟩
                · refine List.forall_mem_cons.2 ⟨.inr ⟨word, List.mem_cons_self, hfirst⟩, ?_⟩
                  intro read hread
                  refine (hwords read hread).imp_right ?_
                  rintro ⟨other, hother, hread⟩
                  exact ⟨other, List.mem_cons_of_mem _ hother, hread⟩

theorem mem_options_iff {words : List String} (hrules : IsProper rules)
    (h : read isDigit halts rules words = .ok sentence) :
    rule ∈ sentence.options.map Prod.fst ↔
      ∃ word ∈ words.takeWhile (· != "--"), Names rules rule word := by
  unfold read at h
  cases hfound : classifyAll isDigit rules words with
  | error error =>
      rw [hfound] at h
      cases h
  | ok found =>
      rw [hfound] at h
      obtain ⟨hread, hwords⟩ := classifyAll_eq_ok hfound
      cases hresult : readWords halts rules .start found with
      | error stop =>
          simp only [hresult] at h
          cases h
      | ok result =>
          simp only [hresult] at h
          split at h
          · cases h
            obtain ⟨hclusters, hoptions⟩ : _ ∧ (rule ∈ sentence.options.map Prod.fst ↔ _) :=
              options_of_readWords hresult
            rw [hoptions, or_iff_right (by simp [Sentence.start])]
            constructor
            · rintro ⟨read, hmem, cluster, hcluster, hrule⟩
              obtain hnone | ⟨word, hword, hclassify⟩ := hwords read hmem
              · rw [cluster_of_not_option hnone] at hcluster
                cases hcluster
                exact absurd hrule List.not_mem_nil
              · exact ⟨word, hword, (mem_rules_iff_names hrules hclassify hcluster).1 hrule⟩
            · rintro ⟨word, hword, hnames⟩
              obtain ⟨read, hmem, hclassify⟩ := hread word hword
              obtain ⟨cluster, hcluster⟩ := hclusters read hmem
              exact ⟨read, hmem, cluster, hcluster,
                (mem_rules_iff_names hrules hclassify hcluster).2 hnames⟩
          · cases h

end

end FileSelection.CommandLine
