import FileSelection.Proofs.Regex.CharRuns
import FileSelection.Proofs.Regex.Denotation
import FileSelection.Regex.Expression

/-!
# Matching agrees with the meaning

The places that a plain expression leads to are those at the ends of the words that it describes.
The order of the ways plays no part here: only which places are reached decides whether a whole text
is matched.
-/

namespace FileSelection.Regex

/-! ## An optional round -/

section

variable {body : Place → Ways Place} {reluctant limited : Bool}

theorem follow_zero (visits : Visits) (place : Place) (others : Visits → Ways Place) :
    follow body reluctant limited 0 visits place others = .cons place fun _ => others visits := rfl

theorem toList_followAll (origin : Nat) (others : Visits → Ways Place) (ways : Ways Place)
    (visits : Visits) :
    (followAll (follow body reluctant limited 0) origin others ways visits).toList =
      ways.toList ++ (others visits).toList := by
  induction ways with
  | nil => rfl
  | cons next rest ih =>
      unfold followAll
      split <;> simp [follow_zero, Ways.toList, ih]

def mark (limited : Bool) (place : Place) : Nat × Place := (if limited then 1 else 0, place)

theorem mark_eq_iff {first second : Place} : mark limited first = mark limited second ↔
    first = second := by
  simp [mark]

theorem follow_one (visits : Visits) (place : Place) (others : Visits → Ways Place) :
    follow body reluctant limited 1 visits place others =
      if visits.contains (mark limited place) then others visits
      else
        let go := followAll (follow body reluctant limited 0) place.pos
        let visits := visits.insert (mark limited place)
        if reluctant then .cons place fun _ => go others (body place) visits
        else go (fun visits => .cons place fun _ => others visits) (body place) visits := rfl

theorem mem_follow_one (visits : Visits) (place : Place) (others : Visits → Ways Place)
    (next : Place) :
    next ∈ (follow body reluctant limited 1 visits place others).toList ↔
      if visits.contains (mark limited place) then next ∈ (others visits).toList
      else next = place ∨ next ∈ (body place).toList ∨
        next ∈ (others (visits.insert (mark limited place))).toList := by
  rw [follow_one]
  by_cases hvisited : visits.contains (mark limited place) = true
  · rw [if_pos hvisited, if_pos hvisited]
  · rw [if_neg hvisited, if_neg hvisited]
    cases reluctant <;> simp [Ways.toList, toList_followAll, or_left_comm]

theorem mem_followFrom_one (places : Ways Place) (visits : Visits) (next : Place) :
    next ∈ (followFrom body reluctant limited 1 places visits).toList ↔
      ∃ place ∈ places.toList, visits.contains (mark limited place) = false ∧
        (next = place ∨ next ∈ (body place).toList) := by
  induction places generalizing visits with
  | nil => simp [followFrom, Ways.toList]
  | cons place others ih =>
      unfold followFrom
      rw [mem_follow_one]
      simp only [Ways.toList, List.mem_cons, exists_eq_or_imp]
      by_cases hvisited : visits.contains (mark limited place) = true
      · rw [if_pos hvisited, ih]
        simp [hvisited]
      · rw [if_neg hvisited, ih, ← or_assoc]
        simp only [hvisited, true_and, Std.HashSet.contains_insert, Bool.or_eq_false_iff,
          beq_eq_false_iff_ne, ne_eq, mark_eq_iff]
        constructor
        · rintro (hplace | ⟨p, hp, ⟨-, hvisits⟩, h⟩)
          · exact .inl hplace
          · exact .inr ⟨p, hp, hvisits, h⟩
        · rintro (hplace | ⟨p, hp, hvisits, h⟩)
          · exact .inl hplace
          · by_cases hsame : place = p
            · subst hsame
              exact .inl h
            · exact .inr ⟨p, hp, ⟨hsame, hvisits⟩, h⟩

end

theorem mem_roundsFrom_one {text : Array Char} {body : Place → Ways Place} {times : Repeat}
    (hleast : times.least = 0) (hmost : times.most = some 1) (places : Ways Place)
    (next : Place) :
    next ∈ (roundsFrom text body times places).toList ↔
      ∃ place ∈ places.toList, next = place ∨ next ∈ (body place).toList := by
  unfold roundsFrom
  rw [Ways.mem_distinct, hleast, hmost]
  by_cases hsize : 1 ≤ text.size
  · simp [Option.filter, hsize, mem_followFrom_one]
  · have hempty : text.size = 0 := by omega
    simp [Option.filter, hempty, mem_followFrom_one]

/-! ## From place to place -/

/-- Whether an expression describes what lies between two places in a text. -/
def Leads (text : List Char) (regex : Regex) (place next : Place) : Prop :=
  next.groups = place.groups ∧
    ∃ before word after, text = before ++ word ++ after ∧ place.pos = before.length ∧
      next.pos = before.length + word.length ∧ regex.Describes before word after

section

variable {text : List Char} {set : CharSet} {place next : Place}

theorem Leads.pos_le {regex : Regex} (h : Leads text regex place next) :
    next.pos ≤ text.length := by
  obtain ⟨-, before, word, after, rfl, -, hnext, -⟩ := h
  simp [hnext]

theorem leads_nothing_iff {regex : Regex} {P : Prop} (hplace : place.pos ≤ text.length)
    (h : ∀ before word after, text = before ++ word ++ after → place.pos = before.length →
      (regex.Describes before word after ↔ word = [] ∧ P)) :
    Leads text regex place next ↔ next = place ∧ P := by
  constructor
  · rintro ⟨hgroups, before, word, after, htext, hpos, hnext, hdescribes⟩
    obtain ⟨rfl, hP⟩ := (h before word after htext hpos).1 hdescribes
    refine ⟨?_, hP⟩
    cases place
    cases next
    simp_all
  · rintro ⟨rfl, hP⟩
    have htext : text = text.take next.pos ++ [] ++ text.drop next.pos := by simp
    have hpos : next.pos = (text.take next.pos).length := by simp [hplace]
    exact ⟨rfl, _, _, _, htext, hpos, by simpa using hpos, (h _ _ _ htext hpos).2 ⟨rfl, hP⟩⟩

theorem leads_one_iff :
    Leads text (.one set) place next ↔ step? text.toArray set place = some next := by
  rw [step?_eq_some_iff]
  constructor
  · rintro ⟨hgroups, before, word, after, rfl, hpos, hnext, c, rfl, hset⟩
    refine ⟨c, by simp [hpos], hset, ?_⟩
    cases place
    cases next
    simp_all
  · rintro ⟨c, hc, hset, rfl⟩
    rw [List.getElem?_toArray] at hc
    obtain ⟨hlt, rfl⟩ := List.getElem?_eq_some_iff.1 hc
    refine ⟨rfl, text.take place.pos, [text[place.pos]], text.drop (place.pos + 1), ?_, ?_, ?_,
      _, rfl, hset⟩
    · simp
    · simp
      omega
    · simp
      omega

theorem leads_seq_iff {first second : Regex} :
    Leads text (.seq first second) place next ↔
      ∃ middle, Leads text first place middle ∧ Leads text second middle next := by
  constructor
  · rintro ⟨hgroups, before, word, after, rfl, hpos, hnext, front, back, rfl, hfirst, hsecond⟩
    refine ⟨⟨before.length + front.length, place.groups⟩,
      ⟨rfl, before, front, back ++ after, by simp, hpos, rfl, hfirst⟩,
      ⟨hgroups, before ++ front, back, after, by simp, by simp, ?_, hsecond⟩⟩
    simp [hnext, Nat.add_assoc]
  · rintro ⟨middle, ⟨hgroups, before, front, rest, rfl, hpos, hmiddle, hfirst⟩,
      ⟨hgroups', before', back, after, htext, hpos', hnext, hsecond⟩⟩
    have hlength : before'.length = (before ++ front).length := by
      simp only [List.length_append]
      omega
    rw [List.append_assoc before'] at htext
    obtain ⟨rfl, rfl⟩ := List.append_inj htext hlength.symm
    refine ⟨hgroups'.trans hgroups, before, front ++ back, after, by simp, hpos, ?_,
      front, back, rfl, hfirst, hsecond⟩
    simp only [List.length_append] at hnext ⊢
    omega

theorem leads_many_iff {times : Repeat} (hplace : place.pos ≤ text.length) :
    Leads text (.many set times) place next ↔ Runs text.toArray set place next := by
  constructor
  · rintro ⟨hgroups, before, word, after, htext, hpos, hnext, hword⟩
    induction word generalizing before place with
    | nil =>
        have hsame : next = place := by
          cases place
          cases next
          simp_all
        exact hsame ▸ .refl _
    | cons c word ih =>
        have hfirst : Leads text (.one set) place { place with pos := place.pos + 1 } :=
          ⟨rfl, before, [c], word ++ after, by simp [htext], hpos, by simp [hpos], c, rfl,
            hword c (by simp)⟩
        refine runs_iff.2 (.inr ⟨_, leads_one_iff.1 hfirst, ?_⟩)
        have hlater : ∀ d ∈ word, set.has d = true :=
          fun d hd => hword d (List.mem_cons_of_mem _ hd)
        refine ih hfirst.pos_le hgroups (before ++ [c]) (by simp [htext]) (by simp [hpos]) ?_ hlater
        simp only [List.length_append, List.length_cons, List.length_nil] at hnext ⊢
        omega
  · rintro ⟨count, hcount⟩
    induction count generalizing next with
    | zero =>
        cases hcount
        exact ⟨rfl, text.take place.pos, [], text.drop place.pos, by simp, by simp [hplace],
          by simp [hplace], by simp [Describes]⟩
    | succ count ih =>
        rw [skip?_succ] at hcount
        obtain ⟨middle, hmiddle, hstep⟩ := Option.bind_eq_some_iff.1 hcount
        obtain ⟨-, before, word, after, htext, hpos, hnext, c, rfl, hc⟩ := leads_one_iff.2 hstep
        obtain ⟨hgroups, before', word', after', htext', hpos', hmiddle', hword⟩ := ih hmiddle
        obtain ⟨d, -, -, rfl⟩ := step?_eq_some_iff.1 hstep
        have hlength : (before' ++ word').length = before.length := by
          simp only [List.length_append]
          omega
        obtain ⟨rfl, rfl⟩ := List.append_inj
          (htext'.symm.trans (htext.trans (List.append_assoc ..))) hlength
        refine ⟨hgroups, before', word' ++ [c], after, by simp [htext], hpos', ?_, ?_⟩
        · simp only [List.length_append] at hnext ⊢
          omega
        · simpa [Describes, or_imp, forall_and] using ⟨hword, hc⟩

theorem leads_rounds_iff {body : Regex} {times : Repeat} (hplace : place.pos ≤ text.length) :
    Leads text (.rounds body times) place next ↔ next = place ∨ Leads text body place next := by
  have hnothing : Leads text .empty place next ↔ next = place ∧ True :=
    leads_nothing_iff hplace (by simp [Describes])
  simp only [and_true] at hnothing
  rw [← hnothing]
  constructor
  · rintro ⟨hgroups, before, word, after, htext, hpos, hnext, hword | hbody⟩
    · exact .inl ⟨hgroups, before, word, after, htext, hpos, hnext, hword⟩
    · exact .inr ⟨hgroups, before, word, after, htext, hpos, hnext, hbody⟩
  · rintro (⟨hgroups, before, word, after, htext, hpos, hnext, hword⟩ |
      ⟨hgroups, before, word, after, htext, hpos, hnext, hbody⟩)
    · exact ⟨hgroups, before, word, after, htext, hpos, hnext, .inl hword⟩
    · exact ⟨hgroups, before, word, after, htext, hpos, hnext, .inr hbody⟩

end

/-! ## Whole texts -/

theorem mem_run {text : List Char} {kept : Nat → Bool} (hkept : ∀ index, kept index = false)
    {regex : Regex} (hplain : regex.IsPlain) (places : Ways Place)
    (hplaces : ∀ place ∈ places.toList, place.pos ≤ text.length) (next : Place) :
    next ∈ (run text.toArray kept regex places).toList ↔
      ∃ place ∈ places.toList, Leads text regex place next := by
  induction regex generalizing places next with
  | empty =>
      have hsame : ∀ place ∈ places.toList, (Leads text .empty place next ↔ next = place ∧ True) :=
        fun place hp => leads_nothing_iff (hplaces place hp) (by simp [Describes])
      unfold run
      constructor
      · exact fun h => ⟨next, h, (hsame next h).2 ⟨rfl, trivial⟩⟩
      · rintro ⟨place, hp, h⟩
        exact ((hsame place hp).1 h).1 ▸ hp
  | one set =>
      unfold run
      simp only [Ways.toList_filterMap, List.mem_filterMap, leads_one_iff]
  | anchor edge =>
      have hholds : ∀ place ∈ places.toList, (Leads text (.anchor edge) place next ↔
          next = place ∧ edge.holds text.toArray place.pos = true) := fun place hp =>
        leads_nothing_iff (hplaces place hp) fun before word after htext hpos => by
          rw [hpos, htext]
          exact and_congr_right fun hword => by rw [hword, List.append_nil]
      unfold run
      simp only [Ways.filter, Ways.toList_filterMap, List.mem_filterMap]
      constructor
      · rintro ⟨place, hp, h⟩
        split at h
        · rename_i hedge
          cases h
          exact ⟨_, hp, (hholds _ hp).2 ⟨rfl, hedge⟩⟩
        · cases h
      · rintro ⟨place, hp, h⟩
        obtain ⟨rfl, hedge⟩ := (hholds place hp).1 h
        exact ⟨_, hp, by simp [hedge]⟩
  | seq first second ihFirst ihSecond =>
      unfold run
      have hfirst := ihFirst hplain.1 places hplaces
      have hmiddle : ∀ place ∈ (run text.toArray kept first places).toList,
          place.pos ≤ text.length := fun place hp => by
        obtain ⟨_, _, hleads⟩ := (hfirst place).1 hp
        exact hleads.pos_le
      rw [ihSecond hplain.2 _ hmiddle]
      simp only [hfirst, leads_seq_iff]
      constructor
      · rintro ⟨middle, ⟨place, hp, h⟩, h'⟩
        exact ⟨place, hp, middle, h, h'⟩
      · rintro ⟨place, hp, middle, h, h'⟩
        exact ⟨middle, ⟨place, hp, h⟩, h'⟩
  | many set times =>
      unfold run
      rw [mem_manyFrom hplain.1 hplain.2 places (by simpa using hplaces)]
      exact exists_congr fun place => and_congr_right fun hp =>
        (leads_many_iff (hplaces place hp)).symm
  | rounds body times ih =>
      unfold run
      rw [mem_roundsFrom_one hplain.1 hplain.2.1, hplain.1]
      refine exists_congr fun place => and_congr_right fun hp => ?_
      have hbody := ih hplain.2.2 (.single place) (by simpa using hplaces place hp) next
      rw [hbody, leads_rounds_iff (hplaces place hp)]
      simp
  | group index body ih =>
      unfold run
      rw [hkept index]
      exact ih hplain places hplaces next
  | alt | again | given | ahead | behind | atomic => exact hplain.elim

/-- A plain expression matches exactly the texts that it describes. -/
theorem matchesAll_iff {regex : Regex} (hplain : regex.IsPlain) (text : List Char) :
    regex.matchesAll text = true ↔ regex.Describes [] text [] := by
  unfold matchesAll
  rw [Ways.any_eq, List.any_eq_true, hplain.references_eq_nil]
  have hrun : ∀ next, next ∈ (run text.toArray ([] : List Nat).contains regex
      (.single .start)).toList ↔ _ :=
    mem_run (by simp) hplain (.single .start) (by simp [Place.start])
  constructor
  · rintro ⟨next, hnext, hsize⟩
    obtain ⟨place, hp, -, before, word, after, htext, hpos, hlength, hword⟩ := (hrun next).1 hnext
    rw [Ways.toList_single, List.mem_singleton] at hp
    subst hp
    have hbefore : before = [] := List.eq_nil_of_length_eq_zero hpos.symm
    subst hbefore
    simp only [List.size_toArray, beq_iff_eq] at hsize
    have hafter : after = [] := List.eq_nil_of_length_eq_zero (by
      rw [htext] at hsize
      simp only [List.length_append, List.length_nil] at hsize hlength
      omega)
    subst hafter
    simpa [htext] using hword
  · intro h
    refine ⟨⟨text.length, []⟩, (hrun _).2 ⟨.start, by simp, rfl, [], text, [], ?_, rfl, ?_, h⟩, ?_⟩
    · simp
    · simp
    · simp

end FileSelection.Regex
