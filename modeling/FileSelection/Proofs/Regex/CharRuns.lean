import FileSelection.Regex.Match

/-!
# Runs of characters of one set

The ways of an unlimited run are the places that single steps lead to.  A known place stands for all
places behind it, so that what is known is closed under steps.
-/

namespace FileSelection.Regex

/-! ## Ways without repetition -/

namespace Ways

variable {α : Type} [BEq α] [Hashable α] [LawfulBEq α]

theorem mem_distinctAfter (seen : Std.HashSet α) (ways : Ways α) (a : α) :
    a ∈ (ways.distinctAfter seen).toList ↔ a ∈ ways.toList ∧ seen.contains a = false := by
  induction ways generalizing seen with
  | nil => simp [distinctAfter, toList]
  | cons first rest ih =>
      unfold distinctAfter
      split
      · rename_i hseen
        rw [ih]
        simp only [toList, List.mem_cons]
        constructor
        · rintro ⟨ha, hnew⟩
          exact ⟨.inr ha, hnew⟩
        · rintro ⟨rfl | ha, hnew⟩
          · rw [hseen] at hnew
            cases hnew
          · exact ⟨ha, hnew⟩
      · rename_i hseen
        simp only [toList, List.mem_cons, ih, Std.HashSet.contains_insert, Bool.or_eq_false_iff,
          beq_eq_false_iff_ne]
        by_cases ha : a = first
        · subst ha
          simpa using hseen
        · simp [ha, Ne.symm ha]

theorem mem_distinct (ways : Ways α) (a : α) : a ∈ ways.distinct.toList ↔ a ∈ ways.toList := by
  cases ways with
  | nil => rfl
  | cons first rest =>
      simp only [distinct, toList, List.mem_cons, mem_distinctAfter, Std.HashSet.contains_insert,
        Std.HashSet.contains_empty, Bool.or_false, beq_eq_false_iff_ne]
      by_cases ha : a = first
      · simp [ha]
      · simp [ha, Ne.symm ha]

end Ways

/-! ## Steps -/

section

variable {text : Array Char} {set : CharSet} {place next : Place}

theorem step?_eq_some_iff :
    step? text set place = some next ↔
      ∃ c, text[place.pos]? = some c ∧ set.has c = true ∧
        next = { place with pos := place.pos + 1 } := by
  unfold step?
  cases text[place.pos]? with
  | none => simp
  | some c =>
      simp only [Option.some.injEq, exists_eq_left', eq_comm (a := next)]
      cases hset : set.has c <;> simp

theorem skip?_succ (count : Nat) :
    skip? text set (count + 1) place = (skip? text set count place).bind (step? text set) := by
  induction count generalizing place with
  | zero => simp [skip?]
  | succ count ih =>
      rw [skip?]
      cases hstep : step? text set place with
      | none => simp [skip?, hstep]
      | some middle =>
          simp only [skip?, hstep, Option.bind_some]
          exact ih

theorem pos_le_of_skip? {count : Nat} (hplace : place.pos ≤ text.size)
    (h : skip? text set count place = some next) : next.pos ≤ text.size := by
  cases count with
  | zero =>
      cases h
      exact hplace
  | succ count =>
      rw [skip?_succ] at h
      obtain ⟨middle, -, hstep⟩ := Option.bind_eq_some_iff.1 h
      obtain ⟨c, hc, -, rfl⟩ := step?_eq_some_iff.1 hstep
      exact (Array.getElem?_eq_some_iff.1 hc).1

def Runs (text : Array Char) (set : CharSet) (place next : Place) : Prop :=
  ∃ count, skip? text set count place = some next

theorem Runs.refl (place : Place) : Runs text set place place := ⟨0, rfl⟩

theorem Runs.step {last : Place} (h : Runs text set place next)
    (hstep : step? text set next = some last) : Runs text set place last := by
  obtain ⟨count, hcount⟩ := h
  exact ⟨count + 1, by rw [skip?_succ, hcount, Option.bind_some, hstep]⟩

theorem runs_iff :
    Runs text set place next ↔
      next = place ∨ ∃ middle, step? text set place = some middle ∧ Runs text set middle next := by
  constructor
  · rintro ⟨count, h⟩
    cases count with
    | zero =>
        cases h
        exact .inl rfl
    | succ count =>
        obtain ⟨middle, hstep, hskip⟩ := Option.bind_eq_some_iff.1 h
        exact .inr ⟨middle, hstep, count, hskip⟩
  · rintro (rfl | ⟨middle, hstep, count, hskip⟩)
    · exact .refl _
    · exact ⟨count + 1, by rw [skip?, hstep, Option.bind_some, hskip]⟩

end

/-! ## Known places -/

/-- With a place, everything that steps lead to is known. -/
def Closed (text : Array Char) (set : CharSet) (known : Place → Prop) : Prop :=
  ∀ place next, known place → step? text set place = some next → known next

theorem Closed.of_runs {text : Array Char} {set : CharSet} {known : Place → Prop}
    (hclosed : Closed text set known) {place next : Place} (hplace : known place)
    (h : Runs text set place next) : known next := by
  obtain ⟨count, hcount⟩ := h
  induction count generalizing next with
  | zero =>
      cases hcount
      exact hplace
  | succ count ih =>
      rw [skip?_succ] at hcount
      obtain ⟨middle, hmiddle, hstep⟩ := Option.bind_eq_some_iff.1 hcount
      exact hclosed _ _ (ih hmiddle) hstep

section

variable {text : Array Char} {set : CharSet} {known : Std.HashSet Place}

theorem mem_nearestFirst (hclosed : Closed text set (known.contains · = true))
    (room : Nat) (place : Place) (hroom : text.size + 1 - place.pos ≤ room)
    (hplace : place.pos ≤ text.size) (next : Place) :
    next ∈ (nearestFirst text set known room place).toList ↔
      Runs text set place next ∧ known.contains next = false := by
  induction room generalizing place with
  | zero => omega
  | succ room ih =>
      unfold nearestFirst
      split
      · rename_i hknown
        simp only [Ways.toList, List.not_mem_nil, false_iff]
        rintro ⟨hruns, hnew⟩
        rw [hclosed.of_runs hknown hruns] at hnew
        cases hnew
      · rename_i hnew
        rw [runs_iff, Ways.toList]
        cases hstep : step? text set place with
        | none =>
            simp only [Ways.toList, List.mem_singleton, reduceCtorEq, false_and, exists_false,
              or_false]
            constructor
            · rintro rfl
              exact ⟨rfl, by simpa using hnew⟩
            · exact And.left
        | some middle =>
            obtain ⟨c, hc, -, rfl⟩ := step?_eq_some_iff.1 hstep
            have hpos := (Array.getElem?_eq_some_iff.1 hc).1
            simp only [List.mem_cons]
            rw [ih { place with pos := place.pos + 1 } (by simp only; omega) hpos]
            simp only [Option.some.injEq, exists_eq_left']
            constructor
            · rintro (rfl | ⟨hruns, h⟩)
              · exact ⟨.inl rfl, by simpa using hnew⟩
              · exact ⟨.inr hruns, h⟩
            · rintro ⟨rfl | hruns, h⟩
              · exact .inl rfl
              · exact .inr ⟨hruns, h⟩

theorem farthestFirst_eq (room : Nat) (place : Place) (found : List Place) :
    farthestFirst text set known room place found =
      (nearestFirst text set known room place).toList.reverse ++ found := by
  induction room generalizing place found with
  | zero => rfl
  | succ room ih =>
      unfold farthestFirst nearestFirst
      split
      · rfl
      · rw [Ways.toList]
        cases hstep : step? text set place with
        | none => rfl
        | some next => simp [ih]

theorem mem_farthestFirst (hclosed : Closed text set (known.contains · = true))
    (room : Nat) (place : Place) (hroom : text.size + 1 - place.pos ≤ room)
    (hplace : place.pos ≤ text.size) (next : Place) :
    next ∈ farthestFirst text set known room place [] ↔
      Runs text set place next ∧ known.contains next = false := by
  rw [farthestFirst_eq, List.append_nil, List.mem_reverse]
  exact mem_nearestFirst hclosed room place hroom hplace next

end

theorem contains_foldl_insert (known : Std.HashSet Place) (fresh : List Place) (place : Place) :
    (fresh.foldl .insert known).contains place = true ↔
      place ∈ fresh ∨ known.contains place = true := by
  induction fresh generalizing known with
  | nil => simp
  | cons first fresh ih =>
      rw [List.foldl_cons, ih, Std.HashSet.contains_insert, Bool.or_eq_true, beq_iff_eq,
        List.mem_cons, eq_comm (a := first)]
      simp only [or_assoc, or_left_comm]

/-! ## Unlimited runs -/

section

variable {text : Array Char} {set : CharSet}

theorem Closed.or_runs {known : Place → Prop} (hclosed : Closed text set known) (start : Place) :
    Closed text set fun place => known place ∨ (Runs text set start place ∧ ¬ known place) := by
  rintro place next (hplace | ⟨hruns, -⟩) hstep
  · exact .inl (hclosed _ _ hplace hstep)
  · by_cases hnext : known next
    · exact .inl hnext
    · exact .inr ⟨hruns.step hstep, hnext⟩

theorem mem_unlimitedFrom (least : Nat) (reluctant : Bool) (places : Ways Place)
    (hplaces : ∀ place ∈ places.toList, place.pos ≤ text.size) (known : Std.HashSet Place)
    (fresh : List Place) (isKnown : Place → Prop)
    (hknown : ∀ place, place ∈ fresh ∨ known.contains place = true ↔ isKnown place)
    (hclosed : Closed text set isKnown) (next : Place) :
    next ∈ (unlimitedFrom text set least reluctant known fresh places).toList ↔
      ¬ isKnown next ∧ ∃ place ∈ places.toList, ∃ start, skip? text set least place = some start ∧
        Runs text set start next := by
  induction places generalizing known fresh isKnown with
  | nil => simp [unlimitedFrom, Ways.toList]
  | cons place others ih =>
      have hothers : ∀ p ∈ (others ()).toList, p.pos ≤ text.size := fun p hp =>
        hplaces p (List.mem_cons_of_mem _ hp)
      have hfolded : ∀ p, (fresh.foldl .insert known).contains p = true ↔ isKnown p := fun p =>
        (contains_foldl_insert known fresh p).trans (hknown p)
      have hfoldedNot : ∀ p, (fresh.foldl .insert known).contains p = false ↔ ¬ isKnown p :=
        fun p => by rw [← hfolded p, Bool.not_eq_true]
      have hclosed' : Closed text set ((fresh.foldl .insert known).contains · = true) := by
        simpa only [hfolded] using hclosed
      unfold unlimitedFrom
      simp only [Ways.toList, List.mem_cons, exists_eq_or_imp]
      cases hskip : skip? text set least place with
      | none =>
          simp only
          rw [ih () hothers _ [] isKnown (by simpa using hfolded) hclosed]
          simp
      | some start =>
          have hstart : start.pos ≤ text.size :=
            pos_le_of_skip? (hplaces place (by simp [Ways.toList])) hskip
          have hends : ∀ p,
              p ∈ farthestFirst text set (fresh.foldl .insert known) (text.size + 1 - start.pos)
                start [] ↔ Runs text set start p ∧ ¬ isKnown p := fun p => by
            rw [mem_farthestFirst hclosed' _ _ (Nat.le_refl _) hstart, hfoldedNot]
          have hlater := ih () hothers (fresh.foldl .insert known)
            (farthestFirst text set (fresh.foldl .insert known)
              (text.size + 1 - start.pos) start [])
            (fun p => isKnown p ∨ (Runs text set start p ∧ ¬ isKnown p))
            (fun p => by rw [hends, hfolded, or_comm]) (hclosed.or_runs start)
          simp only [Option.some.injEq, exists_eq_left']
          split
          · rw [Ways.toList_append, List.mem_append,
              mem_nearestFirst hclosed' _ _ (Nat.le_refl _) hstart, hfoldedNot, hlater]
            by_cases hnext : isKnown next <;> by_cases hruns : Runs text set start next <;>
              simp [hnext, hruns]
          · rw [Ways.toList_append, List.mem_append, Ways.toList_ofList, hends, hlater]
            by_cases hnext : isKnown next <;> by_cases hruns : Runs text set start next <;>
              simp [hnext, hruns]

theorem mem_manyFrom {times : Repeat} (hleast : times.least = 0) (hmost : times.most = none)
    (places : Ways Place) (hplaces : ∀ place ∈ places.toList, place.pos ≤ text.size)
    (next : Place) :
    next ∈ (manyFrom text set times places).toList ↔
      ∃ place ∈ places.toList, Runs text set place next := by
  unfold manyFrom
  rw [hmost, hleast]
  simp only [Option.filter_none]
  rw [mem_unlimitedFrom 0 times.reluctant places hplaces ∅ [] (fun _ => False) (by simp)
    (fun _ _ h => h.elim)]
  simp [skip?]

end

end FileSelection.Regex
