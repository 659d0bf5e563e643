import FileSelection.Proofs.Act
import FileSelection.Proofs.Segmented.Stars

/-!
# Going back to the last star

A pattern with stars can be laid along a sequence item by item.  Where an item does not fit, the
scan goes back to the most recent star, which then takes one more item; what earlier stars have
taken is not tried again.  Although it moves backwards, the scan comes to an end, and it finds a
match whenever there is one.
-/

namespace FileSelection.Wildcard

variable {α β σ : Type}

/-! ## Matching item by item -/

/-- A star is passed over or takes one more item; any other part of the pattern takes one item. -/
inductive Matches (isStar : α → Bool) (same : α → β → Bool) : List α → List β → Prop
  | nil : Matches isStar same [] []
  | pass {x : α} {pattern : List α} {items : List β} :
      isStar x = true → Matches isStar same pattern items → Matches isStar same (x :: pattern) items
  | take {x : α} {item : β} {pattern : List α} {items : List β} :
      isStar x = true → Matches isStar same (x :: pattern) items →
        Matches isStar same (x :: pattern) (item :: items)
  | one {x : α} {item : β} {pattern : List α} {items : List β} :
      isStar x = false → same x item = true → Matches isStar same pattern items →
        Matches isStar same (x :: pattern) (item :: items)

section

variable {isStar : α → Bool} {same : α → β → Bool} {pattern : List α} {items : List β}

theorem matches_star {x : α} (hx : isStar x = true) (taken : List β)
    (h : Matches isStar same pattern items) :
    Matches isStar same (x :: pattern) (taken ++ items) := by
  induction taken with
  | nil => exact .pass hx h
  | cons item taken ih => exact .take hx ih

theorem matches_iff_fits : Matches isStar same pattern items ↔ Fits isStar same pattern items := by
  constructor
  · intro h
    induction h with
    | nil => exact .nil
    | pass hx _ ih => exact (fits_star_iff hx).2 ⟨_, List.suffix_rfl, ih⟩
    | @take x item _ _ hx _ ih =>
        rcases (fits_star_iff hx).1 ih with ⟨rest, hrest, h⟩
        apply (fits_star_iff hx).2
        exact ⟨rest, hrest.trans (List.suffix_cons item _), h⟩
    | one hx hsame _ ih => exact .one hx hsame ih
  · intro h
    induction h with
    | nil => exact .nil
    | star hx _ ih => exact matches_star hx _ ih
    | one hx hsame _ ih => exact .one hx hsame ih

theorem covers_iff_matches :
    covers isStar same pattern items = true ↔ Matches isStar same pattern items :=
  covers_iff.trans matches_iff_fits.symm

end

/-! ## The scan -/

/-- How far a scan has come: what is left of the pattern and of the items, and what was left of both
behind the most recent star. -/
structure Place (α β : Type) where
  pattern : List α
  items : List β
  star : Option (List α × List β)

namespace Place

def start (pattern : List α) (items : List β) : Place α β := ⟨pattern, items, none⟩

def retry : Option (List α × List β) → Place α β ⊕ Bool
  | none => .inr false
  | some (pattern, items) => .inl ⟨pattern, items.tail, some (pattern, items.tail)⟩

def next (isStar : α → Bool) (same : α → β → Bool) : Place α β → Place α β ⊕ Bool
  | ⟨pattern, [], _⟩ => .inr (pattern.all isStar)
  | ⟨[], _ :: _, star⟩ => retry star
  | ⟨x :: pattern, item :: items, star⟩ =>
      if isStar x then .inl ⟨pattern, item :: items, some (pattern, item :: items)⟩
      else if same x item then .inl ⟨pattern, items, star⟩
      else retry star

end Place

def scan (isStar : α → Bool) (same : α → β → Bool) : Act.Step σ (Place α β) Bool :=
  fun place => pure (place.next isStar same)

section

variable {isStar : α → Bool} {same : α → β → Bool} {pattern : List α} {items : List β} {state : σ}

theorem loop_scan_of_next {place following : Place α β}
    (h : place.next isStar same = .inl following) :
    Act.Step.loop (scan isStar same) place state =
      Act.Step.loop (scan isStar same) following state := by
  apply Act.loop_of_next
  rw [scan, h]
  rfl

theorem loop_scan_of_answer {place : Place α β} {answer : Bool}
    (h : place.next isStar same = .inr answer) :
    Act.Step.loop (scan isStar same) place state = some (.ok answer, state) := by
  apply Act.loop_of_value
  rw [scan, h]
  rfl

def Place.afterLaying (star : Option (List α × List β)) : Laid α β → Place α β ⊕ Bool
  | .done [] => .inr true
  | .star pattern items => .inl ⟨pattern, items, some (pattern, items)⟩
  | .short => .inr false
  | .done (_ :: _) | .mismatch => retry star

def follow (isStar : α → Bool) (same : α → β → Bool) (state : σ) :
    Place α β ⊕ Bool → Option (Except Failure Bool × σ)
  | .inl place => Act.Step.loop (scan isStar same) place state
  | .inr answer => some (.ok answer, state)

theorem loop_scan (place : Place α β) :
    Act.Step.loop (scan isStar same) place state =
      follow isStar same state (place.next isStar same) := by
  cases h : place.next isStar same with
  | inl following => exact loop_scan_of_next h
  | inr answer => exact loop_scan_of_answer h

theorem loop_scan_laying (pattern : List α) (items : List β) (star : Option (List α × List β)) :
    Act.Step.loop (scan isStar same) ⟨pattern, items, star⟩ state =
      follow isStar same state (Place.afterLaying star (lay isStar same pattern items)) := by
  fun_induction lay isStar same pattern items with
  | case1 items =>
      cases items with
      | nil => exact loop_scan_of_answer rfl
      | cons item items => exact loop_scan _
  | case2 x pattern items hx =>
      cases items with
      | nil =>
          have hstar : Place.next isStar same ⟨x :: pattern, [], star⟩ = .inr (pattern.all isStar) := by
            simp [Place.next, hx]
          rw [loop_scan_of_answer hstar]
          exact (loop_scan_of_answer rfl).symm
      | cons item items =>
          apply loop_scan_of_next
          simp [Place.next, hx]
  | case3 x pattern hx =>
      apply loop_scan_of_answer
      simp [Place.next, hx]
  | case4 x pattern hx item items hsame ih =>
      rw [← ih]
      apply loop_scan_of_next
      simp [Place.next, hx, hsame]
  | case5 x pattern hx item items hsame =>
      rw [loop_scan]
      simp [Place.next, hx, hsame, Place.afterLaying]

variable (isStar same) in
theorem lay_nil_eq (pattern : List α) :
    lay isStar same pattern ([] : List β) = .done [] ∨
      lay isStar same pattern ([] : List β) = .short ∨
        ∃ rest, lay isStar same pattern ([] : List β) = .star rest [] := by
  cases pattern with
  | nil => exact .inl rfl
  | cons x pattern =>
      cases hx : isStar x with
      | true => exact .inr (.inr ⟨pattern, by simp [lay, hx]⟩)
      | false => exact .inr (.inl (by simp [lay, hx]))

theorem loop_scan_afterStar (pattern : List α) (items : List β) :
    Act.Step.loop (scan isStar same) ⟨pattern, items, some (pattern, items)⟩ state =
      some (.ok (coversAfterStar isStar same pattern items), state) := by
  fun_induction coversAfterStar isStar same pattern items with
  | case1 pattern items pattern' items' hlaid ih =>
      rw [loop_scan_laying, hlaid]
      exact ih
  | case2 pattern items hlaid =>
      rw [loop_scan_laying, hlaid]
      rfl
  | case3 pattern items hlaid =>
      rw [loop_scan_laying, hlaid]
      rfl
  | case4 pattern rest hrest hlaid =>
      rcases lay_nil_eq isStar same pattern with h | h | ⟨_, h⟩ <;>
        rw [h] at hlaid <;> cases hlaid
      exact absurd rfl hrest
  | case5 pattern rest hrest item items hlaid ih =>
      rw [loop_scan_laying, hlaid]
      cases rest with
      | nil => exact absurd rfl hrest
      | cons other rest => exact ih
  | case6 pattern hlaid =>
      rcases lay_nil_eq isStar same pattern with h | h | ⟨_, h⟩ <;>
        rw [h] at hlaid <;> cases hlaid
  | case7 pattern item items hlaid ih =>
      rw [loop_scan_laying, hlaid]
      exact ih

/-- The scan comes to an end, and its answer is the decision. -/
theorem loop_scan_start (pattern : List α) (items : List β) (state : σ) :
    Act.Step.loop (scan isStar same) (.start pattern items) state =
      some (.ok (covers isStar same pattern items), state) := by
  rw [Place.start, loop_scan_laying, covers]
  cases lay isStar same pattern items with
  | done rest =>
      cases rest with
      | nil => rfl
      | cons item rest => rfl
  | star pattern items => exact loop_scan_afterStar pattern items
  | short => rfl
  | mismatch => rfl

end

end FileSelection.Wildcard

namespace FileSelection.Segmented

open FileSelection.Text FileSelection.Wildcard

/-! ## Segments and paths -/

theorem coversSegment_true_iff {pattern segment : List Char} :
    coversSegment true pattern segment = true ↔
      Matches (· == '*') sameChar pattern segment :=
  covers_iff_matches

theorem coversSegment_false_iff {pattern segment : List Char} :
    coversSegment false pattern segment = true ↔
      Matches (· == '*') sameChar (caseFold pattern) (caseFold segment) :=
  covers_iff_matches

section

variable {separator : List Char} {caseSensitive : Bool} {pattern path : List Char}

theorem isSome_coversPath?_iff :
    (coversPath? separator caseSensitive pattern path).isSome ↔ separator ≠ [] := by
  cases separator with
  | nil => simp [coversPath?, segments?]
  | cons c separator =>
      simp only [coversPath?, segments?]
      split <;> simp

theorem coversPath?_eq_true_iff :
    coversPath? separator caseSensitive pattern path = some true ↔
      (separator <+: pattern ↔ separator <+: path) ∧
        ∃ patterns parts, segments? separator pattern = some patterns ∧
          segments? separator path = some parts ∧
            Matches isDeep (coversSegment caseSensitive) patterns parts := by
  have hheads : separator.isPrefixOf pattern = separator.isPrefixOf path ↔
      (separator <+: pattern ↔ separator <+: path) := by
    rw [Bool.eq_iff_iff, List.isPrefixOf_iff_prefix, List.isPrefixOf_iff_prefix]
  simp only [← hheads, ← covers_iff_matches, coversPath?]
  by_cases halike : separator.isPrefixOf pattern = separator.isPrefixOf path
  · simp [halike, Option.bind_eq_some_iff]
  · simp [halike]

end

/-- The scan for a pattern with stars always comes to an end, and it finds out whether the items
match.  So a segment is matched with `*` for any characters and `?` for one, and a path, if it starts
with the separator exactly when the pattern does, with `**` for any number of segments. -/
theorem patterns_match_item_by_item :
    (∀ {α β : Type} (isStar : α → Bool) (same : α → β → Bool) (pattern : List α) (items : List β),
      (∀ {σ : Type} (state : σ), Act.Step.loop (scan isStar same) (.start pattern items) state =
        some (.ok (covers isStar same pattern items), state)) ∧
      (covers isStar same pattern items = true ↔ Matches isStar same pattern items)) ∧
    (∀ pattern segment,
      (coversSegment true pattern segment = true ↔
        Matches (· == '*') sameChar pattern segment) ∧
      (coversSegment false pattern segment = true ↔
        Matches (· == '*') sameChar (caseFold pattern) (caseFold segment))) ∧
    ∀ separator caseSensitive pattern path,
      ((coversPath? separator caseSensitive pattern path).isSome ↔ separator ≠ []) ∧
      (coversPath? separator caseSensitive pattern path = some true ↔
        (separator <+: pattern ↔ separator <+: path) ∧
          ∃ patterns parts, segments? separator pattern = some patterns ∧
            segments? separator path = some parts ∧
              Matches isDeep (coversSegment caseSensitive) patterns parts) := by
  refine ⟨?_, ?_, ?_⟩
  · intro α β isStar same pattern items
    exact ⟨fun state => loop_scan_start pattern items state, covers_iff_matches⟩
  · intro pattern segment
    exact ⟨coversSegment_true_iff, coversSegment_false_iff⟩
  · intro separator caseSensitive pattern path
    exact ⟨isSome_coversPath?_iff, coversPath?_eq_true_iff⟩

end FileSelection.Segmented
