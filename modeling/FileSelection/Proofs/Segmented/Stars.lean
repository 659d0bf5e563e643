import FileSelection.Segmented

/-!
# Sequences that fit a pattern with stars

A star stands for any items, in any of the ways to choose them.  The decision takes the first place
where the part up to the next star can be laid, and loses nothing by it.
-/

namespace FileSelection.Wildcard

variable {α β : Type}

/-- A sequence fits a pattern item by item, where a star takes any number of items. -/
inductive Fits (isStar : α → Bool) (same : α → β → Bool) : List α → List β → Prop
  | nil : Fits isStar same [] []
  | star {x : α} {pattern : List α} {taken items : List β} :
      isStar x = true → Fits isStar same pattern items →
        Fits isStar same (x :: pattern) (taken ++ items)
  | one {x : α} {item : β} {pattern : List α} {items : List β} :
      isStar x = false → same x item = true → Fits isStar same pattern items →
        Fits isStar same (x :: pattern) (item :: items)

section

variable {isStar : α → Bool} {same : α → β → Bool} {x : α} {pattern : List α} {items : List β}

@[simp]
theorem fits_nil_iff : Fits isStar same [] items ↔ items = [] := by
  constructor
  · rintro ⟨⟩
    rfl
  · rintro rfl
    exact .nil

theorem fits_star_iff (hx : isStar x = true) :
    Fits isStar same (x :: pattern) items ↔
      ∃ rest, rest <:+ items ∧ Fits isStar same pattern rest := by
  constructor
  · intro h
    cases h with
    | star _ h => exact ⟨_, List.suffix_append _ _, h⟩
    | one hnot => rw [hx] at hnot; cases hnot
  · rintro ⟨rest, ⟨taken, rfl⟩, h⟩
    exact .star hx h

theorem fits_one_iff (hx : isStar x = false) :
    Fits isStar same (x :: pattern) items ↔
      ∃ item rest, items = item :: rest ∧ same x item = true ∧ Fits isStar same pattern rest := by
  constructor
  · intro h
    cases h with
    | star hstar => rw [hx] at hstar; cases hstar
    | one _ hsame h => exact ⟨_, _, rfl, hsame, h⟩
  · rintro ⟨item, rest, rfl, hsame, h⟩
    exact .one hx hsame h

theorem Fits.isStar_of_nil (h : Fits isStar same pattern []) (hx : x ∈ pattern) :
    isStar x = true := by
  induction pattern with
  | nil => cases hx
  | cons first pattern ih =>
      cases hfirst : isStar first with
      | false =>
          obtain ⟨_, _, heq, -⟩ := (fits_one_iff hfirst).1 h
          cases heq
      | true =>
          obtain ⟨rest, hrest, h⟩ := (fits_star_iff hfirst).1 h
          rw [List.suffix_nil.1 hrest] at h
          obtain rfl | hx := List.mem_cons.1 hx
          · exact hfirst
          · exact ih h hx

theorem fits_append_star_iff (hx : isStar x = true) :
    Fits isStar same (pattern ++ [x]) items ↔
      ∃ front, front <+: items ∧ Fits isStar same pattern front := by
  constructor
  · intro h
    generalize hwhole : pattern ++ [x] = whole at h
    induction h generalizing pattern with
    | nil => simp at hwhole
    | @star first _ taken items hfirst h ih =>
        cases pattern with
        | nil => exact ⟨[], List.nil_prefix, .nil⟩
        | cons y pattern =>
            obtain ⟨rfl, htail⟩ := List.cons.inj hwhole
            obtain ⟨front, hfront, hfits⟩ := ih htail
            exact ⟨taken ++ front, (List.prefix_append_right_inj taken).2 hfront,
              .star hfirst hfits⟩
    | @one first item _ items hfirst hsame h ih =>
        cases pattern with
        | nil =>
            obtain ⟨rfl, -⟩ := List.cons.inj hwhole
            rw [hx] at hfirst
            cases hfirst
        | cons y pattern =>
            obtain ⟨rfl, htail⟩ := List.cons.inj hwhole
            obtain ⟨front, hfront, hfits⟩ := ih htail
            exact ⟨item :: front, List.cons_prefix_cons.2 ⟨rfl, hfront⟩, .one hfirst hsame hfits⟩
  · rintro ⟨front, ⟨rest, rfl⟩, h⟩
    induction h with
    | nil =>
        have h : Fits isStar same [x] (rest ++ []) := .star hx .nil
        simpa using h
    | star hfirst _ ih =>
        rw [List.append_assoc]
        exact .star hfirst ih
    | one hfirst hsame _ ih => exact .one hfirst hsame ih

/-! ## Laying a pattern -/

/-- What a pattern laid along a sequence says about the sequences that fit it. -/
def Laid.Says (isStar : α → Bool) (same : α → β → Bool) (pattern : List α) (items : List β) :
    Laid α β → Prop
  | .done rest => Fits isStar same pattern items ↔ rest = []
  | .star pattern' rest =>
      (∀ left, left <:+ rest → Fits isStar same pattern' left → Fits isStar same pattern items) ∧
        rest <:+ items ∧
        ∀ others, Fits isStar same pattern others →
          ∃ left, left <:+ others ∧ Fits isStar same pattern' left ∧
            left.length + items.length ≤ rest.length + others.length
  | .short => ∀ others, Fits isStar same pattern others → items.length < others.length
  | .mismatch => ¬ Fits isStar same pattern items

theorem Laid.Says.cons {laid : Laid α β} {item : β} (h : laid.Says isStar same pattern items)
    (hx : isStar x = false) (hsame : same x item = true) :
    laid.Says isStar same (x :: pattern) (item :: items) := by
  have hone : Fits isStar same (x :: pattern) (item :: items) ↔ Fits isStar same pattern items := by
    rw [fits_one_iff hx]
    constructor
    · rintro ⟨_, _, heq, -, h⟩
      cases heq
      exact h
    · exact fun h => ⟨item, items, rfl, hsame, h⟩
  cases laid with
  | done rest => exact hone.trans h
  | star pattern' rest =>
      obtain ⟨hfits, hsuffix, hleft⟩ := h
      refine ⟨fun left hl h => hone.2 (hfits left hl h),
        hsuffix.trans (List.suffix_cons item items), ?_⟩
      intro others h
      obtain ⟨first, others, rfl, -, h⟩ := (fits_one_iff hx).1 h
      obtain ⟨left, hl, h, hlength⟩ := hleft others h
      refine ⟨left, hl.trans (List.suffix_cons first others), h, ?_⟩
      simp only [List.length_cons]
      omega
  | short =>
      intro others hothers
      obtain ⟨first, others, rfl, -, hothers⟩ := (fits_one_iff hx).1 hothers
      exact Nat.succ_lt_succ (h others hothers)
  | mismatch => exact fun hfits => h (hone.1 hfits)

theorem lay_says (isStar : α → Bool) (same : α → β → Bool) (pattern : List α) (items : List β) :
    (lay isStar same pattern items).Says isStar same pattern items := by
  fun_induction lay isStar same pattern items with
  | case1 items => exact fits_nil_iff
  | case2 items x pattern hx =>
      refine ⟨fun left hleft h => (fits_star_iff hx).2 ⟨left, hleft, h⟩, List.suffix_rfl, ?_⟩
      intro others h
      obtain ⟨left, hleft, h⟩ := (fits_star_iff hx).1 h
      have := hleft.length_le
      exact ⟨left, hleft, h, by omega⟩
  | case3 x pattern hx =>
      intro others h
      obtain ⟨item, rest, rfl, -⟩ := (fits_one_iff (by simpa using hx)).1 h
      simp
  | case4 x pattern hx item items hsame ih => exact ih.cons (by simpa using hx) hsame
  | case5 x pattern hx item items hsame =>
      intro h
      obtain ⟨_, _, heq, hsame', -⟩ := (fits_one_iff (by simpa using hx)).1 h
      cases heq
      exact hsame hsame'

/-! ## Deciding -/

theorem exists_suffix_cons_iff {item : β} (h : ¬ Fits isStar same pattern (item :: items)) :
    (∃ rest, rest <:+ item :: items ∧ Fits isStar same pattern rest) ↔
      ∃ rest, rest <:+ items ∧ Fits isStar same pattern rest := by
  refine exists_congr fun rest => and_congr_left fun hrest => ?_
  rw [List.suffix_cons_iff]
  refine or_iff_right ?_
  rintro rfl
  exact h hrest

theorem coversAfterStar_iff :
    coversAfterStar isStar same pattern items = true ↔
      ∃ rest, rest <:+ items ∧ Fits isStar same pattern rest := by
  fun_induction coversAfterStar isStar same pattern items with
  | case1 pattern items pattern' items' hlaid ih =>
      have hlays := lay_says isStar same pattern items
      rw [hlaid] at hlays
      obtain ⟨hfits, hsuffix, hleft⟩ := hlays
      rw [ih]
      constructor
      · rintro ⟨rest, hrest, h⟩
        exact ⟨items, List.suffix_rfl, hfits rest hrest h⟩
      · rintro ⟨rest, hrest, h⟩
        obtain ⟨left, hl, h, hlength⟩ := hleft rest h
        have := hrest.length_le
        exact ⟨left, List.suffix_of_suffix_length_le (hl.trans hrest) hsuffix (by omega), h⟩
  | case2 pattern items hlaid =>
      have hlays := lay_says isStar same pattern items
      rw [hlaid] at hlays
      simp only [Bool.false_eq_true, false_iff, not_exists, not_and]
      intro rest hrest h
      have := hlays rest h
      have := hrest.length_le
      omega
  | case3 pattern items hlaid =>
      have hlays := lay_says isStar same pattern items
      rw [hlaid] at hlays
      simp only [true_iff]
      exact ⟨items, List.suffix_rfl, hlays.2 rfl⟩
  | case4 pattern rest hrest hlaid =>
      have hlays := lay_says isStar same pattern []
      rw [hlaid] at hlays
      simpa [List.suffix_nil] using fun h => hrest (hlays.1 h)
  | case5 pattern rest hrest item items hlaid ih =>
      have hlays := lay_says isStar same pattern (item :: items)
      rw [hlaid] at hlays
      rw [ih, exists_suffix_cons_iff fun h => hrest (hlays.1 h)]
  | case6 pattern hlaid =>
      have hlays := lay_says isStar same pattern []
      rw [hlaid] at hlays
      simpa [List.suffix_nil, Laid.Says] using hlays
  | case7 pattern item items hlaid ih =>
      have hlays := lay_says isStar same pattern (item :: items)
      rw [hlaid] at hlays
      rw [ih, exists_suffix_cons_iff hlays]

theorem covers_iff :
    covers isStar same pattern items = true ↔ Fits isStar same pattern items := by
  have hlays := lay_says isStar same pattern items
  unfold covers
  cases hlaid : lay isStar same pattern items with
  | done rest =>
      rw [hlaid] at hlays
      simpa using hlays.symm
  | star pattern' rest =>
      rw [hlaid] at hlays
      obtain ⟨hfits, hsuffix, hleft⟩ := hlays
      simp only [coversAfterStar_iff]
      constructor
      · rintro ⟨left, hl, h⟩
        exact hfits left hl h
      · intro h
        obtain ⟨left, hl, h, hlength⟩ := hleft items h
        exact ⟨left, List.suffix_of_suffix_length_le hl hsuffix (by omega), h⟩
  | short =>
      rw [hlaid] at hlays
      simp only [Bool.false_eq_true, false_iff]
      exact fun h => Nat.lt_irrefl _ (hlays items h)
  | mismatch =>
      rw [hlaid] at hlays
      simpa [Laid.Says] using hlays

end

end FileSelection.Wildcard
