import FileSelection.Text.Split

/-!
# Where a text is cut

A text is cut at the leftmost place where a mark occurs, and the rest after the mark is cut again.
-/

namespace FileSelection.Text

/-- No occurrence of the mark begins before the end of the part. -/
def FirstAt (mark part text : List Char) : Prop :=
  ∀ front back, text = front ++ mark ++ back → part.length ≤ front.length

/-- The parts of a text between leftmost occurrences of a mark. -/
inductive Cuts (mark : List Char) : List Char → List (List Char) → Prop
  | last {text : List Char} : ¬ mark <:+: text → Cuts mark text [text]
  | cut {part rest : List Char} {parts : List (List Char)} :
      FirstAt mark part (part ++ mark ++ rest) → Cuts mark rest parts →
        Cuts mark (part ++ mark ++ rest) (part :: parts)

theorem splitAfter_ne_nil (mark : List Char) (skip : Nat) (text : List Char) :
    splitAfter mark skip text ≠ [] := by
  induction text generalizing skip with
  | nil => simp [splitAfter]
  | cons c text ih =>
      cases skip with
      | succ skip => exact ih skip
      | zero =>
          unfold splitAfter
          split
          · simp
          · unfold consPart
            split <;> simp

theorem splitAt_ne_nil (mark text : List Char) : splitAt mark text ≠ [] :=
  splitAfter_ne_nil mark 0 text

theorem splitAfter_drop (mark skipped rest : List Char) :
    splitAfter mark skipped.length (skipped ++ rest) = splitAt mark rest := by
  induction skipped with
  | nil => rfl
  | cons c skipped ih => exact ih

theorem splitAt_mark_append {mark : List Char} (hmark : mark ≠ []) (rest : List Char) :
    splitAt mark (mark ++ rest) = [] :: splitAt mark rest := by
  cases mark with
  | nil => exact absurd rfl hmark
  | cons c mark =>
      have hmarked : (c :: mark).isPrefixOf (c :: (mark ++ rest)) = true := by simp
      rw [List.cons_append, splitAt, splitAfter, if_pos hmarked]
      exact congrArg _ (splitAfter_drop (c :: mark) mark rest)

theorem splitAt_cons {mark : List Char} {c : Char} {rest : List Char}
    (h : ¬ mark <+: c :: rest) : splitAt mark (c :: rest) = consPart c (splitAt mark rest) := by
  rw [splitAt, splitAfter, if_neg fun hmarked => h (List.isPrefixOf_iff_prefix.1 hmarked)]
  rfl

theorem splitAt_of_unmarked {mark text : List Char} (h : ¬ mark <:+: text) :
    splitAt mark text = [text] := by
  induction text with
  | nil => rfl
  | cons c text ih =>
      rw [splitAt_cons fun hmarked => h hmarked.isInfix,
        ih fun hwithin => h (hwithin.trans (List.suffix_cons c text).isInfix)]
      rfl

theorem splitAt_of_firstAt {mark part rest : List Char} (hmark : mark ≠ [])
    (h : FirstAt mark part (part ++ mark ++ rest)) :
    splitAt mark (part ++ mark ++ rest) = part :: splitAt mark rest := by
  induction part with
  | nil => exact splitAt_mark_append hmark rest
  | cons c part ih =>
      have hmarked : ¬ mark <+: c :: (part ++ mark ++ rest) := by
        rintro ⟨back, hback⟩
        have := h [] back (by simpa using hback.symm)
        simp at this
      have hlater : FirstAt mark part (part ++ mark ++ rest) := fun front back heq => by
        have := h (c :: front) back (by simp [heq])
        simpa using this
      rw [List.cons_append, List.cons_append, splitAt_cons hmarked, ih hlater]
      rfl

theorem exists_firstAt {mark text : List Char} (h : mark <:+: text) :
    ∃ part rest, text = part ++ mark ++ rest ∧ FirstAt mark part text := by
  induction text with
  | nil =>
      obtain rfl : mark = [] := List.infix_nil.1 h
      exact ⟨[], [], rfl, fun _ _ _ => Nat.zero_le _⟩
  | cons c text ih =>
      by_cases hmarked : mark <+: c :: text
      · obtain ⟨rest, hrest⟩ := hmarked
        exact ⟨[], rest, by simp [hrest], fun _ _ _ => Nat.zero_le _⟩
      · obtain hnow | hlater := List.infix_cons_iff.1 h
        · exact absurd hnow hmarked
        · obtain ⟨part, rest, htext, hfirst⟩ := ih hlater
          refine ⟨c :: part, rest, by simp [htext], ?_⟩
          intro front back heq
          cases front with
          | nil => exact absurd ⟨back, by simpa using heq.symm⟩ hmarked
          | cons d front =>
              obtain ⟨-, heq⟩ := List.cons.inj heq
              exact Nat.succ_le_succ (hfirst front back heq)

theorem cuts_splitAt {mark : List Char} (hmark : mark ≠ []) (text : List Char) :
    Cuts mark text (splitAt mark text) := by
  induction hlength : text.length using Nat.strongRecOn generalizing text with
  | ind length ih =>
      by_cases h : mark <:+: text
      · obtain ⟨part, rest, rfl, hfirst⟩ := exists_firstAt h
        rw [splitAt_of_firstAt hmark hfirst]
        have hpos := List.length_pos_iff.2 hmark
        refine .cut hfirst (ih rest.length ?_ rest rfl)
        simp only [List.length_append] at hlength
        omega
      · rw [splitAt_of_unmarked h]
        exact .last h

theorem cuts_iff {mark : List Char} (hmark : mark ≠ []) {text : List Char}
    {parts : List (List Char)} : Cuts mark text parts ↔ splitAt mark text = parts := by
  constructor
  · intro h
    induction h with
    | last h => exact splitAt_of_unmarked h
    | cut hfirst _ ih => rw [splitAt_of_firstAt hmark hfirst, ih]
  · rintro rfl
    exact cuts_splitAt hmark text

theorem occursIn_iff {part whole : List Char} (hpart : part ≠ []) :
    occursIn part whole = true ↔ part <:+: whole := by
  have hempty : part.isEmpty = false := by simpa using hpart
  rw [occursIn, hempty, Bool.false_or, decide_eq_true_iff]
  constructor
  · refine fun h => Decidable.byContradiction fun hnone => ?_
    rw [splitAt_of_unmarked hnone] at h
    exact Nat.lt_irrefl 1 h
  · intro h
    obtain ⟨front, rest, rfl, hfirst⟩ := exists_firstAt h
    have hrest := List.length_pos_iff.2 (splitAt_ne_nil part rest)
    rw [splitAt_of_firstAt hpart hfirst, List.length_cons]
    omega

/-! ## Text before a mark -/

theorem FirstAt.replace {mark part rest : List Char} (h : FirstAt mark part (part ++ mark ++ rest))
    (other : List Char) : FirstAt mark part (part ++ mark ++ other) := by
  intro front back hback
  apply Nat.le_of_not_lt
  intro hshort
  have hmarked : front ++ mark <+: part ++ mark ++ other := ⟨back, hback.symm⟩
  have hfront : front ++ mark <+: part ++ mark := by
    apply List.prefix_of_prefix_length_le hmarked (List.prefix_append _ _)
    simp only [List.length_append]
    omega
  obtain ⟨between, hbetween⟩ := hfront
  have hlength := h front (between ++ rest) (by simp [← hbetween])
  omega

/-- No end of the mark is a beginning of it, so that its occurrences do not overlap. -/
def IsUnbordered (mark : List Char) : Prop :=
  ∀ border, border <:+ mark → border <+: mark → border = [] ∨ border = mark

theorem IsUnbordered.firstAt {mark part : List Char} (hmark : IsUnbordered mark)
    (hpart : ¬ mark <:+: part) (rest : List Char) : FirstAt mark part (part ++ mark ++ rest) := by
  intro front back hback
  apply Nat.le_of_not_lt
  intro hshort
  have hbefore : front <+: part ++ mark ++ rest := ⟨mark ++ back, by simp [hback]⟩
  have hfirst : part <+: part ++ mark ++ rest := ⟨mark ++ rest, by simp⟩
  obtain ⟨between, rfl⟩ : front <+: part :=
    List.prefix_of_prefix_length_le hbefore hfirst (Nat.le_of_lt hshort)
  have hne : between ≠ [] := by
    rintro rfl
    simp at hshort
  have hoverlap : between ++ (mark ++ rest) = mark ++ back := by simpa using hback
  rcases List.append_eq_append_iff.1 hoverlap with ⟨border, hborder, hrest⟩ | ⟨extra, hextra, -⟩
  · have hover : border <+: mark ++ rest := ⟨back, hrest.symm⟩
    have hbegins : border <+: mark := by
      apply List.prefix_of_prefix_length_le hover (List.prefix_append _ _)
      simp [hborder]
    rcases hmark border ⟨between, hborder.symm⟩ hbegins with rfl | rfl
    · exact hpart ⟨front, [], by simp [hborder]⟩
    · exact hne (by simpa using hborder)
  · exact hpart ⟨front, extra, by simp [hextra]⟩

theorem splitAt_append_mark_append {mark : List Char} (hne : mark ≠ []) (hmark : IsUnbordered mark)
    (text rest : List Char) :
    splitAt mark (text ++ mark ++ rest) = splitAt mark text ++ splitAt mark rest := by
  have hcuts := cuts_splitAt hne text
  generalize splitAt mark text = parts at hcuts
  induction hcuts with
  | last hnone => exact splitAt_of_firstAt hne (hmark.firstAt hnone rest)
  | @cut part inner parts hfirst _ ih =>
      have hwhole : part ++ mark ++ inner ++ mark ++ rest =
          part ++ mark ++ (inner ++ mark ++ rest) := by simp
      rw [hwhole, splitAt_of_firstAt hne (hfirst.replace _), ih, List.cons_append]

theorem infix_of_mem_splitAt {mark text part : List Char} (hne : mark ≠ [])
    (h : part ∈ splitAt mark text) : part <:+: text := by
  have hcuts := cuts_splitAt hne text
  generalize splitAt mark text = parts at hcuts h
  induction hcuts with
  | last =>
      obtain rfl := List.mem_singleton.1 h
      exact List.infix_rfl
  | @cut first rest parts _ _ ih =>
      rcases List.mem_cons.1 h with rfl | h
      · exact ⟨[], mark ++ rest, by simp⟩
      · exact (ih h).trans (List.suffix_append _ _).isInfix

end FileSelection.Text
