import FileSelection.Proofs.Text.Split

/-!
# Segments

A text is cut at its slashes into segments and joined again from them.
-/

namespace FileSelection.Text

def joined (segments : List (List Char)) : List Char := ['/'].intercalate segments

@[simp]
theorem joined_nil : joined [] = [] := rfl

@[simp]
theorem joined_singleton (segment : List Char) : joined [segment] = segment := by
  simp [joined, List.intercalate]

theorem joined_cons (segment : List Char) {segments : List (List Char)} (h : segments ≠ []) :
    joined (segment :: segments) = segment ++ '/' :: joined segments := by
  cases segments with
  | nil => exact absurd rfl h
  | cons next segments => simp [joined, List.intercalate_cons_cons]

theorem joined_append {front back : List (List Char)} (hfront : front ≠ []) (hback : back ≠ []) :
    joined (front ++ back) = joined front ++ '/' :: joined back := by
  induction front with
  | nil => exact absurd rfl hfront
  | cons segment front ih =>
      rw [List.cons_append, joined_cons segment (by simp [hback])]
      cases front with
      | nil => simp
      | cons next front => rw [ih (by simp), joined_cons segment (by simp)]; simp

theorem slash_mem_joined {segment next : List Char} {segments : List (List Char)} :
    '/' ∈ joined (segment :: next :: segments) := by
  simp [joined_cons]

theorem mem_joined {c : Char} {segment : List Char} {segments : List (List Char)}
    (hsegment : segment ∈ segments) (hc : c ∈ segment) : c ∈ joined segments := by
  induction segments with
  | nil => cases hsegment
  | cons first segments ih =>
      cases segments with
      | nil =>
          obtain rfl : segment = first := by simpa using hsegment
          simpa using hc
      | cons next segments =>
          rw [joined_cons first (by simp)]
          obtain rfl | hsegment := List.mem_cons.1 hsegment
          · simp [hc]
          · simp [ih hsegment]

theorem exists_mem_of_mem_joined {c : Char} (hc : c ≠ '/') {segments : List (List Char)}
    (h : c ∈ joined segments) : ∃ segment ∈ segments, c ∈ segment := by
  induction segments with
  | nil => cases h
  | cons first segments ih =>
      by_cases hrest : segments = []
      · subst hrest
        exact ⟨first, by simp, by simpa using h⟩
      · rw [joined_cons first hrest, List.mem_append, List.mem_cons] at h
        obtain h | h | h := h
        · exact ⟨first, by simp, h⟩
        · exact absurd h hc
        · obtain ⟨segment, hsegment, hmem⟩ := ih h
          exact ⟨segment, by simp [hsegment], hmem⟩

theorem joined_eq_append_slash_iff {segments : List (List Char)}
    (hsegments : ∀ segment ∈ segments, '/' ∉ segment) {front back : List Char} :
    joined segments = front ++ '/' :: back ↔
      ∃ before after, before ≠ [] ∧ after ≠ [] ∧ segments = before ++ after ∧
        joined before = front ∧ joined after = back := by
  constructor
  · intro h
    induction segments generalizing front with
    | nil => simp at h
    | cons segment segments ih =>
        have hfree := hsegments segment (by simp)
        cases segments with
        | nil =>
            rw [joined_singleton] at h
            exact absurd (by simp [h]) hfree
        | cons next segments =>
            rw [joined_cons segment (by simp)] at h
            obtain ⟨extra, hextra, hrest⟩ | ⟨extra, hextra, hrest⟩ := List.append_eq_append_iff.1 h
            · cases extra with
              | nil =>
                  obtain ⟨-, hback⟩ := List.cons.inj hrest
                  refine ⟨[segment], next :: segments, by simp, by simp, rfl, ?_, hback⟩
                  simp [hextra]
              | cons c extra =>
                  obtain ⟨rfl, htail⟩ := List.cons.inj hrest
                  obtain ⟨before, after, hbefore, hafter, hparts, hjoined, hback⟩ :=
                    ih (fun s hs => hsegments s (List.mem_cons_of_mem _ hs)) htail
                  refine ⟨segment :: before, after, by simp, hafter, by simp [hparts], ?_, hback⟩
                  rw [joined_cons segment hbefore, hjoined, hextra]
            · cases extra with
              | nil =>
                  obtain ⟨-, hback⟩ := List.cons.inj hrest
                  refine ⟨[segment], next :: segments, by simp, by simp, rfl, ?_, hback.symm⟩
                  simpa using hextra
              | cons c extra =>
                  obtain ⟨rfl, -⟩ := List.cons.inj hrest
                  exact absurd (by simp [hextra]) hfree
  · rintro ⟨before, after, hbefore, hafter, rfl, rfl, rfl⟩
    exact joined_append hbefore hafter

theorem joined_ne_nil {segments : List (List Char)} (hne : segments ≠ [])
    (hsegments : ∀ segment ∈ segments, segment ≠ []) : joined segments ≠ [] := by
  cases segments with
  | nil => exact absurd rfl hne
  | cons segment segments =>
      cases segments with
      | nil => simpa using hsegments
      | cons next segments => exact List.ne_nil_of_mem slash_mem_joined

theorem eq_singleton_of_slash_not_mem {segments : List (List Char)} (hne : segments ≠ [])
    (h : '/' ∉ joined segments) : segments = [joined segments] := by
  cases segments with
  | nil => exact absurd rfl hne
  | cons segment segments =>
      cases segments with
      | nil => simp
      | cons next segments => exact absurd slash_mem_joined h

theorem suffix_last_of_suffix_joined {front : List (List Char)} {last word : List Char}
    (hword : '/' ∉ word) (h : word <:+ joined (front ++ [last])) : word <:+ last := by
  cases front with
  | nil => simpa using h
  | cons segment front =>
      rw [joined_append (by simp) (by simp), joined_singleton] at h
      have hlast : '/' :: last <:+ joined (segment :: front) ++ '/' :: last :=
        List.suffix_append _ _
      by_cases hlength : word.length ≤ last.length
      · exact List.suffix_of_suffix_length_le h ((List.suffix_cons _ _).trans hlast) hlength
      · have := List.suffix_of_suffix_length_le hlast h (by simp only [List.length_cons]; omega)
        exact absurd (this.subset (by simp)) hword

/-! ## Splitting at slashes -/

theorem joined_splitAt (text : List Char) : joined (splitAt ['/'] text) = text := by
  have hcuts : Cuts ['/'] text (splitAt ['/'] text) := cuts_splitAt (by decide) text
  generalize splitAt ['/'] text = segments at hcuts
  induction hcuts with
  | last => simp
  | cut hfirst hcuts ih =>
      rw [joined_cons _ (by rintro rfl; cases hcuts), ih]
      simp

theorem slash_not_mem_of_mem_splitAt {text segment : List Char} (h : segment ∈ splitAt ['/'] text) :
    '/' ∉ segment := by
  have hcuts : Cuts ['/'] text (splitAt ['/'] text) := cuts_splitAt (by decide) text
  generalize splitAt ['/'] text = segments at hcuts h
  induction hcuts with
  | last hnone =>
      obtain rfl := List.mem_singleton.1 h
      rintro hslash
      obtain ⟨front, back, rfl⟩ := List.append_of_mem hslash
      exact hnone ⟨front, back, by simp⟩
  | @cut part rest parts hfirst _ ih =>
      obtain rfl | h := List.mem_cons.1 h
      · intro hslash
        obtain ⟨front, back, rfl⟩ := List.append_of_mem hslash
        have := hfirst front (back ++ ['/'] ++ rest) (by simp)
        simp only [List.length_append, List.length_cons] at this
        omega
      · exact ih h

theorem firstAt_slash {part : List Char} (hpart : '/' ∉ part) (rest : List Char) :
    FirstAt ['/'] part (part ++ ['/'] ++ rest) := by
  intro front back h
  by_cases hlength : part.length ≤ front.length
  · exact hlength
  · have hmarked : front ++ ['/'] <+: part ++ ['/'] ++ rest := ⟨back, h.symm⟩
    have hpart' : part <+: part ++ ['/'] ++ rest := ⟨['/'] ++ rest, by simp⟩
    have hwithin := List.prefix_of_prefix_length_le hmarked hpart' (by
      simp only [List.length_append, List.length_singleton]
      omega)
    exact absurd (hwithin.subset (by simp)) hpart

theorem splitAt_of_slash_not_mem {text : List Char} (h : '/' ∉ text) :
    splitAt ['/'] text = [text] :=
  splitAt_of_unmarked fun hwithin => h (hwithin.subset (by simp))

theorem splitAt_slash {part : List Char} (hpart : '/' ∉ part) (rest : List Char) :
    splitAt ['/'] (part ++ '/' :: rest) = part :: splitAt ['/'] rest := by
  simpa using splitAt_of_firstAt (by simp) (firstAt_slash hpart rest)

theorem length_splitAt_slash (text : List Char) :
    (splitAt ['/'] text).length = text.count '/' + 1 := by
  induction text with
  | nil => rfl
  | cons c text ih =>
      by_cases hslash : c = '/'
      · subst hslash
        have hsplit : splitAt ['/'] ('/' :: text) = [] :: splitAt ['/'] text :=
          splitAt_mark_append (by simp) text
        simp [hsplit, ih]
      · have hmark : ¬ ['/'] <+: c :: text := by simpa [eq_comm] using hslash
        rw [splitAt_cons hmark, List.count_cons_of_ne hslash, ← ih]
        cases hsplit : splitAt ['/'] text with
        | nil => exact absurd hsplit (splitAt_ne_nil _ _)
        | cons part parts => rfl

theorem splitAt_joined {segments : List (List Char)} (hne : segments ≠ [])
    (hsegments : ∀ segment ∈ segments, '/' ∉ segment) :
    splitAt ['/'] (joined segments) = segments := by
  induction segments with
  | nil => exact absurd rfl hne
  | cons segment segments ih =>
      have hsegment := hsegments segment (by simp)
      cases segments with
      | nil =>
          rw [joined_singleton]
          exact splitAt_of_slash_not_mem hsegment
      | cons next segments =>
          rw [joined_cons segment (by simp), splitAt_slash hsegment,
            ih (by simp) fun s hs => hsegments s (List.mem_cons_of_mem _ hs)]

end FileSelection.Text
