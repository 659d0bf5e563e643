import FileSelection.Text.Pieces
import Mathlib.Data.List.Basic

/-!
# Pieces between cuts

The pieces of a text are its longest parts without a character that cuts.  They are strung in the
text one after the other, with gaps of cutting characters around them, and every text is strung in
exactly one way (`tokens_eq_iff`).  The patterns in one text are its pieces between delimiters.
-/

namespace FileSelection.Text

def tokens (cut : Char → Bool) (text : List Char) : List (List Char) :=
  (splitWhere cut text).filter fun part => !part.isEmpty

structure IsPiece (cut : Char → Bool) (piece : List Char) : Prop where
  nonempty : piece ≠ []
  uncut : ∀ c ∈ piece, cut c = false

def IsGap (cut : Char → Bool) (gap : List Char) : Prop := ∀ c ∈ gap, cut c = true

/-- Pieces in the order in which a text has them.  There are gaps around them, and between two
pieces there is a gap that is not empty. -/
inductive Strung (cut : Char → Bool) : List (List Char) → List Char → Prop
  | gap {gap : List Char} : IsGap cut gap → Strung cut [] gap
  | piece {gap piece rest : List Char} {pieces : List (List Char)} :
      IsGap cut gap → IsPiece cut piece → (∀ c ∈ rest.head?, cut c = true) →
        Strung cut pieces rest → Strung cut (piece :: pieces) (gap ++ (piece ++ rest))

/-- A piece between two texts that cannot be made longer at either end. -/
structure IsMaximal (cut : Char → Bool) (front piece back : List Char) : Prop
    extends IsPiece cut piece where
  before : ∀ c ∈ front.getLast?, cut c = true
  after : ∀ c ∈ back.head?, cut c = true

variable {cut : Char → Bool} {front back text piece gap : List Char}
  {pieces before after : List (List Char)}

/-! ## Cutting -/

theorem splitWhere_ne_nil (cut : Char → Bool) (text : List Char) : splitWhere cut text ≠ [] := by
  cases text with
  | nil => simp [splitWhere]
  | cons c text =>
      unfold splitWhere
      split
      · simp
      · unfold consPart
        split <;> simp

theorem consPart_append {parts : List (List Char)} (h : parts ≠ []) (c : Char)
    (more : List (List Char)) : consPart c (parts ++ more) = consPart c parts ++ more := by
  cases parts with
  | nil => exact absurd rfl h
  | cons part parts => rfl

theorem splitWhere_append_cons {c : Char} (hc : cut c = true) (front back : List Char) :
    splitWhere cut (front ++ c :: back) = splitWhere cut front ++ splitWhere cut back := by
  induction front with
  | nil => simp [splitWhere, hc]
  | cons d front ih =>
      rw [List.cons_append, splitWhere, splitWhere, ih]
      split
      · rfl
      · exact consPart_append (splitWhere_ne_nil cut front) d _

theorem splitWhere_of_uncut (h : ∀ c ∈ text, cut c = false) : splitWhere cut text = [text] := by
  induction text with
  | nil => rfl
  | cons c text ih =>
      have hc : ¬ cut c = true := by simp [h c]
      rw [splitWhere, if_neg hc, ih fun d hd => h d (List.mem_cons_of_mem c hd)]
      rfl

theorem tokens_append_cons {c : Char} (hc : cut c = true) (front back : List Char) :
    tokens cut (front ++ c :: back) = tokens cut front ++ tokens cut back := by
  rw [tokens, splitWhere_append_cons hc, List.filter_append]
  rfl

@[simp]
theorem tokens_nil : tokens cut [] = [] := rfl

@[simp]
theorem tokens_cons {c : Char} (hc : cut c = true) (text : List Char) :
    tokens cut (c :: text) = tokens cut text := tokens_append_cons hc [] text

theorem tokens_append_of_head (h : ∀ c ∈ back.head?, cut c = true) (front : List Char) :
    tokens cut (front ++ back) = tokens cut front ++ tokens cut back := by
  cases back with
  | nil => simp
  | cons c back =>
      have hc : cut c = true := h c rfl
      rw [tokens_append_cons hc, tokens_cons hc]

theorem tokens_append_of_last (h : ∀ c ∈ front.getLast?, cut c = true) (back : List Char) :
    tokens cut (front ++ back) = tokens cut front ++ tokens cut back := by
  obtain rfl | ⟨front, c, rfl⟩ := List.eq_nil_or_concat front
  · rfl
  · have hc : cut c = true := h c (by simp)
    rw [List.concat_eq_append, List.append_assoc, List.singleton_append, tokens_append_cons hc,
      tokens_append_cons hc, tokens_nil, List.append_nil]

theorem IsPiece.tokens_eq (h : IsPiece cut piece) : tokens cut piece = [piece] := by
  have hpiece : piece.isEmpty = false := by simpa using h.nonempty
  simp [tokens, splitWhere_of_uncut h.uncut, hpiece]

theorem IsGap.tokens_eq_nil (h : IsGap cut gap) : tokens cut gap = [] := by
  induction gap with
  | nil => rfl
  | cons c gap ih =>
      rw [tokens_cons (h c List.mem_cons_self)]
      exact ih fun d hd => h d (List.mem_cons_of_mem c hd)

theorem IsGap.getLast? (h : IsGap cut gap) : ∀ c ∈ gap.getLast?, cut c = true :=
  fun c hc => h c (List.mem_of_getLast? hc)

theorem IsMaximal.tokens_eq (h : IsMaximal cut front piece back) :
    tokens cut (front ++ (piece ++ back)) = tokens cut front ++ piece :: tokens cut back := by
  rw [tokens_append_of_last h.before, tokens_append_of_head h.after, h.toIsPiece.tokens_eq]
  rfl

/-! ## One way to be strung -/

theorem Strung.tokens_eq (h : Strung cut pieces text) : tokens cut text = pieces := by
  induction h with
  | gap hgap => exact hgap.tokens_eq_nil
  | @piece gap piece rest pieces hgap hpiece hrest _ ih =>
      have hmaximal : IsMaximal cut gap piece rest := ⟨hpiece, hgap.getLast?, hrest⟩
      rw [hmaximal.tokens_eq, hgap.tokens_eq_nil, ih, List.nil_append]

theorem Strung.cons_cut {c : Char} (hc : cut c = true) (h : Strung cut pieces text) :
    Strung cut pieces (c :: text) := by
  obtain hgap | ⟨hgap, hpiece, hhead, hrest⟩ := h
  · exact .gap (List.forall_mem_cons.2 ⟨hc, hgap⟩)
  · exact .piece (List.forall_mem_cons.2 ⟨hc, hgap⟩) hpiece hhead hrest

theorem Strung.exists_cons_uncut {c : Char} (hc : cut c = false) (h : Strung cut pieces text) :
    ∃ pieces, Strung cut pieces (c :: text) := by
  have hnone : IsGap cut [] := nofun
  by_cases hhead : ∀ d ∈ text.head?, cut d = true
  · have hsingle : IsPiece cut [c] := ⟨by simp, by simpa using hc⟩
    exact ⟨_, .piece hnone hsingle hhead h⟩
  · obtain hgap | @⟨gap, piece, rest, pieces, hgap, hpiece, hafter, hrest⟩ := h
    · exact absurd (fun d hd => hgap d (List.mem_of_mem_head? hd)) hhead
    · cases gap with
      | nil =>
          have hlonger : IsPiece cut (c :: piece) :=
            ⟨by simp, List.forall_mem_cons.2 ⟨hc, hpiece.uncut⟩⟩
          exact ⟨_, .piece hnone hlonger hafter hrest⟩
      | cons d gap =>
          refine absurd (fun e he => ?_) hhead
          obtain rfl : d = e := by simpa using he
          exact hgap d List.mem_cons_self

theorem exists_strung (cut : Char → Bool) (text : List Char) :
    ∃ pieces, Strung cut pieces text := by
  induction text with
  | nil => exact ⟨[], .gap nofun⟩
  | cons c text ih =>
      obtain ⟨pieces, hpieces⟩ := ih
      cases hc : cut c with
      | true => exact ⟨pieces, hpieces.cons_cut hc⟩
      | false => exact hpieces.exists_cons_uncut hc

theorem tokens_eq_iff : tokens cut text = pieces ↔ Strung cut pieces text := by
  refine ⟨?_, Strung.tokens_eq⟩
  rintro rfl
  obtain ⟨pieces, hpieces⟩ := exists_strung cut text
  rwa [hpieces.tokens_eq]

theorem strung_nil_iff : Strung cut [] text ↔ IsGap cut text := by
  constructor
  · rintro ⟨hgap⟩
    exact hgap
  · exact .gap

theorem Strung.not_isGap (h : Strung cut pieces text) (hne : pieces ≠ []) : ¬ IsGap cut text := by
  intro hgap
  exact hne (h.tokens_eq.symm.trans hgap.tokens_eq_nil)

theorem Strung.isPiece (h : Strung cut pieces text) : ∀ piece ∈ pieces, IsPiece cut piece := by
  induction h with
  | gap => simp
  | piece _ hpiece _ _ ih => exact List.forall_mem_cons.2 ⟨hpiece, ih⟩

/-! ## Maximal pieces -/

theorem Strung.exists_isMaximal (h : Strung cut (before ++ piece :: after) text) :
    ∃ front back, text = front ++ (piece ++ back) ∧ IsMaximal cut front piece back ∧
      Strung cut before front ∧ Strung cut after back := by
  induction before generalizing text with
  | nil =>
      obtain _ | @⟨gap, _, rest, _, hgap, hpiece, hhead, hrest⟩ := h
      exact ⟨gap, rest, rfl, ⟨hpiece, hgap.getLast?, hhead⟩, .gap hgap, hrest⟩
  | cons first before ih =>
      obtain _ | @⟨gap, _, rest, _, hgap, hfirst, hhead, hrest⟩ := h
      obtain ⟨front, back, rfl, hmaximal, hbefore, hafter⟩ := ih hrest
      have hfront : front ≠ [] := by
        rintro rfl
        obtain ⟨c, tail, htail⟩ := List.exists_cons_of_ne_nil hmaximal.nonempty
        have hcut := hhead c (by simp [htail])
        rw [hmaximal.uncut c (by simp [htail])] at hcut
        cases hcut
      refine ⟨gap ++ (first ++ front), back, by simp, ⟨hmaximal.toIsPiece, ?_, hmaximal.after⟩,
        .piece hgap hfirst ?_ hbefore, hafter⟩
      · rw [← List.append_assoc, List.getLast?_append_of_ne_nil _ hfront]
        exact hmaximal.before
      · intro c hc
        exact hhead c (by rwa [List.head?_append_of_ne_nil _ hfront])

theorem tokens_eq_append_cons_iff :
    tokens cut text = before ++ piece :: after ↔
      ∃ front back, text = front ++ (piece ++ back) ∧ IsMaximal cut front piece back ∧
        tokens cut front = before ∧ tokens cut back = after := by
  constructor
  · intro h
    obtain ⟨front, back, htext, hmaximal, hbefore, hafter⟩ := (tokens_eq_iff.1 h).exists_isMaximal
    exact ⟨front, back, htext, hmaximal, hbefore.tokens_eq, hafter.tokens_eq⟩
  · rintro ⟨front, back, rfl, hmaximal, rfl, rfl⟩
    exact hmaximal.tokens_eq

/-! ## Joining -/

theorem strung_intercalate {c : Char} (hc : cut c = true)
    (h : ∀ piece ∈ pieces, IsPiece cut piece) : Strung cut pieces ([c].intercalate pieces) := by
  have hnone : IsGap cut [] := nofun
  induction pieces with
  | nil => exact .gap hnone
  | cons piece pieces ih =>
      obtain ⟨hpiece, hlater⟩ := List.forall_mem_cons.1 h
      cases pieces with
      | nil =>
          have hend := Strung.piece hnone hpiece (by simp) (.gap hnone)
          simpa [List.intercalate] using hend
      | cons next pieces =>
          have hrest : Strung cut (next :: pieces) (c :: [c].intercalate (next :: pieces)) :=
            tokens_eq_iff.1 ((tokens_cons hc _).trans (ih hlater).tokens_eq)
          have hend := Strung.piece hnone hpiece (by simpa using hc) hrest
          simpa [List.intercalate_cons_cons] using hend

inductive OccurIn : List (List Char) → List Char → Prop
  | none {text : List Char} : OccurIn [] text
  | next {front part back : List Char} {parts : List (List Char)} :
      OccurIn parts back → OccurIn (part :: parts) (front ++ (part ++ back))

theorem Strung.occurIn (h : Strung cut pieces text) : OccurIn pieces text := by
  induction h with
  | gap => exact .none
  | piece _ _ _ _ ih => exact .next ih

/-! ## Patterns -/

theorem patternsOf_of_strung {found : List String} {text : String} (hne : found ≠ [])
    (h : Strung isDelimiter (found.map String.toList) text.toList) : patternsOf text = found := by
  have hpieces : pieces text.toList = found.map String.toList := by
    have htokens := h.tokens_eq
    unfold tokens at htokens
    unfold Text.pieces
    rw [htokens]
    split
    · rename_i hnone
      exact absurd (List.map_eq_nil_iff.1 hnone) hne
    · rfl
  rw [patternsOf, hpieces, List.map_map]
  simp [Function.comp_def]

theorem patternsOf_of_isGap {text : String} (h : IsGap isDelimiter text.toList) :
    patternsOf text = [""] := by
  have htokens := h.tokens_eq_nil
  unfold tokens at htokens
  unfold patternsOf Text.pieces
  rw [htokens]
  rfl

theorem exists_strung_or_isGap (text : String) :
    (∃ found : List String, found ≠ [] ∧
      Strung isDelimiter (found.map String.toList) text.toList) ∨
        IsGap isDelimiter text.toList := by
  obtain ⟨pieces, hpieces⟩ := exists_strung isDelimiter text.toList
  by_cases hne : pieces = []
  · subst hne
    exact .inr (strung_nil_iff.1 hpieces)
  · refine .inl ⟨pieces.map String.ofList, by simpa using hne, ?_⟩
    rw [List.map_map]
    simpa [Function.comp_def] using hpieces

theorem patternsOf_join {pieces : List String}
    (h : ∀ piece ∈ pieces, IsPiece isDelimiter piece.toList) (hne : pieces ≠ []) :
    patternsOf (" ".intercalate pieces) = pieces := by
  refine patternsOf_of_strung hne ?_
  rw [String.toList_intercalate]
  exact strung_intercalate (by decide) (by simpa using h)

/-- When patterns are strung in a text, with blanks and commas between them and perhaps around them,
they are read back.  Any other text holds nothing but blanks and commas, and it is read as one empty
pattern.  So there always is a pattern, the patterns occur in the text in their order, and when they
are joined by single blanks the same patterns are read again. -/
theorem patterns_are_read_between_delimiters :
    (∀ (found : List String) (text : String), found ≠ [] →
      Strung isDelimiter (found.map String.toList) text.toList → patternsOf text = found) ∧
    ∀ text : String,
      ((¬ ∃ found : List String, found ≠ [] ∧
          Strung isDelimiter (found.map String.toList) text.toList) ↔
        IsGap isDelimiter text.toList) ∧
      (IsGap isDelimiter text.toList → patternsOf text = [""]) ∧
      patternsOf text ≠ [] ∧
      OccurIn ((patternsOf text).map String.toList) text.toList ∧
      patternsOf (" ".intercalate (patternsOf text)) = patternsOf text := by
  refine ⟨fun found text => patternsOf_of_strung, fun text => ?_⟩
  obtain ⟨found, hne, hstrung⟩ | hgap := exists_strung_or_isGap text
  · have hpieces : ∀ piece ∈ found, IsPiece isDelimiter piece.toList := by
      simpa using hstrung.isPiece
    have hmore : ¬ IsGap isDelimiter text.toList := hstrung.not_isGap (by simpa using hne)
    rw [patternsOf_of_strung hne hstrung]
    refine ⟨⟨fun hnone => ?_, fun hgap => absurd hgap hmore⟩, fun hgap => absurd hgap hmore, hne,
      hstrung.occurIn, patternsOf_join hpieces hne⟩
    exact absurd ⟨found, hne, hstrung⟩ hnone
  · have hnone : ¬ ∃ found : List String, found ≠ [] ∧
        Strung isDelimiter (found.map String.toList) text.toList := by
      rintro ⟨found, hne, hstrung⟩
      exact hstrung.not_isGap (by simpa using hne) hgap
    have hoccurs : OccurIn [[]] text.toList := @OccurIn.next [] [] text.toList [] .none
    have hjoined : patternsOf (" ".intercalate [""]) = [""] := by
      rw [String.intercalate_singleton]
      exact patternsOf_of_isGap nofun
    rw [patternsOf_of_isGap hgap]
    exact ⟨⟨fun _ => hgap, fun _ => hnone⟩, fun _ => rfl, by simp, hoccurs, hjoined⟩

theorem two_patterns_between_blanks_and_commas :
    Strung isDelimiter (["a*", "b"].map String.toList) "\u2003,a*, \u0085b,,".toList ∧
      patternsOf "\u2003,a*, \u0085b,," = ["a*", "b"] ∧ patternsOf " ,\n" = [""] := by
  obtain ⟨hread, hother⟩ := patterns_are_read_between_delimiters
  have hstrung : Strung isDelimiter (["a*", "b"].map String.toList)
      "\u2003,a*, \u0085b,,".toList := tokens_eq_iff.1 (by decide)
  obtain ⟨-, hempty, -⟩ := hother " ,\n"
  exact ⟨hstrung, hread _ _ (by decide) hstrung, hempty (List.all_eq_true.1 (by decide))⟩

end FileSelection.Text
