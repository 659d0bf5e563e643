import FileSelection.Regex.Parser

/-!
# Reading piece by piece

A text that is read in the middle of an alternative adds parts to the alternative and leaves the
rest of the text to be read.  Pieces that do so can be put together, repeated and grouped.
-/

namespace FileSelection.Regex

structure Known.Calm (known : Known) (opened : Nat) : Prop where
  opened_eq : known.opened = opened
  settled_eq : known.settled = none
  tested_eq : known.tested = []
  alphabets_eq : known.alphabets = []
  plain_eq : known.plain = false
  meaningless_eq : known.meaningless = false

theorem Known.Calm.afterQuantifier {known : Known} {opened : Nat} (h : known.Calm opened) :
    Known.Calm { known with meaningless := known.meaningless || known.plain } opened :=
  ⟨h.opened_eq, h.settled_eq, h.tested_eq, h.alphabets_eq, h.plain_eq, by
    simp [h.meaningless_eq, h.plain_eq]⟩

def Detached (text : List Char) : Prop := ∀ c ∈ text.head?, c ≠ '?' ∧ c ≠ '+'

theorem detached_cons {c : Char} {text : List Char} (hmark : c ≠ '?') (hplus : c ≠ '+') :
    Detached (c :: text) := by
  rintro d ⟨⟩
  exact ⟨hmark, hplus⟩

theorem Detached.append {first second : List Char} (hfirst : Detached first)
    (hsecond : Detached second) : Detached (first ++ second) := by
  cases first with
  | nil => exact hsecond
  | cons c first => exact hfirst

/-- The text is read in one step as one item. -/
def IsItem (mode : Mode) (text : List Char) (item : Item) : Prop :=
  ∀ (fuel : Nat) (first : Bool) (known : Known) (before : List Item) (rest : List Char),
    sequence (fuel + 1) first mode known before (text ++ rest) =
      sequence fuel first mode known (item :: before) rest

/-- Reading the text adds parts to an alternative, and opens groups beyond those before it. -/
structure Reads (mode : Mode) (opened after : Nat) (text : List Char) (parts : List Part) :
    Prop where
  detached : Detached text
  goes_on : ∀ known : Known, known.Calm opened → ∃ (known' : Known) (items : List Item),
    known'.Calm after ∧ items.flatMap Item.parts = parts ∧
      ∀ (fuel : Nat) (first : Bool) (before : List Item) (rest : List Char),
        text.length ≤ fuel → Detached rest → ∃ fuel', fuel ≤ fuel' + text.length ∧
          sequence fuel first mode known before (text ++ rest) =
            sequence fuel' first mode known' (items.reverse ++ before) rest

namespace Reads

variable {mode : Mode} {opened middle after : Nat} {text : List Char} {parts : List Part}

theorem nil : Reads mode opened opened [] [] where
  detached := by simp [Detached]
  goes_on known hknown := ⟨known, [], hknown, rfl, fun fuel _ _ _ _ _ => ⟨fuel, by simp, rfl⟩⟩

theorem append {text' : List Char} {parts' : List Part} (h : Reads mode opened middle text parts)
    (h' : Reads mode middle after text' parts') :
    Reads mode opened after (text ++ text') (parts ++ parts') where
  detached := h.detached.append h'.detached
  goes_on known hknown := by
    obtain ⟨known₁, items₁, hknown₁, hitems₁, hread₁⟩ := h.goes_on known hknown
    obtain ⟨known₂, items₂, hknown₂, hitems₂, hread₂⟩ := h'.goes_on known₁ hknown₁
    refine ⟨known₂, items₁ ++ items₂, hknown₂, by simp [hitems₁, hitems₂], ?_⟩
    intro fuel first before rest hfuel hrest
    rw [List.length_append] at hfuel
    obtain ⟨fuel₁, hfuel₁, heq₁⟩ := hread₁ fuel first before (text' ++ rest) (by omega)
      (h'.detached.append hrest)
    obtain ⟨fuel₂, hfuel₂, heq₂⟩ := hread₂ fuel₁ first (items₁.reverse ++ before) rest (by omega)
      hrest
    refine ⟨fuel₂, by rw [List.length_append]; omega, ?_⟩
    rw [List.append_assoc, heq₁, heq₂, List.reverse_append, List.append_assoc]

theorem of_isItem {c : Char} {item : Item} (hmark : c ≠ '?') (hplus : c ≠ '+')
    (h : IsItem mode (c :: text) item) : Reads mode opened opened (c :: text) item.parts where
  detached := detached_cons hmark hplus
  goes_on known hknown := by
    refine ⟨known, [item], hknown, by simp, ?_⟩
    intro fuel first before rest hfuel _
    rw [List.length_cons] at hfuel
    obtain ⟨fuel, rfl⟩ := Nat.exists_eq_add_of_le' (Nat.le_of_add_left_le hfuel)
    exact ⟨fuel, by rw [List.length_cons]; omega, h fuel first known before rest⟩

end Reads

/-! ## Single steps -/

section

variable {mode : Mode} (hverbose : mode.verbose = false)

include hverbose

theorem isItem_mark {c : Char} {item : Item}
    (h : c = '.' ∧ item = .single .any ∨ c = '^' ∧ item = ⟨[.anchor .lineStart], .anchor⟩ ∨
      c = '$' ∧ item = ⟨[.anchor .lineEnd], .anchor⟩) : IsItem mode [c] item := by
  intro fuel first known before rest
  obtain ⟨rfl, rfl⟩ | ⟨rfl, rfl⟩ | ⟨rfl, rfl⟩ := h
  all_goals
    rw [List.singleton_append, sequence]
    simp [hverbose, quantifier?]
    rfl

theorem isItem_any : IsItem mode ['.'] (.single .any) :=
  isItem_mark hverbose (.inl ⟨rfl, rfl⟩)

theorem isItem_set {part : Part} {text : List Char}
    (h : ∀ rest, set? (text ++ rest) = some (part, rest)) :
    IsItem mode ('[' :: text) (.single part) := by
  intro fuel first known before rest
  rw [List.cons_append, sequence]
  simp [hverbose, quantifier?, h, need]
  rfl

variable (fuel : Nat) (first : Bool) (known : Known) (before : List Item) (rest : List Char)

theorem sequence_quantifier {mark : List Char} {most : Option Nat} {reluctant : Bool} {item : Item}
    (hmark : mark = ['*'] ∧ most = none ∧ reluctant = false ∨
      mark = ['?'] ∧ most = some 1 ∧ reluctant = false ∨
      mark = ['*', '?'] ∧ most = none ∧ reluctant = true)
    (hrole : item.role = .other) (hrest : Detached rest) :
    sequence (fuel + 1) first mode known (item :: before) (mark ++ rest) =
      sequence fuel first mode { known with meaningless := known.meaningless || known.plain }
        (⟨[.other (repeated (mode.parts item.parts) ⟨0, most, reluctant⟩)], .repetition⟩ :: before)
        rest := by
  obtain ⟨rfl, rfl, rfl⟩ | ⟨rfl, rfl, rfl⟩ | ⟨rfl, rfl, rfl⟩ := hmark
  all_goals
    rw [List.cons_append, sequence]
    · cases rest with
      | nil => simp [hverbose, quantifier?, repeatable?, hrole, need, bind, Except.bind]
      | cons c rest =>
          obtain ⟨hoptional, hplus⟩ := hrest c rfl
          simp [hverbose, quantifier?, repeatable?, hrole, need, bind, Except.bind, hoptional,
            hplus]
    all_goals simp

end

theorem sequence_close (mode : Mode) (fuel : Nat) (first : Bool) (known : Known)
    (before : List Item) (rest : List Char) :
    sequence (fuel + 1) first mode known before (')' :: rest) =
      .ok ⟨before.reverse.flatMap Item.parts, mode, known, ')' :: rest⟩ := by
  rw [sequence]
  rfl

theorem opening_capture (mode : Mode) (known : Known) {rest : List Char} (hrest : Detached rest) :
    opening mode known rest =
      .ok (.group (.capture (known.opened + 1)) mode, { known with opened := known.opened + 1 },
        rest) := by
  cases rest with
  | nil => rfl
  | cons c rest =>
      obtain ⟨hmark, -⟩ := hrest c rfl
      unfold opening
      split <;> simp_all
      rfl

theorem sequence_group {mode : Mode} (hverbose : mode.verbose = false) (fuel : Nat) (first : Bool)
    (known : Known) (before : List Item) {inner rest : List Char} (hinner : Detached inner)
    {body : Parsed (List (List Part))}
    (hbody : alternatives fuel false false mode { known with opened := known.opened + 1 } inner =
      .ok body) (hrest : body.rest = ')' :: rest) :
    sequence (fuel + 1) first mode known before ('(' :: inner) =
      let (item, after) :=
        (GroupKind.capture (known.opened + 1)).close mode body.known (mode.join body.value)
      sequence fuel first mode { after with settled := known.settled } (item :: before) rest := by
  rw [sequence]
  simp [hverbose, quantifier?, opening_capture mode known hinner, hbody, hrest, bind, Except.bind]

/-! ## Pieces -/

namespace Reads

variable {mode : Mode} {opened after : Nat} {text : List Char} {parts : List Part}

section

variable (hverbose : mode.verbose = false)

include hverbose

theorem lineStart : Reads mode opened opened ['^'] [.anchor .lineStart] :=
  of_isItem (by decide) (by decide) (isItem_mark hverbose (.inr (.inl ⟨rfl, rfl⟩)))

theorem lineEnd : Reads mode opened opened ['$'] [.anchor .lineEnd] :=
  of_isItem (by decide) (by decide) (isItem_mark hverbose (.inr (.inr ⟨rfl, rfl⟩)))

theorem any : Reads mode opened opened ['.'] [.any] :=
  of_isItem (by decide) (by decide) (isItem_any hverbose)

omit hverbose in
theorem quantified {c : Char} {part : Part} {text mark : List Char} {times : Repeat}
    (hmark : c ≠ '?') (hplus : c ≠ '+') (hlength : 0 < mark.length)
    (hpiece : IsItem mode (c :: text) (.single part))
    (hquantifier : ∀ (fuel : Nat) (first : Bool) (known : Known) (before : List Item)
      (rest : List Char), Detached rest →
        sequence (fuel + 1) first mode known (.single part :: before) (mark ++ rest) =
          sequence fuel first mode { known with meaningless := known.meaningless || known.plain }
            (⟨[.other (repeated (mode.part part) times)], .repetition⟩ :: before) rest) :
    Reads mode opened opened (c :: text ++ mark)
      [.other (repeated (mode.part part) times)] where
  detached := detached_cons hmark hplus
  goes_on known hknown := by
    refine ⟨_, [⟨[.other (repeated (mode.part part) times)], .repetition⟩],
      hknown.afterQuantifier, rfl, ?_⟩
    intro fuel first before rest hfuel hrest
    simp only [List.length_append, List.length_cons] at hfuel ⊢
    obtain ⟨fuel, rfl⟩ := Nat.exists_eq_add_of_le' (show 2 ≤ fuel by omega)
    refine ⟨fuel, by omega, ?_⟩
    rw [List.append_assoc, hpiece]
    exact hquantifier fuel first known before rest hrest

theorem starred {c : Char} {part : Part} (hmark : c ≠ '?') (hplus : c ≠ '+')
    (hpiece : IsItem mode (c :: text) (.single part)) :
    Reads mode opened opened (c :: text ++ ['*'])
      [.other (repeated (mode.part part) ⟨0, none, false⟩)] := by
  refine quantified hmark hplus (by simp) hpiece ?_
  intro fuel first known before rest hrest
  exact sequence_quantifier hverbose fuel first known before rest (.inl ⟨rfl, rfl, rfl⟩) rfl hrest

theorem starredReluctant {c : Char} {part : Part} (hmark : c ≠ '?') (hplus : c ≠ '+')
    (hpiece : IsItem mode (c :: text) (.single part)) :
    Reads mode opened opened (c :: text ++ ['*', '?'])
      [.other (repeated (mode.part part) ⟨0, none, true⟩)] := by
  refine quantified hmark hplus (by simp) hpiece ?_
  intro fuel first known before rest hrest
  exact sequence_quantifier hverbose fuel first known before rest (.inr (.inr ⟨rfl, rfl, rfl⟩)) rfl
    hrest

theorem optionalGroup (h : Reads mode (opened + 1) after text parts) :
    Reads mode opened after ('(' :: text ++ [')', '?'])
      [.other (.rounds (.group (opened + 1) (mode.parts parts)) ⟨0, some 1, false⟩)] where
  detached := detached_cons (by decide) (by decide)
  goes_on known hknown := by
    obtain ⟨inside, items, hinside, hitems, hread⟩ :=
      h.goes_on { known with opened := known.opened + 1 }
        ⟨by simp [hknown.opened_eq], hknown.settled_eq, hknown.tested_eq, hknown.alphabets_eq,
          hknown.plain_eq, hknown.meaningless_eq⟩
    let regex := Regex.group (opened + 1) (mode.parts parts)
    let closed : Known := {
      inside with
      complete := (opened + 1, (mode.parts parts).extent inside.extentOf) :: inside.complete
      settled := known.settled }
    have hclosed : closed.Calm after :=
      ⟨hinside.opened_eq, hknown.settled_eq, hinside.tested_eq, hinside.alphabets_eq,
        hinside.plain_eq, hinside.meaningless_eq⟩
    refine ⟨_, [⟨[.other (repeated regex ⟨0, some 1, false⟩)], .repetition⟩],
      hclosed.afterQuantifier, rfl, ?_⟩
    intro fuel first before rest hfuel hrest
    simp only [List.length_append, List.length_cons, List.length_nil] at hfuel ⊢
    obtain ⟨fuel, rfl⟩ := Nat.exists_eq_add_of_le' (show 3 ≤ fuel by omega)
    refine ⟨fuel + 1, by omega, ?_⟩
    obtain ⟨left, hleft, heq⟩ := hread (fuel + 1) false [] (')' :: '?' :: rest) (by omega)
      (detached_cons (by decide) (by decide))
    obtain ⟨left, rfl⟩ := Nat.exists_eq_add_of_le' (show 1 ≤ left by omega)
    have hbody : alternatives (fuel + 2) false false mode
        { known with opened := known.opened + 1 } (text ++ ')' :: '?' :: rest) =
        .ok ⟨[parts], mode, inside, ')' :: '?' :: rest⟩ := by
      rw [alternatives, Bool.false_and, heq, sequence_close]
      simp [bind, Except.bind, hitems]
      rfl
    rw [List.append_assoc]
    refine (sequence_group hverbose (fuel + 2) first known before
      (h.detached.append (detached_cons (by decide) (by decide))) hbody rfl).trans ?_
    rw [hknown.opened_eq]
    exact sequence_quantifier hverbose (fuel + 1) first closed before rest
      (.inr (.inl ⟨rfl, rfl, rfl⟩)) rfl hrest

end

/-! ## Whole texts -/

theorem parse? (h : Reads mode 0 after text parts) :
    Regex.parse? mode text = .ok (mode.parts parts) := by
  obtain ⟨known, items, hknown, hitems, hread⟩ :=
    h.goes_on {} ⟨rfl, rfl, rfl, rfl, rfl, rfl⟩
  obtain ⟨left, hleft, heq⟩ :=
    hread (2 * text.length + 1) true [] [] (by omega) (by simp [Detached])
  obtain ⟨left, rfl⟩ := Nat.exists_eq_add_of_le' (show 1 ≤ left by omega)
  rw [List.append_nil] at heq
  have hread : alternatives (2 * text.length + 2) true true mode {} text =
      .ok ⟨[parts], mode, known, []⟩ := by
    rw [alternatives, Bool.and_self, heq, sequence]
    simp [bind, Except.bind, hitems]
    rfl
  unfold Regex.parse?
  simp [hread, bind, Except.bind, hknown.alphabets_eq, hknown.meaningless_eq, hknown.tested_eq,
    Mode.join]
  rfl

end Reads

end FileSelection.Regex
