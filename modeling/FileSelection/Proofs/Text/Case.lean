import FileSelection.Keyed
import FileSelection.Regex.Alphabet

/-!
# Lower case

The lower-case form of a character is the code of a character again.  On ASCII both notions of
equality up to case compare lower-case letters.
-/

namespace FileSelection.Text

open FileSelection.Regex

/-! ## Codes of characters -/

theorem applyShifts_eq_or (table : Array Shift) (code : Nat) :
    applyShifts table code = code ∨ ∃ shift ∈ table, shift.target ≤ applyShifts table code ∧
      applyShifts table code ≤ shift.last - shift.first + shift.target := by
  unfold applyShifts entryFor
  cases hentry : table[halve Shift.last table code 32 0 table.size]? with
  | none => exact .inl rfl
  | some shift =>
      simp only [Option.bind_some, Shift.image?]
      split
      · refine .inr ⟨shift, Array.mem_of_getElem? hentry, ?_⟩
        simp only [Option.getD_some]
        omega
      · exact .inl rfl

theorem bounds_of_mem_lowerRuns : ∀ shift ∈ lowerRuns, 65 ≤ shift.target ∧
    (shift.last - shift.first + shift.target < 0xD800 ∨
      0xDFFF < shift.target ∧ shift.last - shift.first + shift.target < 0x110000) := by
  have hall : lowerRuns.toList.all (fun shift => 65 ≤ shift.target ∧
      (shift.last - shift.first + shift.target < 0xD800 ∨
        0xDFFF < shift.target ∧ shift.last - shift.first + shift.target < 0x110000)) = true := by
    decide +kernel
  intro shift hshift
  exact of_decide_eq_true (List.all_eq_true.1 hall shift (Array.mem_toList_iff.2 hshift))

theorem isValidChar_applyShifts {table : Array Shift}
    (htable : ∀ shift ∈ table, shift.last - shift.first + shift.target < 0xD800 ∨
      0xDFFF < shift.target ∧ shift.last - shift.first + shift.target < 0x110000)
    {code : Nat} (h : code.isValidChar) : (applyShifts table code).isValidChar := by
  rcases applyShifts_eq_or table code with heq | ⟨shift, hshift, hleast, hmost⟩
  · rwa [heq]
  · have hrange := htable shift hshift
    simp only [Nat.isValidChar]
    omega

theorem isValidChar_lowerCode {code : Nat} (h : code.isValidChar) :
    (lowerCode code).isValidChar := by
  unfold lowerCode
  split
  · simp only [Nat.isValidChar]
    split <;> omega
  · refine isValidChar_applyShifts (fun shift hshift => ?_) h
    exact (bounds_of_mem_lowerRuns shift hshift).2

theorem toNat_ofNat {code : Nat} (h : code.isValidChar) : (Char.ofNat code).toNat = code := by
  unfold Char.ofNat
  rw [dif_pos h]
  rfl

theorem toNat_lowerChar_eq_lowerCode (c : Char) :
    (Alphabet.unicode.lowerChar c).toNat = lowerCode c.toNat :=
  toNat_ofNat (isValidChar_lowerCode c.valid)

/-! ## ASCII -/

theorem forall_ascii {P : Char → Prop} (h : ∀ code < 128, P (Char.ofNat code)) {c : Char}
    (hc : c.toNat < 128) : P c := by
  simpa using h c.toNat hc

theorem lowerCode_ascii {code : Nat} (h : code < 128) :
    lowerCode code = if 65 ≤ code ∧ code ≤ 90 then code + 32 else code := by
  rw [lowerCode, if_pos h]

theorem isCased_ascii {code : Nat} (h : code < 128) :
    isCased code = (65 ≤ code && code ≤ 90 || 97 ≤ code && code ≤ 122) := by
  have hall : ∀ code < 128,
      isCased code = (65 ≤ code && code ≤ 90 || 97 ≤ code && code ≤ 122) := by
    decide +kernel
  exact hall code h

theorem bounds_of_mem_twins {code twin : Nat} (h : twin ∈ twins code) :
    65 ≤ twin ∧ (code < 128 → 128 ≤ twin) := by
  have htable : ∀ entry ∈ lowerTwins, ∀ twin ∈ entry.2,
      65 ≤ twin ∧ (entry.1 < 128 → 128 ≤ twin) := by decide +kernel
  unfold twins at h
  cases hlookup : lowerTwins.lookup code with
  | none => simp [hlookup] at h
  | some found =>
      rw [hlookup] at h
      exact htable _ (Keyed.mem_of_lookup hlookup) twin h

theorem le_of_mem_twins {code twin : Nat} (h : code < 128) (htwin : twin ∈ twins code) :
    128 ≤ twin :=
  (bounds_of_mem_twins htwin).2 h

theorem toNat_lowerChar {c : Char} (h : c.toNat < 128) :
    (Alphabet.unicode.lowerChar c).toNat =
      if 65 ≤ c.toNat ∧ c.toNat ≤ 90 then c.toNat + 32 else c.toNat :=
  (toNat_lowerChar_eq_lowerCode c).trans (lowerCode_ascii h)

theorem caseFold_ascii {text : List Char} (h : ∀ c ∈ text, c.toNat < 128) :
    caseFold text = text.map Alphabet.unicode.lowerChar := by
  induction text with
  | nil => rfl
  | cons c text ih =>
      have hfold : foldChar c = [Alphabet.unicode.lowerChar c] :=
        forall_ascii (P := fun c => foldChar c = [Alphabet.unicode.lowerChar c])
          (by decide +kernel) (h c (by simp))
      rw [List.map_cons, ← ih fun d hd => h d (List.mem_cons_of_mem _ hd), caseFold,
        List.flatMap_cons, hfold]
      rfl

/-! ## Marks below the letters -/

theorem lowerCode_eq_of_lt {code : Nat} (h : lowerCode code < 65) : lowerCode code = code := by
  by_cases hascii : code < 128
  · have hlower := lowerCode_ascii hascii
    split at hlower <;> omega
  · rw [lowerCode, if_neg hascii] at h ⊢
    rcases applyShifts_eq_or lowerRuns code with heq | ⟨shift, hshift, hleast, -⟩
    · exact heq
    · have htarget := (bounds_of_mem_lowerRuns shift hshift).1
      omega

theorem letter_of_mem_twins {code twin : Nat} (h : twin ∈ twins code) : 65 ≤ twin :=
  (bounds_of_mem_twins h).1

/-! ## Other case of ASCII letters -/

theorem toNat_toLower (c : Char) :
    c.toLower.toNat = if 65 ≤ c.toNat ∧ c.toNat ≤ 90 then c.toNat + 32 else c.toNat := by
  have hupper : c.val ≥ 'A'.val ∧ c.val ≤ 'Z'.val ↔ 65 ≤ c.toNat ∧ c.toNat ≤ 90 := by
    simp [UInt32.le_iff_toNat_le, ← Char.toNat_val]
  unfold Char.toLower
  split
  · have hrange := hupper.1 ‹_›
    rw [if_pos hrange, ← Char.toNat_val]
    simp only [UInt32.toNat_add]
    simp
    omega
  · rw [if_neg (mt hupper.2 ‹_›)]

theorem toList_toLower (text : String) : text.toLower.toList = text.toList.map Char.toLower :=
  String.toList_map

theorem lowerCode_toLower (c : Char) : lowerCode c.toLower.toNat = lowerCode c.toNat := by
  rw [toNat_toLower]
  split
  · rw [lowerCode_ascii (by omega), lowerCode_ascii (by omega), if_neg (by omega), if_pos ‹_›]
  · rfl

theorem isCased_toLower (c : Char) : isCased c.toLower.toNat = isCased c.toNat := by
  rw [toNat_toLower]
  split
  · rw [isCased_ascii (by omega), isCased_ascii (by omega), Bool.eq_iff_iff]
    simp only [Bool.or_eq_true, Bool.and_eq_true, decide_eq_true_eq]
    omega
  · rfl

theorem toLower_of_uncased {c : Char} (h : isCased c.toNat = false) : c.toLower = c := by
  rw [← Char.toNat_inj, toNat_toLower]
  split
  · rw [isCased_ascii (by omega)] at h
    simp only [Bool.or_eq_false_iff, Bool.and_eq_false_iff, decide_eq_false_iff_not] at h
    omega
  · rfl

end FileSelection.Text
