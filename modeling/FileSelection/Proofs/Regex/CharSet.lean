import FileSelection.Proofs.Text.Case
import FileSelection.Regex.CharSet

/-!
# Sets of one character

A set of one character is compared as it is, or by lower-case forms if its character is cased.
-/

namespace FileSelection.Regex

open FileSelection.Text

theorem CharItem.has_single_iff {code : Nat} {c : Char} :
    (CharItem.single code).has c = true ↔ c.toNat = code := by
  simp only [CharItem.single, CharItem.has, Bool.and_eq_true, decide_eq_true_eq]
  omega

namespace CharSet

theorem has_ofChar_inverse (alphabet : Alphabet) (ignoreCase : Bool) (code : Nat) (c : Char) :
    (ofChar alphabet ignoreCase true code).has c =
      !(ofChar alphabet ignoreCase false code).has c := by
  unfold ofChar
  split <;> simp [has]

theorem has_ofChar_uncased {alphabet : Alphabet} {ignoreCase : Bool} {code : Nat} {c : Char}
    (h : (ignoreCase && alphabet.isCased code) = false) :
    (ofChar alphabet ignoreCase false code).has c = true ↔ c.toNat = code := by
  simp [ofChar, h, has, CharItem.has_single_iff]

theorem has_ofChar_cased {alphabet : Alphabet} {code : Nat} {c : Char}
    (h : alphabet.isCased code = true) :
    (ofChar alphabet true false code).has c = true ↔
      (alphabet.lowerChar c).toNat ∈ alphabet.equals (alphabet.lower code) := by
  simp [ofChar, h, has, CharItem.has_single_iff]

theorem has_ofChar_self (ignoreCase : Bool) (c : Char) :
    (ofChar .unicode ignoreCase false c.toNat).has c = true := by
  cases hcased : ignoreCase && Alphabet.unicode.isCased c.toNat with
  | true =>
      obtain ⟨hignore, hcased⟩ := Bool.and_eq_true_iff.1 hcased
      have hequals : Alphabet.unicode.equals (Alphabet.unicode.lower c.toNat) =
          lowerCode c.toNat :: twins (lowerCode c.toNat) := rfl
      rw [hignore, has_ofChar_cased hcased, hequals, toNat_lowerChar_eq_lowerCode]
      apply List.mem_cons_self
  | false => exact (has_ofChar_uncased hcased).2 rfl

theorem has_ofChar_ascii {token c : Char} (htoken : token.toNat < 128) (hc : c.toNat < 128) :
    (ofChar .unicode true false token.toNat).has c = true ↔
      Alphabet.unicode.lowerChar token = Alphabet.unicode.lowerChar c := by
  have hlower := toNat_lowerChar hc
  rw [← Char.toNat_inj, toNat_lowerChar htoken]
  cases hcased : Alphabet.unicode.isCased token.toNat with
  | true =>
      have hequals : Alphabet.unicode.equals (Alphabet.unicode.lower token.toNat) =
          lowerCode token.toNat :: twins (lowerCode token.toNat) := rfl
      have hcode := lowerCode_ascii htoken
      rw [has_ofChar_cased hcased, hequals, List.mem_cons, ← hcode, eq_comm]
      refine or_iff_left fun htwin => ?_
      have := le_of_mem_twins (by rw [hcode]; split <;> omega) htwin
      split at hlower <;> omega
  | false =>
      rw [has_ofChar_uncased (by simpa using hcased), hlower]
      rw [Alphabet.isCased, isCased_ascii htoken] at hcased
      simp only [Bool.or_eq_false_iff, Bool.and_eq_false_iff, decide_eq_false_iff_not] at hcased
      split <;> split <;> omega

end CharSet

end FileSelection.Regex
