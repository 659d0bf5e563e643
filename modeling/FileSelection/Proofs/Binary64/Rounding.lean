import FileSelection.Binary64.Basic
import Mathlib.Algebra.Order.Round
import Mathlib.Data.Rat.Floor
import Mathlib.Tactic.FieldSimp
import Mathlib.Tactic.Linarith
import Mathlib.Tactic.Positivity
import Mathlib.Tactic.Ring

/-!
# Rounding to the nearest number

Numbers are compared by their units.  A quotient that is not too large is rounded to a number that
lies as near to it as any other one (`isNearest_ofQuotient`).  Hence rounding keeps the order,
numbers stay as they are, and the error is at most half of the spacing.
-/

namespace FileSelection.Binary64

/-- The units that 53 significant bits can express, whatever their size. -/
def IsNumber (units : ℤ) : Prop :=
  ∃ significand : ℤ, ∃ power : ℕ, |significand| ≤ 2 ^ 53 ∧ units = significand * 2 ^ power

structure IsNearest (x : ℚ) (units : ℤ) : Prop where
  isNumber : IsNumber units
  le : ∀ other, IsNumber other → |x - units| ≤ |x - other|

variable {x y : ℚ} {u v : ℤ} {n d : ℕ}

/-! ## Nearest numbers -/

theorem IsNumber.neg (h : IsNumber u) : IsNumber (-u) := by
  obtain ⟨significand, power, hsize, rfl⟩ := h
  exact ⟨-significand, power, by rwa [abs_neg], (neg_mul _ _).symm⟩

theorem isNumber_mul_two_pow (power : ℕ) (h : |u| ≤ 2 ^ 53) : IsNumber (u * 2 ^ power) :=
  ⟨u, power, h, rfl⟩

theorem IsNearest.neg (h : IsNearest x u) : IsNearest (-x) (-u) := by
  refine ⟨h.isNumber.neg, fun other hother => ?_⟩
  have hle := h.le (-other) hother.neg
  push_cast at hle ⊢
  rw [← abs_neg (-x - -(u : ℚ)), ← abs_neg (-x - other)]
  ring_nf at hle ⊢
  exact hle

theorem IsNearest.mono (hx : IsNearest x u) (hy : IsNearest y v) (h : x < y) : u ≤ v := by
  by_contra hlt
  have huv : (v : ℚ) < u := by exact_mod_cast not_le.1 hlt
  have hnearx := sq_le_sq.2 (hx.le v hy.isNumber)
  have hneary := sq_le_sq.2 (hy.le u hx.isNumber)
  nlinarith [mul_pos (sub_pos.2 huv) (sub_pos.2 h)]

theorem IsNearest.eq_of_isNumber (hu : IsNearest v u) (hv : IsNumber v) : u = v := by
  have hle := hu.le v hv
  rw [sub_self, abs_zero] at hle
  have hzero := abs_nonpos_iff.1 hle
  exact_mod_cast (sub_eq_zero.1 hzero).symm

theorem IsNumber.isNearest (h : IsNumber v) : IsNearest v v := by
  refine ⟨h, fun other _ => ?_⟩
  rw [sub_self, abs_zero]
  exact abs_nonneg _

theorem IsNearest.le_of_le (hu : IsNearest x u) (hv : IsNumber v) (h : x ≤ v) : u ≤ v := by
  obtain rfl | hlt := h.eq_or_lt
  · exact (hu.eq_of_isNumber hv).le
  · exact hu.mono hv.isNearest hlt

theorem IsNearest.ge_of_ge (hu : IsNearest x u) (hv : IsNumber v) (h : v ≤ x) : v ≤ u := by
  obtain heq | hlt := h.eq_or_lt
  · rw [← heq] at hu
    exact (hu.eq_of_isNumber hv).ge
  · exact hv.isNearest.mono hu hlt

theorem IsNearest.error_le (hu : IsNearest x u) {k : ℕ} (h : |x| ≤ 2 ^ (53 + k)) :
    |x - u| ≤ 2 ^ k / 2 := by
  have hk : (0 : ℚ) < 2 ^ k := by positivity
  have hround := abs_sub_round (x / 2 ^ k)
  have hsize : |round (x / 2 ^ k)| ≤ 2 ^ 53 := by
    have hquotient : |x / 2 ^ k| ≤ 2 ^ 53 := by
      rw [abs_div, abs_of_pos hk, div_le_iff₀ hk, ← pow_add]
      exact h
    have hclose : |(round (x / 2 ^ k) : ℚ)| < 2 ^ 53 + 1 := by
      have := abs_sub_abs_le_abs_sub (round (x / 2 ^ k) : ℚ) (x / 2 ^ k)
      rw [abs_sub_comm] at this
      linarith
    exact Int.lt_add_one_iff.1 (by exact_mod_cast hclose)
  have hle := hu.le _ (isNumber_mul_two_pow k hsize)
  have hmultiple : |x - (round (x / 2 ^ k) * 2 ^ k : ℤ)| =
      |x / 2 ^ k - round (x / 2 ^ k)| * 2 ^ k := by
    rw [← abs_of_pos hk, ← abs_mul, abs_of_pos hk, sub_mul, div_mul_cancel₀ _ hk.ne']
    push_cast
    rfl
  rw [hmultiple] at hle
  nlinarith

/-! ## Rounding a quotient -/

theorem roundQuotient_cases (n d : ℕ) :
    (roundQuotient n d = n / d ∧ 2 * (n % d) ≤ d) ∨
      (roundQuotient n d = n / d + 1 ∧ d ≤ 2 * (n % d)) := by
  unfold roundQuotient
  dsimp only
  split
  · exact .inl ⟨rfl, by omega⟩
  · split
    · exact .inr ⟨rfl, by omega⟩
    · have htie : 2 * (n % d) = d := by omega
      obtain heven | hodd := Nat.mod_two_eq_zero_or_one (n / d)
      · exact .inl ⟨by rw [heven, add_zero], htie.le⟩
      · exact .inr ⟨by rw [hodd], htie.ge⟩

theorem abs_sub_roundQuotient_le (hd : 0 < d) : |(n / d : ℚ) - roundQuotient n d| ≤ 1 / 2 := by
  have hpos : (0 : ℚ) < d := by exact_mod_cast hd
  have hsplit : (d * (n / d : ℕ) + (n % d : ℕ) : ℚ) = n := by exact_mod_cast Nat.div_add_mod n d
  have hquotient : (n / d : ℚ) = (n / d : ℕ) + (n % d : ℕ) / d := by
    rw [← hsplit]
    field_simp
  have hrest : (0 : ℚ) ≤ (n % d : ℕ) / d := by positivity
  have hsmall : ((n % d : ℕ) : ℚ) / d < 1 := by
    rw [div_lt_one hpos]
    exact_mod_cast Nat.mod_lt n hd
  rw [hquotient, abs_le]
  obtain ⟨hround, hhalf⟩ | ⟨hround, hhalf⟩ := roundQuotient_cases n d
  · have hhalf : ((n % d : ℕ) : ℚ) / d ≤ 1 / 2 := by
      rw [div_le_div_iff₀ hpos two_pos]
      exact_mod_cast (by omega : n % d * 2 ≤ 1 * d)
    rw [hround]
    constructor <;> linarith
  · have hhalf : (1 / 2 : ℚ) ≤ ((n % d : ℕ) : ℚ) / d := by
      rw [div_le_div_iff₀ two_pos hpos]
      exact_mod_cast (by omega : 1 * d ≤ n % d * 2)
    rw [hround]
    push_cast
    constructor <;> linarith

theorem abs_sub_roundQuotient_le_abs_sub (hd : 0 < d) (other : ℤ) :
    |(n / d : ℚ) - roundQuotient n d| ≤ |(n / d : ℚ) - other| := by
  have hhalf := abs_sub_roundQuotient_le (n := n) hd
  by_cases hsame : other = (roundQuotient n d : ℤ)
  · subst hsame
    exact le_of_eq (by push_cast; rfl)
  · have hone : (1 : ℚ) ≤ |(roundQuotient n d : ℚ) - other| := by
      have := Int.one_le_abs (sub_ne_zero.2 (Ne.symm hsame))
      exact_mod_cast this
    have htriangle := abs_sub_le (roundQuotient n d : ℚ) (n / d) other
    rw [abs_sub_comm (roundQuotient n d : ℚ) (n / d)] at htriangle
    linarith

/-! ## The exponent -/

theorem cast_two_pow (k : ℕ) : ((Nat.pow 2 k : ℕ) : ℚ) = 2 ^ k := Nat.cast_pow 2 k

theorem cast_pow_toNat (e : ℤ) :
    ((Nat.pow 2 e.toNat : ℕ) : ℚ) = 2 ^ e * (Nat.pow 2 (-e).toNat : ℕ) := by
  rw [cast_two_pow, cast_two_pow, ← zpow_natCast, ← zpow_natCast, ← zpow_add₀ two_ne_zero]
  congr 1
  omega

theorem scaled_quotient_eq (n d : ℕ) (e : ℤ) :
    ((n * Nat.pow 2 (-e).toNat : ℕ) : ℚ) / (d * Nat.pow 2 e.toNat : ℕ) = n / d / 2 ^ e := by
  have hpow : (0 : ℚ) < (Nat.pow 2 (-e).toNat : ℕ) := Nat.cast_pos.2 (Nat.two_pow_pos _)
  have htwo : (0 : ℚ) < 2 ^ e := zpow_pos two_pos e
  rw [Nat.cast_mul, Nat.cast_mul, cast_pow_toNat e]
  field_simp

theorem two_zpow_log2_le (hn : 0 < n) : (2 : ℚ) ^ (n.log2 : ℤ) ≤ n := by
  rw [zpow_natCast]
  exact_mod_cast Nat.log2_self_le hn.ne'

theorem lt_two_zpow_log2 (n : ℕ) : (n : ℚ) < 2 ^ (n.log2 + 1 : ℤ) := by
  have := Nat.lt_log2_self (n := n)
  rw [← Nat.cast_succ, zpow_natCast]
  exact_mod_cast this

theorem two_zpow_lt_quotient (hn : 0 < n) (hd : 0 < d) :
    (2 : ℚ) ^ ((n.log2 : ℤ) - d.log2 - 1) < n / d := by
  have hpos : (0 : ℚ) < d := Nat.cast_pos.2 hd
  rw [lt_div_iff₀ hpos]
  calc (2 : ℚ) ^ ((n.log2 : ℤ) - d.log2 - 1) * d
      < 2 ^ ((n.log2 : ℤ) - d.log2 - 1) * 2 ^ (d.log2 + 1 : ℤ) :=
        mul_lt_mul_of_pos_left (lt_two_zpow_log2 d) (zpow_pos two_pos _)
    _ = 2 ^ (n.log2 : ℤ) := by
        rw [← zpow_add₀ two_ne_zero]
        congr 1
        omega
    _ ≤ n := two_zpow_log2_le hn

theorem quotient_lt_two_zpow (hd : 0 < d) : (n / d : ℚ) < 2 ^ ((n.log2 : ℤ) - d.log2 + 1) := by
  have hpos : (0 : ℚ) < d := Nat.cast_pos.2 hd
  rw [div_lt_iff₀ hpos]
  calc (n : ℚ) < 2 ^ (n.log2 + 1 : ℤ) := lt_two_zpow_log2 n
    _ = 2 ^ ((n.log2 : ℤ) - d.log2 + 1) * 2 ^ (d.log2 : ℤ) := by
        rw [← zpow_add₀ two_ne_zero]
        congr 1
        omega
    _ ≤ 2 ^ ((n.log2 : ℤ) - d.log2 + 1) * d :=
        mul_le_mul_of_nonneg_left (two_zpow_log2_le hd) (zpow_pos two_pos _).le

theorem fits_iff (hd : 0 < d) (e : ℤ) :
    Nat.pow 2 52 * (d * Nat.pow 2 e.toNat) ≤ n * Nat.pow 2 (-e).toNat ↔
      (2 : ℚ) ^ (e + 52) ≤ n / d := by
  have hpos : (0 : ℚ) < (d * Nat.pow 2 e.toNat : ℕ) :=
    Nat.cast_pos.2 (Nat.mul_pos hd (Nat.two_pow_pos _))
  have htwo : (0 : ℚ) < 2 ^ e := zpow_pos two_pos e
  rw [add_comm, zpow_add₀ two_ne_zero, ← le_div_iff₀ htwo, ← scaled_quotient_eq, le_div_iff₀ hpos,
    ← @Nat.cast_le ℚ, Nat.cast_mul]
  rfl

theorem exponentOf_eq_max (hn : 0 < n) (hd : 0 < d) :
    ∃ e, exponentOf n d = max e leastExponent ∧ (2 : ℚ) ^ (e + 52) ≤ n / d ∧
      (n / d : ℚ) < 2 ^ (e + 53) := by
  generalize hguess : (n.log2 : ℤ) - d.log2 - 52 = guess
  have hlow := two_zpow_lt_quotient hn hd
  have hhigh := quotient_lt_two_zpow (n := n) hd
  rw [show (n.log2 : ℤ) - d.log2 - 1 = guess - 1 + 52 by omega] at hlow
  rw [show (n.log2 : ℤ) - d.log2 + 1 = guess + 53 by omega] at hhigh
  unfold exponentOf
  rw [hguess]
  dsimp only
  by_cases hfits : Nat.pow 2 52 * (d * Nat.pow 2 guess.toNat) ≤ n * Nat.pow 2 (-guess).toNat
  · exact ⟨guess, by rw [if_pos hfits], (fits_iff hd guess).1 hfits, hhigh⟩
  · refine ⟨guess - 1, by rw [if_neg hfits], hlow.le, ?_⟩
    rw [fits_iff hd, not_le] at hfits
    rwa [show guess - 1 + 53 = guess + 52 by omega]

theorem exponentOf_spec (hn : 0 < n) (hd : 0 < d) :
    leastExponent ≤ exponentOf n d ∧ (n / d : ℚ) < 2 ^ (exponentOf n d + 53) ∧
      (exponentOf n d = leastExponent ∨ (2 : ℚ) ^ (exponentOf n d + 52) ≤ n / d) := by
  obtain ⟨e, he, hlow, hhigh⟩ := exponentOf_eq_max hn hd
  rw [he]
  refine ⟨le_max_right _ _, hhigh.trans_le ?_, ?_⟩
  · exact zpow_le_zpow_right₀ one_le_two (by omega)
  · obtain hmax | hmax := max_choice e leastExponent
    · rw [hmax]
      exact .inr hlow
    · exact .inl hmax

/-! ## Rounding -/

theorem abs_sub_scaledQuotient_le_abs_sub (hd : 0 < d) (e other : ℤ) :
    |(n / d / 2 ^ e : ℚ) - scaledQuotient n d e| ≤ |(n / d / 2 ^ e : ℚ) - other| := by
  rw [← scaled_quotient_eq]
  exact abs_sub_roundQuotient_le_abs_sub (Nat.mul_pos hd (Nat.two_pow_pos _)) other

theorem scaledQuotient_le (hn : 0 < n) (hd : 0 < d) :
    scaledQuotient n d (exponentOf n d) ≤ 2 ^ 53 := by
  obtain ⟨-, hhigh, -⟩ := exponentOf_spec hn hd
  have hscaled : (n / d / 2 ^ exponentOf n d : ℚ) < 2 ^ 53 := by
    rw [div_lt_iff₀ (zpow_pos two_pos _), ← zpow_natCast, ← zpow_add₀ two_ne_zero, add_comm]
    exact hhigh
  have hhalf :
      |(n / d / 2 ^ exponentOf n d : ℚ) - scaledQuotient n d (exponentOf n d)| ≤ 1 / 2 := by
    rw [← scaled_quotient_eq]
    exact abs_sub_roundQuotient_le (Nat.mul_pos hd (Nat.two_pow_pos _))
  have hless : (scaledQuotient n d (exponentOf n d) : ℚ) < 2 ^ 53 + 1 := by
    rw [abs_le] at hhalf
    linarith
  exact Nat.lt_add_one_iff.1 (by exact_mod_cast hless)

theorem units_ofQuotient (hn : 0 < n) (hd : 0 < d) (hsmall : (n / d : ℚ) < 2 ^ (1023 : ℤ)) :
    (ofQuotient false n d).units =
      scaledQuotient n d (exponentOf n d) * 2 ^ (exponentOf n d - leastExponent).toNat := by
  obtain ⟨hleast, -, hlow⟩ := exponentOf_spec hn hd
  have hroom : exponentOf n d + 1 ≤ greatestExponent := by
    obtain hexponent | hlow := hlow
    · rw [hexponent]
      decide
    · have := (zpow_lt_zpow_iff_right₀ one_lt_two).1 (hlow.trans_lt hsmall)
      unfold greatestExponent
      omega
  unfold ofQuotient
  rw [if_neg hn.ne']
  dsimp only
  by_cases hcarry : scaledQuotient n d (exponentOf n d) = Nat.pow 2 53
  · rw [if_pos hcarry, if_neg (by omega), hcarry]
    have hpower : (exponentOf n d + 1 - leastExponent).toNat =
        (exponentOf n d - leastExponent).toNat + 1 := by omega
    show ((2 ^ 52 : ℕ) : ℤ) * (2 ^ (exponentOf n d + 1 - leastExponent).toNat : ℕ) = _
    rw [hpower, pow_succ]
    push_cast
    ring
  · rw [if_neg hcarry, if_neg (by omega)]
    show (_ : ℤ) * (2 ^ _ : ℕ) = _
    push_cast
    rfl

theorem isNearest_zero : IsNearest 0 0 :=
  ⟨⟨0, 0, by decide, rfl⟩, fun other _ => by simp⟩

/-- A multiple of the spacing that is nearest among the multiples is nearest among all numbers,
since the numbers in between lie below `2 ^ 52` times the spacing. -/
theorem isNearest_of_spacing {significand spacing : ℕ} (hsignificand : significand ≤ 2 ^ 53)
    (hlow : spacing = 0 ∨ (2 : ℚ) ^ 52 * 2 ^ spacing ≤ x)
    (hnearest : ∀ other : ℤ, |x - significand * 2 ^ spacing| ≤ |x - other * 2 ^ spacing|) :
    IsNearest x (significand * 2 ^ spacing) := by
  have hnumber : |(significand : ℤ)| ≤ 2 ^ 53 := by
    rw [Nat.abs_cast]
    exact_mod_cast hsignificand
  refine ⟨isNumber_mul_two_pow spacing hnumber, ?_⟩
  rintro _ ⟨other, power, hother, rfl⟩
  push_cast
  obtain hnarrow | hwide := Nat.lt_or_ge power spacing
  · have hbelow : (other * 2 ^ power : ℚ) ≤ 2 ^ 52 * 2 ^ spacing := by
      have hsize : (other : ℚ) ≤ 2 ^ 53 := by exact_mod_cast (le_abs_self other).trans hother
      calc (other * 2 ^ power : ℚ) ≤ 2 ^ 53 * 2 ^ power :=
            mul_le_mul_of_nonneg_right hsize (by positivity)
        _ = 2 ^ 52 * 2 ^ (power + 1) := by ring
        _ ≤ 2 ^ 52 * 2 ^ spacing :=
            mul_le_mul_of_nonneg_left (pow_le_pow_right₀ one_le_two hnarrow) (by positivity)
    have hlow : (2 : ℚ) ^ 52 * 2 ^ spacing ≤ x := hlow.resolve_left (by omega)
    have hleast := hnearest (2 ^ 52)
    rw [Int.cast_pow, Int.cast_ofNat] at hleast
    rw [abs_of_nonneg (sub_nonneg.2 hlow)] at hleast
    rw [abs_of_nonneg (sub_nonneg.2 (hbelow.trans hlow))]
    linarith
  · obtain ⟨more, rfl⟩ := Nat.exists_eq_add_of_le hwide
    have hmultiple : (other * 2 ^ (spacing + more) : ℚ) = (other * 2 ^ more : ℤ) * 2 ^ spacing := by
      push_cast
      ring
    rw [hmultiple]
    exact hnearest _

theorem isNearest_ofQuotient (hd : 0 < d) (hsmall : (n / d : ℚ) < 2 ^ (1023 : ℤ)) :
    IsNearest (n / d * 2 ^ 1074) (ofQuotient false n d).units := by
  obtain rfl | hn := Nat.eq_zero_or_pos n
  · have hzero : (ofQuotient false 0 d).units = 0 := by simp [ofQuotient, units]
    rw [hzero, Nat.cast_zero, zero_div, zero_mul]
    exact isNearest_zero
  obtain ⟨hleast, -, hlow⟩ := exponentOf_spec hn hd
  have hpower : (2 : ℚ) ^ exponentOf n d * 2 ^ 1074 =
      2 ^ (exponentOf n d - leastExponent).toNat := by
    rw [← zpow_natCast, ← zpow_natCast, ← zpow_add₀ two_ne_zero]
    congr 1
    unfold leastExponent at *
    omega
  have hx : (n / d * 2 ^ 1074 : ℚ) =
      n / d / 2 ^ exponentOf n d * 2 ^ (exponentOf n d - leastExponent).toNat := by
    rw [← hpower]
    field_simp
  rw [units_ofQuotient hn hd hsmall, hx]
  refine isNearest_of_spacing (scaledQuotient_le hn hd) (hlow.imp (fun h => ?_) fun h => ?_) ?_
  · rw [h]
    rfl
  · refine mul_le_mul_of_nonneg_right ?_ (by positivity)
    rw [le_div_iff₀ (zpow_pos two_pos _), ← zpow_natCast, ← zpow_add₀ two_ne_zero, add_comm]
    exact h
  · intro other
    rw [← sub_mul, ← sub_mul, abs_mul, abs_mul]
    exact mul_le_mul_of_nonneg_right (abs_sub_scaledQuotient_le_abs_sub hd _ other) (abs_nonneg _)

/-! ## Rounding a whole number of units -/

theorem units_infinite_or_finite (significand : ℕ) (exponent : ℤ) :
    (if greatestExponent < exponent then infinite true
      else finite true significand exponent).units =
        -(if greatestExponent < exponent then infinite false
          else finite false significand exponent).units := by
  split
  · rfl
  · simp [units]

theorem units_ofQuotient_true (n d : ℕ) :
    (ofQuotient true n d).units = -(ofQuotient false n d).units := by
  unfold ofQuotient
  split
  · simp [units]
  · exact units_infinite_or_finite _ _

theorem natAbs_div_lt {k : ℕ} (h : |u| < 2 ^ (1023 + k)) :
    (u.natAbs / (Nat.pow 2 k : ℕ) : ℚ) < 2 ^ (1023 : ℤ) := by
  rw [cast_two_pow, div_lt_iff₀ (by positivity), ← zpow_natCast, ← zpow_add₀ two_ne_zero, Nat.cast_natAbs]
  exact_mod_cast h

theorem div_two_pow_mul (n k : ℕ) : (n / (Nat.pow 2 k : ℕ) * 2 ^ k : ℚ) = n := by
  rw [cast_two_pow, div_mul_cancel₀ _ (by positivity)]

theorem two_pow_pos (k : ℕ) : 0 < Nat.pow 2 k := Nat.two_pow_pos k

theorem isNearest_ofUnits (h : |u| < 2 ^ (1023 + 1074)) : IsNearest u (ofUnits u).units := by
  unfold ofUnits
  generalize hk : 1074 = k at h ⊢
  have hnearest := isNearest_ofQuotient (two_pow_pos k) (natAbs_div_lt h)
  rw [hk, div_two_pow_mul] at hnearest
  obtain hnegative | hpositive := lt_or_ge u 0
  · have hu : (u : ℚ) = -(u.natAbs : ℚ) := by
      rw [Nat.cast_natAbs, abs_of_neg hnegative, Int.cast_neg, neg_neg]
    rw [decide_eq_true hnegative, units_ofQuotient_true, hu]
    exact hnearest.neg
  · have hu : (u : ℚ) = u.natAbs := by rw [Nat.cast_natAbs, abs_of_nonneg hpositive]
    rw [decide_eq_false (not_lt.2 hpositive), hu]
    exact hnearest

end FileSelection.Binary64
