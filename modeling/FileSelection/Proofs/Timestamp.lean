import FileSelection.Proofs.Binary64.Rounding
import FileSelection.Timestamp
import Mathlib.Tactic.LinearCombination

/-!
# Times that are told apart

Counting in rounded seconds keeps the order of times, but times that lie close together fall on one
number.  How close that is depends on their distance from the origin.
-/

namespace FileSelection.Timestamp

open FileSelection.Binary64

/-- The distance from the origin is less than `2 ^ power` seconds. -/
def IsWithin (power : ℕ) (time : ℤ) : Prop := |time| < 2 ^ power * perSecond

/-- One time exceeds another one by more than `2 ^ (power - 53)` seconds, which is the spacing of
the numbers up to `2 ^ power`. -/
def Exceeds (power : ℕ) (x y : ℤ) : Prop := 2 ^ power * perSecond < 2 ^ 53 * (x - y)

instance (power : ℕ) (time : ℤ) : Decidable (IsWithin power time) :=
  inferInstanceAs (Decidable (_ < _))

instance (power : ℕ) (x y : ℤ) : Decidable (Exceeds power x y) :=
  inferInstanceAs (Decidable (_ < _))

variable {power : ℕ} {time x y whole : ℤ}

/-! ## Seconds and nanoseconds -/

theorem cast_perSecond : (perSecond : ℤ) = 1000000000 := rfl

theorem wholeSeconds_mul_add_fraction (time : ℤ) :
    wholeSeconds time * perSecond + fraction time = time := by
  unfold wholeSeconds fraction perSecond
  omega

theorem fraction_lt (time : ℤ) : fraction time < perSecond := by
  unfold fraction perSecond
  omega

theorem IsWithin.neg_le_wholeSeconds (h : IsWithin power time) :
    -2 ^ power ≤ wholeSeconds time := by
  unfold IsWithin perSecond at h
  unfold wholeSeconds perSecond
  rw [abs_lt] at h
  omega

theorem IsWithin.wholeSeconds_lt (h : IsWithin power time) : wholeSeconds time < 2 ^ power := by
  unfold IsWithin perSecond at h
  unfold wholeSeconds perSecond
  rw [abs_lt] at h
  omega

theorem IsWithin.mono {more : ℕ} (h : IsWithin power time) (hpower : power ≤ more) :
    IsWithin more time := by
  have hpow : (2 : ℤ) ^ power ≤ 2 ^ more := pow_le_pow_right₀ one_le_two hpower
  unfold IsWithin perSecond at *
  omega

theorem IsWithin.abs_wholeSeconds_le (h : IsWithin power time) : |wholeSeconds time| ≤ 2 ^ power :=
  abs_le.2 ⟨h.neg_le_wholeSeconds, h.wholeSeconds_lt.le⟩

/-! ## In units -/

def place : ℤ := 2 ^ 992

def billionth : ℤ := 4835703278458517 * place

def second : ℤ := 2 ^ 82 * place

theorem place_pos : 0 < place := by
  unfold place
  positivity

theorem second_eq : second = 2 ^ 1074 := (pow_add 2 82 992).symm

theorem units_billionth : (ofDecimal false 1 (-9)).units = billionth := by
  have hdecimal : ofDecimal false 1 (-9) = .finite false 4835703278458517 (-82) := by decide +kernel
  have hpower : (-82 - leastExponent).toNat = 992 := by decide
  rw [hdecimal]
  unfold units billionth place
  dsimp only
  rw [hpower, if_neg Bool.false_ne_true]
  generalize 992 = power
  have hpow : ((Nat.pow 2 power : ℕ) : ℤ) = 2 ^ power := Nat.cast_pow 2 power
  rw [hpow, Nat.cast_ofNat]

theorem isNumber_mul_second (h : |whole| ≤ 2 ^ 53) : IsNumber (whole * second) := by
  rw [second_eq]
  exact isNumber_mul_two_pow 1074 h

theorem isNumber_second : IsNumber second := by
  have hone : |(1 : ℤ)| ≤ 2 ^ 53 := by decide
  rw [← one_mul second]
  exact isNumber_mul_second hone

theorem units_ofWhole (h : |whole| ≤ 2 ^ 53) :
    (ofQuotient (whole < 0) whole.natAbs 1).units = whole * second := by
  have hsmall : ((whole.natAbs : ℚ) / (1 : ℕ)) < 2 ^ (1023 : ℤ) := by
    have hsize : (|whole| : ℚ) ≤ 2 ^ 53 := by exact_mod_cast h
    rw [Nat.cast_one, div_one, Nat.cast_natAbs, Int.cast_abs]
    exact hsize.trans_lt (by rw [← zpow_natCast]; exact zpow_lt_zpow_right₀ one_lt_two (by decide))
  have hnearest := isNearest_ofQuotient one_pos hsmall
  have hexact : (whole.natAbs / (1 : ℕ) * 2 ^ 1074 : ℚ) = (|whole| * second : ℤ) := by
    rw [second_eq, Nat.cast_one, div_one, Nat.cast_natAbs, Int.cast_mul, Int.cast_pow]
    rfl
  rw [hexact] at hnearest
  have hnumber : IsNumber (|whole| * second) := isNumber_mul_second (by rwa [abs_abs])
  have hunits := hnearest.eq_of_isNumber hnumber
  obtain hnegative | hpositive := lt_or_ge whole 0
  · rw [decide_eq_true hnegative, units_ofQuotient_true, hunits, abs_of_neg hnegative, neg_mul,
      neg_neg]
  · rw [decide_eq_false (not_lt.2 hpositive), hunits, abs_of_nonneg hpositive]

/-! ## The fraction -/

def fractionUnits (time : ℤ) : ℤ := ((ofDecimal false 1 (-9)).scale (fraction time)).units

theorem billionth_mul_fraction_nonneg (time : ℤ) : 0 ≤ billionth * fraction time :=
  mul_nonneg (mul_nonneg (by norm_num) place_pos.le) (Int.natCast_nonneg _)

theorem billionth_mul_fraction_le (time : ℤ) : billionth * fraction time ≤ second := by
  have hless := fraction_lt time
  have hpos := place_pos
  unfold billionth second
  unfold perSecond at hless
  calc 4835703278458517 * place * fraction time
      = 4835703278458517 * fraction time * place := by ring
    _ ≤ 2 ^ 82 * place := mul_le_mul_of_nonneg_right (by omega) hpos.le

theorem isNearest_fractionUnits (time : ℤ) :
    IsNearest (billionth * fraction time : ℤ) (fractionUnits time) := by
  unfold fractionUnits scale
  rw [units_billionth]
  refine isNearest_ofUnits ?_
  rw [abs_of_nonneg (billionth_mul_fraction_nonneg time)]
  refine (billionth_mul_fraction_le time).trans_lt ?_
  rw [second_eq]
  exact pow_lt_pow_right₀ one_lt_two (by decide)

theorem fractionUnits_nonneg (time : ℤ) : 0 ≤ fractionUnits time := by
  refine (isNearest_fractionUnits time).ge_of_ge isNearest_zero.isNumber ?_
  exact_mod_cast billionth_mul_fraction_nonneg time

theorem fractionUnits_le (time : ℤ) : fractionUnits time ≤ second := by
  refine (isNearest_fractionUnits time).le_of_le isNumber_second ?_
  exact_mod_cast billionth_mul_fraction_le time

theorem fractionUnits_mono (h : fraction x ≤ fraction y) : fractionUnits x ≤ fractionUnits y := by
  obtain heq | hlt := h.eq_or_lt
  · unfold fractionUnits
    rw [heq]
  · refine (isNearest_fractionUnits x).mono (isNearest_fractionUnits y) (Int.cast_lt.2 ?_)
    have hpos : 0 < billionth := mul_pos (by norm_num) place_pos
    exact mul_lt_mul_of_pos_left (Int.ofNat_lt.2 hlt) hpos

/-! ## The sum -/

def exactUnits (time : ℤ) : ℤ := wholeSeconds time * second + fractionUnits time

theorem IsWithin.abs_exactUnits_le (h : IsWithin power time) :
    |exactUnits time| ≤ 2 ^ power * second := by
  have hlow := h.neg_le_wholeSeconds
  have hhigh : wholeSeconds time + 1 ≤ 2 ^ power := h.wholeSeconds_lt
  have hnonneg := fractionUnits_nonneg time
  have hle := fractionUnits_le time
  have hpos : 0 ≤ second := hnonneg.trans hle
  unfold exactUnits
  rw [abs_le]
  constructor <;> nlinarith

theorem exactUnits_mono (h : x ≤ y) : exactUnits x ≤ exactUnits y := by
  unfold exactUnits
  obtain hwhole | hsame := (Int.ediv_le_ediv (by decide : 0 < (perSecond : ℤ)) h).lt_or_eq
  · have hwhole : wholeSeconds x + 1 ≤ wholeSeconds y := hwhole
    have hnonneg := fractionUnits_nonneg y
    have hle := fractionUnits_le x
    have hpos : 0 ≤ second := (fractionUnits_nonneg x).trans hle
    nlinarith
  · have hwhole : wholeSeconds x = wholeSeconds y := hsame
    have hfraction : fraction x ≤ fraction y := by
      have hx := wholeSeconds_mul_add_fraction x
      have hy := wholeSeconds_mul_add_fraction y
      rw [hwhole] at hx
      omega
    rw [hwhole]
    exact add_le_add_right (fractionUnits_mono hfraction) _

theorem IsWithin.units_seconds (h : IsWithin 53 time) :
    (seconds time).units = (ofUnits (exactUnits time)).units := by
  have hwhole := units_ofWhole h.abs_wholeSeconds_le
  unfold seconds add
  dsimp only
  rw [hwhole]
  rfl

theorem IsWithin.isNearest_seconds (h : IsWithin 53 time) :
    IsNearest (exactUnits time) (seconds time).units := by
  rw [h.units_seconds]
  refine isNearest_ofUnits (h.abs_exactUnits_le.trans_lt ?_)
  rw [second_eq, ← pow_add]
  exact pow_lt_pow_right₀ one_lt_two (by decide)

theorem seconds_mono (hx : IsWithin 53 x) (hy : IsWithin 53 y) (h : x ≤ y) :
    (seconds x).units ≤ (seconds y).units := by
  obtain heq | hlt := (exactUnits_mono h).eq_or_lt
  · rw [hx.units_seconds, hy.units_seconds, heq]
  · exact hx.isNearest_seconds.mono hy.isNearest_seconds (by exact_mod_cast hlt)

theorem lt_of_later (hx : IsWithin 53 x) (hy : IsWithin 53 y) (h : later x y = true) : y < x := by
  by_contra hle
  have hmono := seconds_mono hx hy (not_lt.1 hle)
  have hlater : (seconds y).units < (seconds x).units := of_decide_eq_true h
  exact absurd hlater (not_lt.2 hmono)

/-! ## The error -/

theorem abs_sub_le_of_isNearest {exact units : ℤ} (h : IsNearest exact units)
    (hsize : |exact| ≤ 2 ^ power * second) : |exact - units| ≤ 2 ^ power * 2 ^ 28 * place := by
  have hbound : (2 : ℤ) ^ power * second = 2 ^ (53 + (power + 1021)) := by
    have hexponent : 53 + (power + 1021) = power + 1074 := by omega
    rw [second_eq, hexponent, pow_add]
  have hspacing : (2 : ℤ) ^ (power + 1021) = 2 ^ power * 2 ^ 28 * place * 2 := by
    have hplace : (2 : ℤ) ^ 1021 = 2 ^ 28 * place * 2 :=
      (pow_succ 2 1020).trans (congrArg (· * 2) (pow_add 2 28 992))
    rw [pow_add, hplace, mul_assoc, mul_assoc, mul_assoc]
  rw [hbound] at hsize
  have herror := h.error_le (by exact_mod_cast hsize)
  rw [le_div_iff₀ two_pos] at herror
  have herror : |exact - units| * 2 ≤ 2 ^ (power + 1021) := by exact_mod_cast herror
  rw [hspacing] at herror
  exact le_of_mul_le_mul_right herror two_pos

theorem abs_sub_fractionUnits_le (time : ℤ) :
    |billionth * fraction time - fractionUnits time| ≤ 2 ^ 28 * place := by
  have hsize : |billionth * fraction time| ≤ 2 ^ 0 * second := by
    rw [pow_zero, one_mul, abs_of_nonneg (billionth_mul_fraction_nonneg time)]
    exact billionth_mul_fraction_le time
  have herror := abs_sub_le_of_isNearest (isNearest_fractionUnits time) hsize
  rwa [pow_zero, one_mul] at herror

theorem billionth_mul_perSecond : billionth * perSecond = second + 301175296 * place := by
  unfold billionth second perSecond
  push_cast
  ring

theorem IsWithin.abs_exactUnits_sub_le (h : IsWithin 53 time) (hpower : IsWithin power time) :
    |exactUnits time - (seconds time).units| ≤ 2 ^ power * 2 ^ 28 * place :=
  abs_sub_le_of_isNearest h.isNearest_seconds hpower.abs_exactUnits_le

theorem abs_exactUnits_mul_sub_le (time : ℤ) :
    |exactUnits time * perSecond - time * second| ≤ 569610752 * perSecond * place := by
  have hsplit : exactUnits time * perSecond - time * second =
      301175296 * place * fraction time -
        (billionth * fraction time - fractionUnits time) * perSecond := by
    have htime := wholeSeconds_mul_add_fraction time
    have hbillionth := billionth_mul_perSecond
    unfold exactUnits
    linear_combination (second : ℤ) * htime + (fraction time : ℤ) * hbillionth
  have hfraction : (fraction time : ℤ) ≤ perSecond := by exact_mod_cast (fraction_lt time).le
  have hrest : place * fraction time ≤ place * perSecond :=
    mul_le_mul_of_nonneg_left hfraction place_pos.le
  have hnonneg : 0 ≤ place * fraction time := mul_nonneg place_pos.le (Int.natCast_nonneg _)
  obtain ⟨hbelow, habove⟩ := abs_le.1 (abs_sub_fractionUnits_le time)
  rw [hsplit, abs_le]
  rw [cast_perSecond] at *
  constructor <;> linarith

theorem Exceeds.spare (h : Exceeds power x y) :
    2 ^ 31 ≤ 2 ^ 53 * (x - y) - 2 ^ power * perSecond := by
  unfold Exceeds perSecond at *
  obtain hsmall | hlarge := Nat.lt_or_ge power 22
  · have hpow : (2 : ℤ) ^ power ≤ 2 ^ 22 := pow_le_pow_right₀ one_le_two hsmall.le
    have hpositive : (0 : ℤ) < 2 ^ power := by positivity
    have hone : 1 ≤ x - y := by omega
    omega
  · obtain ⟨more, rfl⟩ := Nat.exists_eq_add_of_le hlarge
    rw [pow_add] at *
    omega

theorem later_of_exceeds (hpower : power ≤ 53) (hx : IsWithin power x) (hy : IsWithin power y)
    (h : Exceeds power x y) : later x y = true := by
  have hspare := h.spare
  have hplace := place_pos
  have hsumx := (abs_le.1 (abs_exactUnits_mul_sub_le x)).1
  have hsumy := (abs_le.1 (abs_exactUnits_mul_sub_le y)).2
  have hroundx := (abs_le.1 ((hx.mono hpower).abs_exactUnits_sub_le hx)).2
  have hroundy := (abs_le.1 ((hy.mono hpower).abs_exactUnits_sub_le hy)).1
  have hless : (seconds y).units < (seconds x).units := by
    have hscaled := mul_le_mul_of_nonneg_right hspare hplace.le
    unfold second at *
    rw [cast_perSecond] at *
    linarith
  exact decide_eq_true hless

end FileSelection.Timestamp
