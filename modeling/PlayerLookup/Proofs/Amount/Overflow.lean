import PlayerLookup.Amount
import PlayerLookup.Proofs.Amount.Packing

/-! Fractions that are too large for a double. The double nearest to a fraction is infinite just
from the middle between the largest double and the next power of two on. A whole number that large
cannot be written with places after the point, and no other amount is like that. -/

set_option autoImplicit false

namespace PlayerLookup.Decimal

open Float.Model Float.Model.UnpackedFloat

/-! ## Rounding -/

theorem roundHalfEven_bounds (num den : Nat) :
    num / den ≤ roundHalfEven num den ∧ roundHalfEven num den ≤ num / den + 1 := by
  unfold roundHalfEven
  dsimp only
  split_ifs <;> omega

/-- From half a unit below an even number on, a fraction is rounded to that number or more. -/
theorem le_roundHalfEven_iff {num den k : Nat} (hden : 0 < den) (hk : 0 < k) (heven : k % 2 = 0) :
    k ≤ roundHalfEven num den ↔ 2 * k * den ≤ 2 * num + den := by
  have hdiv := Nat.div_add_mod num den
  have hmod := Nat.mod_lt num hden
  unfold roundHalfEven
  dsimp only
  generalize num / den = q at *
  generalize num % den = rest at *
  subst hdiv
  -- Only from the number just below, which is odd, does the rest decide.
  rcases lt_trichotomy (q + 1) k with hless | heq | hmore
  · have hscaled : (q + 2) * den ≤ k * den := Nat.mul_le_mul_right den hless
    rw [add_mul, Nat.mul_comm q den] at hscaled
    refine iff_of_false ?_ (by rw [Nat.mul_assoc]; omega)
    split_ifs <;> omega
  · subst heq
    rw [Nat.mul_assoc, add_mul, Nat.mul_comm q den]
    rw [if_neg (by omega : ¬ q % 2 = 0)]
    split_ifs <;> omega
  · have hscaled : k * den ≤ q * den := Nat.mul_le_mul_right den (by omega)
    rw [Nat.mul_comm q den] at hscaled
    refine iff_of_true ?_ (by rw [Nat.mul_assoc]; omega)
    split_ifs <;> omega

/-! ## Fractions by value -/

namespace Ratio

def value (a : Ratio) : ℚ := a.num / a.den

theorem value_mul (a b : Ratio) : (a.mul b).value = a.value * b.value := by
  simp [value, mul, mul_div_mul_comm]

theorem value_scaled (m : Nat) (e : ℤ) : (scaled 2 m e).value = m * 2 ^ e := by
  cases e with
  | ofNat k => simp [value, scaled]
  | negSucc k => simp [value, scaled, zpow_negSucc, div_eq_mul_inv]

theorem den_scaled (m : Nat) (e : ℤ) : 0 < (scaled 2 m e).den := by
  cases e with
  | ofNat k => exact Nat.one_pos
  | negSucc k => exact Nat.pow_pos Nat.two_pos

theorem le_iff {a b : Ratio} (ha : 0 < a.den) (hb : 0 < b.den) :
    a.le b = true ↔ a.value ≤ b.value := by
  have ha' : (0 : ℚ) < a.den := by exact_mod_cast ha
  have hb' : (0 : ℚ) < b.den := by exact_mod_cast hb
  rw [value, value, div_le_div_iff₀ ha' hb']
  simp only [le, decide_eq_true_eq]
  exact_mod_cast Iff.rfl

theorem le_round {a : Ratio} {k : Nat} (ha : 0 < a.den) (h : (k : ℚ) ≤ a.value) : k ≤ a.round := by
  have ha' : (0 : ℚ) < a.den := by exact_mod_cast ha
  rw [value, le_div_iff₀ ha'] at h
  have hle : k ≤ a.num / a.den := (Nat.le_div_iff_mul_le ha).mpr (by exact_mod_cast h)
  exact hle.trans (roundHalfEven_bounds a.num a.den).1

theorem round_le {a : Ratio} {k : Nat} (ha : 0 < a.den) (h : a.value < k) : a.round ≤ k := by
  have ha' : (0 : ℚ) < a.den := by exact_mod_cast ha
  rw [value, div_lt_iff₀ ha'] at h
  have hlt : a.num / a.den < k := (Nat.div_lt_iff_lt_mul ha).mpr (by exact_mod_cast h)
  exact (roundHalfEven_bounds a.num a.den).2.trans hlt

theorem le_round_iff {a : Ratio} {k : Nat} (ha : 0 < a.den) (hk : 0 < k) (heven : k % 2 = 0) :
    k ≤ a.round ↔ (k : ℚ) - 1 / 2 ≤ a.value := by
  have ha' : (0 : ℚ) < a.den := by exact_mod_cast ha
  rw [round, le_roundHalfEven_iff ha hk heven, value, le_div_iff₀ ha']
  rw [← Nat.cast_le (α := ℚ)]
  push_cast
  constructor <;> intro h <;> linarith

theorem binaryExponent_bounds {a : Ratio} (hnum : 0 < a.num) (hden : 0 < a.den) :
    (2 : ℚ) ^ a.binaryExponent ≤ a.value ∧ a.value < 2 ^ (a.binaryExponent + 1) := by
  have hden' : (0 : ℚ) < a.den := by exact_mod_cast hden
  have hnumLow : (2 : ℚ) ^ a.num.log2 ≤ a.num := by exact_mod_cast Nat.log2_self_le hnum.ne'
  have hnumHigh : (a.num : ℚ) < 2 ^ (a.num.log2 + 1) := by exact_mod_cast Nat.lt_log2_self
  have hdenLow : (2 : ℚ) ^ a.den.log2 ≤ a.den := by exact_mod_cast Nat.log2_self_le hden.ne'
  have hdenHigh : (a.den : ℚ) < 2 ^ (a.den.log2 + 1) := by exact_mod_cast Nat.lt_log2_self
  have hlow : (2 : ℚ) ^ ((a.num.log2 : ℤ) - a.den.log2 - 1) ≤ a.value := by
    rw [value, le_div_iff₀ hden']
    refine le_trans (mul_le_mul_of_nonneg_left hdenHigh.le (by positivity)) ?_
    rw [← zpow_natCast, ← zpow_add₀ two_ne_zero]
    have hsum : (a.num.log2 : ℤ) - a.den.log2 - 1 + ((a.den.log2 + 1 : Nat) : ℤ) = a.num.log2 := by
      push_cast
      ring
    rwa [hsum, zpow_natCast]
  have hhigh : a.value < (2 : ℚ) ^ ((a.num.log2 : ℤ) - a.den.log2 + 1) := by
    rw [value, div_lt_iff₀ hden']
    refine lt_of_lt_of_le ?_ (mul_le_mul_of_nonneg_left hdenLow (by positivity))
    rw [← zpow_natCast, ← zpow_add₀ two_ne_zero]
    have hsum : (a.num.log2 : ℤ) - a.den.log2 + 1 + a.den.log2 = ((a.num.log2 + 1 : Nat) : ℤ) := by
      push_cast
      ring
    rwa [hsum, zpow_natCast]
  unfold binaryExponent
  dsimp only
  split_ifs with h
  · rw [le_iff (den_scaled _ _) hden, value_scaled, Nat.cast_one, one_mul] at h
    exact ⟨h, hhigh⟩
  · rw [le_iff (den_scaled _ _) hden, value_scaled, Nat.cast_one, one_mul, not_le] at h
    rw [Int.sub_add_cancel]
    exact ⟨hlow, h⟩

/-! ## The last place of a double -/

/-- The exponent of the last place that a double near a fraction has. -/
def lastPlace (a : Ratio) : ℤ := max (a.binaryExponent - 52) (-1074)

/-- The mantissa of the nearest double, counted in its last place. -/
def mantissa (a : Ratio) : Nat := (a.mul (scaled 2 1 (-a.lastPlace))).round

theorem nearestBits_eq {a : Ratio} (hnum : 0 < a.num) :
    a.nearestBits = min ((a.lastPlace + 1074).toNat * 2 ^ 52 + a.mantissa) (2047 * 2 ^ 52) := by
  unfold nearestBits
  rw [if_neg hnum.ne']
  rfl

theorem den_inPlace {a : Ratio} (hden : 0 < a.den) :
    0 < (a.mul (scaled 2 1 (-a.lastPlace))).den :=
  Nat.mul_pos hden (den_scaled _ _)

theorem value_inPlace (a : Ratio) :
    (a.mul (scaled 2 1 (-a.lastPlace))).value = a.value / 2 ^ a.lastPlace := by
  rw [value_mul, value_scaled, Nat.cast_one, one_mul, zpow_neg, div_eq_mul_inv]

theorem le_mantissa {a : Ratio} {k : Nat} (hden : 0 < a.den)
    (h : (k : ℚ) * 2 ^ a.lastPlace ≤ a.value) : k ≤ a.mantissa := by
  refine le_round (den_inPlace hden) ?_
  rwa [value_inPlace, le_div_iff₀ (by positivity)]

theorem mantissa_le {a : Ratio} {k : Nat} (hden : 0 < a.den)
    (h : a.value < (k : ℚ) * 2 ^ a.lastPlace) : a.mantissa ≤ k := by
  refine round_le (den_inPlace hden) ?_
  rwa [value_inPlace, div_lt_iff₀ (by positivity)]

theorem le_mantissa_iff {a : Ratio} {k : Nat} (hden : 0 < a.den) (hk : 0 < k) (heven : k % 2 = 0) :
    k ≤ a.mantissa ↔ ((k : ℚ) - 1 / 2) * 2 ^ a.lastPlace ≤ a.value := by
  rw [mantissa, le_round_iff (den_inPlace hden) hk heven, value_inPlace,
    le_div_iff₀ (by positivity)]

end Ratio

/-! ## Infinite doubles -/

/-- The middle between the largest double and the next power of two: the least whole number that has
an infinite double. -/
def firstInfinite : Nat := 2 ^ 1024 - 2 ^ 970

/-- The exponent as a variable, so that the powers are not computed. -/
theorem firstInfinite_value {k : Nat} (h : k = 970) :
    (firstInfinite : ℚ) = (((2 ^ 53 : Nat) : ℚ) - 1 / 2) * 2 ^ ((k : ℤ) + 1) := by
  have hsum : k + 54 = 1024 := by omega
  have hdiff : firstInfinite = 2 ^ (k + 54) - 2 ^ k := by rw [hsum, h, firstInfinite]
  rw [hdiff, Nat.cast_sub (Nat.pow_le_pow_right two_pos (Nat.le_add_right k 54)),
    zpow_add_one₀ two_ne_zero, zpow_natCast]
  push_cast
  ring

theorem firstInfinite_pos : 0 < firstInfinite := by
  obtain ⟨k, hk⟩ : ∃ k, k = 970 := ⟨970, rfl⟩
  have hvalue : (0 : ℚ) < firstInfinite := by
    rw [firstInfinite_value hk]
    exact mul_pos (by norm_num) (by positivity)
  exact_mod_cast hvalue

theorem two_pow_mul_zpow (m : Nat) (e : ℤ) : ((2 ^ m : Nat) : ℚ) * 2 ^ e = 2 ^ (m + e) := by
  rw [Nat.cast_pow, Nat.cast_ofNat, ← zpow_natCast, ← zpow_add₀ two_ne_zero]

/-- The nearest double of a positive fraction is infinite just from the middle between the largest
double and the next power of two on. -/
theorem nearestBits_eq_infinite_iff {a : Ratio} (hnum : 0 < a.num) (hden : 0 < a.den) :
    a.nearestBits = 2047 * 2 ^ 52 ↔ (firstInfinite : ℚ) ≤ a.value := by
  obtain ⟨k, hk⟩ : ∃ k, k = 970 := ⟨970, rfl⟩
  obtain ⟨hlow, hhigh⟩ := Ratio.binaryExponent_bounds hnum hden
  have hplace : a.lastPlace = max (a.binaryExponent - 52) (-1074) := rfl
  have hmiddle : (2 : ℚ) ^ (52 + ((k : ℤ) + 1)) ≤ (((2 ^ 53 : Nat) : ℚ) - 1 / 2) * 2 ^ ((k : ℤ) + 1)
      ∧ (((2 ^ 53 : Nat) : ℚ) - 1 / 2) * 2 ^ ((k : ℤ) + 1) ≤ 2 ^ (53 + ((k : ℤ) + 1)) := by
    rw [zpow_add₀ two_ne_zero, zpow_add₀ two_ne_zero 53]
    constructor <;> exact mul_le_mul_of_nonneg_right (by norm_num) (by positivity)
  rw [Ratio.nearestBits_eq hnum, min_eq_right_iff, firstInfinite_value hk]
  -- The last binade decides: all fractions below it are finite, and all above it too large.
  rcases lt_trichotomy a.binaryExponent (k + 53) with hless | hlast | hmore
  · have hsmall : a.value < ((2 ^ 53 : Nat) : ℚ) * 2 ^ a.lastPlace := by
      rw [two_pow_mul_zpow]
      exact hhigh.trans_le (zpow_le_zpow_right₀ one_le_two (by omega))
    have hmantissa := Ratio.mantissa_le hden hsmall
    have hbelow : (2 : ℚ) ^ (a.binaryExponent + 1) ≤ 2 ^ (52 + ((k : ℤ) + 1)) :=
      zpow_le_zpow_right₀ one_le_two (by omega)
    exact iff_of_false (by omega) (not_le.mpr (hhigh.trans_le (hbelow.trans hmiddle.1)))
  · have hunit : a.lastPlace = k + 1 := by omega
    have hcarry := Ratio.le_mantissa_iff hden (Nat.two_pow_pos 53) (by decide)
    rw [hunit] at hcarry ⊢
    rw [← hcarry]
    omega
  · have hlarge : ((2 ^ 52 : Nat) : ℚ) * 2 ^ a.lastPlace ≤ a.value := by
      rw [two_pow_mul_zpow]
      exact (zpow_le_zpow_right₀ one_le_two (by omega)).trans hlow
    have hmantissa := Ratio.le_mantissa hden hlarge
    have habove : (2 : ℚ) ^ (53 + ((k : ℤ) + 1)) ≤ 2 ^ a.binaryExponent :=
      zpow_le_zpow_right₀ one_le_two (by omega)
    exact iff_of_true (by omega) (hmiddle.2.trans (habove.trans hlow))

theorem isInf_nearest_iff_bits (negative : Bool) (a : Ratio) :
    (a.nearest negative).isInf = true ↔ a.nearestBits = 2047 * 2 ^ 52 := by
  have hle : a.nearestBits ≤ 2047 * 2 ^ 52 := by
    unfold Ratio.nearestBits
    split_ifs
    · exact Nat.zero_le _
    · exact Nat.min_le_right _ _
  have hbits : (UInt64.ofNat
      (if negative then a.nearestBits + Nat.pow 2 63 else a.nearestBits)).toBitVec.toNat =
        if negative then a.nearestBits + 2 ^ 63 else a.nearestBits := by
    change (if negative then a.nearestBits + 2 ^ 63 else a.nearestBits) % 2 ^ 64 = _
    split_ifs <;> omega
  unfold Ratio.nearest
  dsimp only
  rw [isInf_ofBits, isInf_unpack, hbits]
  split_ifs <;> omega

theorem isInf_nearest (negative : Bool) {a : Ratio} (hden : 0 < a.den) :
    (a.nearest negative).isInf = true ↔ firstInfinite * a.den ≤ a.num := by
  have hden' : (0 : ℚ) < a.den := by exact_mod_cast hden
  rw [isInf_nearest_iff_bits]
  rcases Nat.eq_zero_or_pos a.num with hzero | hpos
  · have hbits : a.nearestBits = 0 := by rw [Ratio.nearestBits, if_pos hzero]
    have hsome : 0 < firstInfinite * a.den := Nat.mul_pos firstInfinite_pos hden
    rw [hbits]
    exact iff_of_false (by decide) (by omega)
  · rw [nearestBits_eq_infinite_iff hpos hden, Ratio.value, le_div_iff₀ hden']
    exact_mod_cast Iff.rfl

theorem isInf_ofInt (n : ℤ) : (ofInt n).isInf = true ↔ firstInfinite ≤ n.natAbs := by
  rw [ofInt, isInf_nearest _ Nat.one_pos, Nat.mul_one]

end PlayerLookup.Decimal

namespace PlayerLookup.Amount

theorem threePlaces?_eq_none_iff (a : Amount) :
    a.threePlaces? = none ↔ ∃ n, a = .whole n ∧ Decimal.firstInfinite ≤ n.natAbs := by
  cases a with
  | whole n =>
    have hwritten : (whole n).threePlaces? = none ↔ (Decimal.ofInt n).isInf = true := by
      unfold threePlaces?
      dsimp only
      split_ifs with h <;> simp [h]
    rw [hwritten, Decimal.isInf_ofInt]
    simp
  | real x => simp [threePlaces?]
  | flag b => simp [threePlaces?]

end PlayerLookup.Amount
