import PlayerLookup.Platform
import PlayerLookup.Proofs.Amount.Doubling
import PlayerLookup.Proofs.Amount.Overflow

/-! Delays that a machine refuses: those of 2 ^ 63 nanoseconds or more, by their exact values. A
delay that is doubled time and again is refused as soon as it is that long, and is exact up to
there. -/

set_option autoImplicit false

namespace PlayerLookup.Amount

open Decimal (Ratio)

variable {a : Amount} {v : ℚ}

/-! ## Amounts beside a fraction -/

theorem le_ofNat_iff {r : Ratio} (hden : 0 < r.den) (n : Nat) :
    r.le ⟨n, 1⟩ = true ↔ r.value ≤ n := by
  rw [Ratio.le_iff hden Nat.one_pos]
  simp [Ratio.value]

theorem atLeast_iff {r : Ratio} (hnum : 0 < r.num) (hden : 0 < r.den) (hv : a.value? = some v) :
    a.atLeast r = true ↔ r.value ≤ v := by
  have hpos : 0 < r.value := div_pos (by exact_mod_cast hnum) (by exact_mod_cast hden)
  cases a with
  | whole n =>
    obtain rfl := Option.some.inj hv
    change (decide (0 ≤ n) && r.le ⟨n.toNat, 1⟩) = true ↔ _
    rw [Bool.and_eq_true, decide_eq_true_iff, le_ofNat_iff hden]
    rcases lt_or_ge n 0 with hn | hn
    · have hcast : (n : ℚ) < 0 := by exact_mod_cast hn
      exact iff_of_false (fun h => absurd h.1 (not_le.mpr hn)) (by linarith)
    · have hcast : ((n.toNat : Nat) : ℚ) = n := by exact_mod_cast Int.toNat_of_nonneg hn
      rw [hcast]
      exact and_iff_right hn
  | flag b =>
    obtain rfl := Option.some.inj hv
    change r.le ⟨(ofFlag b).toNat, 1⟩ = true ↔ _
    rw [le_ofNat_iff hden]
    cases b <;> rfl
  | real x =>
    change (Decimal.Binary64.ofFloat x).value? = some v at hv
    unfold atLeast
    dsimp only
    cases hx : Decimal.Binary64.ofFloat x with
    | infinite negative =>
      rw [hx] at hv
      cases hv
    | notNumber =>
      rw [hx] at hv
      cases hv
    | finite negative m =>
      rw [hx] at hv
      obtain rfl := Option.some.inj hv
      have hsize : (0 : ℚ) ≤ m.mantissa * 2 ^ m.exponent := by positivity
      cases negative with
      | true =>
        refine iff_of_false Bool.false_ne_true ?_
        rw [if_pos rfl, mul_assoc, neg_one_mul]
        linarith
      | false =>
        change r.le m.ratio = true ↔ _
        rw [Decimal.Magnitude.ratio, Ratio.le_iff hden (Ratio.den_scaled _ _), Ratio.value_scaled,
          if_neg Bool.false_ne_true, one_mul]

/-! ## Delays on a machine -/

theorem isNotNumber_eq_false (hv : a.value? = some v) : Platform.isNotNumber a = false := by
  cases a with
  | whole n => rfl
  | flag b => rfl
  | real x =>
    change (Decimal.Binary64.ofFloat x).value? = some v at hv
    unfold Platform.isNotNumber
    dsimp only
    cases hx : Decimal.Binary64.ofFloat x with
    | notNumber =>
      rw [hx] at hv
      cases hv
    | infinite negative => rfl
    | finite negative m => rfl

/-- The failure of a machine that is given a delay of so many seconds. -/
def refusal? (seconds : ℚ) : Option Failure :=
  if seconds * 10 ^ 9 < 2 ^ 63 then none else some Platform.tooLong

theorem atLeast_secondsLimit_iff (hv : a.value? = some v) :
    a.atLeast Platform.secondsLimit = true ↔ ¬ v * 10 ^ 9 < 2 ^ 63 := by
  have hlimit : Platform.secondsLimit.value = 2 ^ 63 / 10 ^ 9 := by
    norm_num [Platform.secondsLimit, Ratio.value]
  rw [atLeast_iff (by decide) (by decide) hv, hlimit, div_le_iff₀ (by norm_num), not_lt]

theorem machine_refuses (hv : a.value? = some v) (parts : Template.Parts) :
    (Platform.machine parts).sleeping a = refusal? v ∧
      (Platform.machine parts).waiting a = refusal? v := by
  have hlimit := atLeast_secondsLimit_iff hv
  unfold Platform.machine refusal?
  dsimp only
  rw [isNotNumber_eq_false hv, if_neg Bool.false_ne_true]
  split_ifs with hlong hshort hshort
  · exact absurd hshort (hlimit.mp hlong)
  · exact ⟨rfl, rfl⟩
  · exact ⟨rfl, rfl⟩
  · exact absurd (hlimit.mpr hshort) hlong

/-! ## Doubled delays -/

/-- As long as a delay is not refused, its double is far from too large for a double. -/
theorem value?_iterate_of_lt {d : ℚ} (hv : a.value? = some d) (hd : 0 ≤ d) {i : Nat}
    (h : ∀ j < i, 2 ^ j * d * 10 ^ 9 < 2 ^ 63) : (twice^[i] a).value? = some (2 ^ i * d) := by
  cases i with
  | zero =>
    rw [pow_zero, one_mul]
    exact hv
  | succ i =>
    refine value?_iterate_twice hv (i + 1) ?_
    cases a with
    | whole n => trivial
    | flag b => trivial
    | real x =>
      have hlast := h i (Nat.lt_succ_self i)
      have hsmall : 2 ^ (i + 1) * d < (2 : ℚ) ^ (64 : ℤ) := by
        rw [pow_succ]
        norm_num
        linarith
      have hlarge : (2 : ℚ) ^ (64 : ℤ) ≤ 2 ^ (1024 : ℤ) :=
        zpow_le_zpow_right₀ one_le_two (by norm_num)
      change |2 ^ (i + 1) * d| < (2 : ℚ) ^ (1024 : ℤ)
      rw [abs_of_nonneg (by positivity)]
      exact hsmall.trans_le hlarge

/-- A machine that is given a delay and its doubles refuses the first of them that is 2 ^ 63
nanoseconds or more; those before it are exact. -/
structure PassesOnMachine (first : Amount) : Prop where
  value_eq : ∀ d i, first.value? = some d → 0 ≤ d → (∀ j < i, 2 ^ j * d * 10 ^ 9 < 2 ^ 63) →
    (twice^[i] first).value? = some (2 ^ i * d)
  refuses : ∀ d i, first.value? = some d → 0 ≤ d → (∀ j < i, 2 ^ j * d * 10 ^ 9 < 2 ^ 63) →
    ∀ parts, (Platform.machine parts).sleeping (twice^[i] first) = refusal? (2 ^ i * d) ∧
      (Platform.machine parts).waiting (twice^[i] first) = refusal? (2 ^ i * d)

theorem passesOnMachine (first : Amount) : first.PassesOnMachine where
  value_eq _ _ hv hd h := value?_iterate_of_lt hv hd h
  refuses _ _ hv hd h parts := machine_refuses (value?_iterate_of_lt hv hd h) parts

end PlayerLookup.Amount
