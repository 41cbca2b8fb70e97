import PlayerLookup.Amount
import PlayerLookup.Proofs.Amount.Packing

/-! Amounts that are doubled again and again. Doubling a double changes its exponent, or where that
is the least its mantissa, so that it is exact until the value is too large for a double; whole
numbers have no such limit. -/

set_option autoImplicit false

namespace PlayerLookup.Decimal

open Float.Model Float.Model.UnpackedFloat

/-! ## Twice a double -/

theorem shiftRight_exact (m k : Nat) :
    (ExtendedMantissa.mk (m * 2 ^ k) false false) >>> k = ⟨m, false, false⟩ := by
  induction k generalizing m with
  | zero => simp [HShiftRight.hShiftRight, Nat.repeat]
  | succ k ih =>
    change ExtendedMantissa.shiftRightOne
      ((ExtendedMantissa.mk (m * 2 ^ (k + 1)) false false) >>> k) = _
    have h2 : m * 2 ^ (k + 1) = (m * 2) * 2 ^ k := by ring
    rw [h2, ih]
    simp [ExtendedMantissa.shiftRightOne]

theorem roundWithAccuracy_exact (s : Sign) (m k : Nat) (e : ℤ) (hm : 0 < m)
    (hfirst : Format.targetExponent .binary64 (totalExponent (m * 2 ^ k) (e - k)) = e)
    (hsecond : Format.targetExponent .binary64 (totalExponent m e) ≤ e) :
    roundWithAccuracy .binary64 s (m * 2 ^ k) (e - k) .exact = .finite s m e hm := by
  -- Rounding shifts the mantissa twice, and the second shift finds nothing left to do.
  have hshift : (e - (e - (k : ℤ))).toNat = k := by omega
  have hstay : (Format.targetExponent .binary64 (totalExponent m e) - e).toNat = 0 := by omega
  have hone : shiftToTargetExponent .binary64 (m * 2 ^ k) (e - k) .exact =
      (⟨m, false, false⟩, e) := by
    unfold shiftToTargetExponent shiftToExponent
    dsimp only
    rw [hfirst, hshift, Int.sub_add_cancel]
    exact congrArg (·, e) (shiftRight_exact m k)
  have htwo : shiftToTargetExponent .binary64 m e .exact = (⟨m, false, false⟩, e) := by
    unfold shiftToTargetExponent shiftToExponent
    dsimp only
    rw [hstay, Int.natCast_zero, Int.add_zero]
    rfl
  unfold roundWithAccuracy
  rw [hone]
  change (match shiftToTargetExponent .binary64 m e .exact with
    | (final, exponent) =>
      if h : final.mantissa = 0 then UnpackedFloat.zero s
      else .finite s final.mantissa exponent (Nat.pos_of_ne_zero h)) = _
  rw [htwo]
  exact dif_neg hm.ne'

theorem targetExponent_eq (m : Nat) (e : ℤ) :
    Format.targetExponent .binary64 (totalExponent m e) = max (m.log2 + e - 52) (-1074) := by
  change max ((m.log2 : ℤ) + 1 + e - 53) (-1074) = _
  congr 1
  ring

theorem log2_mul_two_pow {m : Nat} (hm : 0 < m) (k : Nat) : (m * 2 ^ k).log2 = m.log2 + k := by
  induction k with
  | zero => simp
  | succ k ih =>
    have hpos : m * 2 ^ k ≠ 0 := by positivity
    rw [pow_succ, ← mul_assoc, Nat.mul_comm _ 2, Nat.log2_two_mul hpos, ih, Nat.add_assoc]

/-- Multiplying by two moves the exponent, or the mantissa where the exponent is the least. -/
theorem mul_two_finite (s : Sign) {m : Nat} {e : ℤ} (hm : 0 < m) (h : Canonical m e) :
    UnpackedFloat.mul .binary64 (.finite s m e hm) (.finite .positive (2 ^ 52) (-51) (by decide)) =
      if 2 ^ 52 ≤ m then .finite s m (e + 1) hm else .finite s (2 * m) (-1074) (by omega) := by
  obtain ⟨hhigh, hlow, he⟩ := h
  have hsign : s * .positive = s := by cases s <;> rfl
  change roundWithAccuracy .binary64 (s * .positive) (m * 2 ^ 52) (e + -51) .exact = _
  rw [hsign]
  by_cases hn : 2 ^ 52 ≤ m
  · have hlog := log2_eq hn hhigh
    rw [if_pos hn]
    have hexp : e + -51 = e + 1 - (52 : Nat) := by
      push_cast
      ring
    rw [hexp]
    refine roundWithAccuracy_exact s m 52 (e + 1) hm ?_ ?_
    · rw [targetExponent_eq, log2_mul_two_pow hm, hlog]
      omega
    · rw [targetExponent_eq, hlog]
      omega
  · have hlog : m.log2 < 52 := (Nat.log2_lt hm.ne').mpr (by omega)
    obtain rfl := hlow.resolve_left hn
    rw [if_neg hn]
    have hmant : m * 2 ^ 52 = 2 * m * 2 ^ 51 := by ring
    have hexp : (-1074 : ℤ) + -51 = -1074 - (51 : Nat) := by norm_num
    rw [hmant, hexp]
    refine roundWithAccuracy_exact s (2 * m) 51 (-1074) (by omega) ?_ ?_
    · rw [targetExponent_eq, log2_mul_two_pow (by omega), Nat.log2_two_mul hm.ne']
      omega
    · rw [targetExponent_eq, Nat.log2_two_mul hm.ne']
      omega

/-! ## Values -/

/-- The value of a double that was taken apart, if it is a number. -/
def Binary64.value? : Binary64 → Option ℚ
  | .finite negative m => some ((if negative then -1 else 1) * m.mantissa * 2 ^ m.exponent)
  | .infinite _ => none
  | .notNumber => none

def unpackedValue? : UnpackedFloat → Option ℚ
  | .zero _ => some 0
  | .finite s m e _ => some (s.apply m * 2 ^ e)
  | .infinity _ => none
  | .notANumber => none

theorem abs_apply (s : Sign) (m : Nat) (e : ℤ) :
    |((s.apply m : ℤ) : ℚ) * 2 ^ e| = m * 2 ^ e := by
  have hpos : (0 : ℚ) ≤ m * 2 ^ e := by positivity
  cases s with
  | positive => exact abs_of_nonneg hpos
  | negative =>
    change |((-(m : ℤ) : ℤ) : ℚ) * 2 ^ e| = _
    rw [Int.cast_neg, neg_mul, abs_neg]
    exact abs_of_nonneg hpos

theorem two_mul_value (n : ℚ) (e : ℤ) : 2 * (n * 2 ^ e) = n * 2 ^ (e + 1) := by
  rw [zpow_add_one₀ (two_ne_zero)]
  ring

theorem abs_lt_iff_exponent (s : Sign) {m : Nat} {e : ℤ} (h : Canonical m e) :
    |((s.apply m : ℤ) : ℚ) * 2 ^ e| < 2 ^ (1024 : ℤ) ↔ e < 972 := by
  obtain ⟨hhigh, hlow, -⟩ := h
  have hm53 : (m : ℚ) < 2 ^ (53 : ℤ) := by exact_mod_cast hhigh
  rw [abs_apply]
  constructor
  · intro hlt
    by_contra hge
    have hm52 : (2 : ℚ) ^ (52 : ℤ) ≤ m := by
      have := hlow.resolve_right (by omega)
      exact_mod_cast this
    have he : (2 : ℚ) ^ (972 : ℤ) ≤ 2 ^ e := zpow_le_zpow_right₀ (by norm_num) (by omega)
    have hle : (2 : ℚ) ^ (1024 : ℤ) ≤ m * 2 ^ e := by
      calc (2 : ℚ) ^ (1024 : ℤ) = 2 ^ (52 : ℤ) * 2 ^ (972 : ℤ) := by
            rw [← zpow_add₀ two_ne_zero]
            norm_num
        _ ≤ m * 2 ^ e := mul_le_mul hm52 he (zpow_nonneg two_pos.le _) (Nat.cast_nonneg m)
    exact absurd hlt (not_lt.mpr hle)
  · intro he
    have he : (2 : ℚ) ^ e ≤ 2 ^ (971 : ℤ) := zpow_le_zpow_right₀ (by norm_num) (by omega)
    calc (m : ℚ) * 2 ^ e < 2 ^ (53 : ℤ) * 2 ^ e := by
          exact mul_lt_mul_of_pos_right hm53 (by positivity)
      _ ≤ 2 ^ (53 : ℤ) * 2 ^ (971 : ℤ) := mul_le_mul_of_nonneg_left he (by positivity)
      _ = 2 ^ (1024 : ℤ) := by
        rw [← zpow_add₀ two_ne_zero]
        norm_num

theorem unpack_two :
    ((2 : Float)).toModel.unpack = .finite .positive (2 ^ 52) (-51) (by decide) := by
  with_unfolding_all rfl

theorem unpack_mul_two (x : Float) : (x * 2).toModel.unpack =
    UnpackedFloat.unpack .binary64 (UnpackedFloat.pack .binary64
      (UnpackedFloat.mul .binary64 x.toModel.unpack
        (.finite .positive (2 ^ 52) (-51) (by decide)))) := by
  rw [← unpack_two]
  rfl

theorem unpackedValue?_mul_two (x : Float) :
    unpackedValue? (x * 2).toModel.unpack = (unpackedValue? x.toModel.unpack).bind fun v =>
      if |2 * v| < 2 ^ (1024 : ℤ) then some (2 * v) else none := by
  rw [unpack_mul_two]
  cases hx : x.toModel.unpack with
  | notANumber => rfl
  | infinity s => cases s <;> rfl
  | zero s =>
    change unpackedValue? (UnpackedFloat.unpack .binary64 (packedZero .binary64 _)) = _
    rw [unpack_packedZero]
    change some (0 : ℚ) = if |2 * (0 : ℚ)| < 2 ^ (1024 : ℤ) then some (2 * 0) else none
    rw [mul_zero, abs_zero, if_pos (zpow_pos two_pos _)]
  | finite s m e hm =>
    have hcanonical := (canonical_of_unpack hx).1
    have ⟨hhigh, hlow, he⟩ := hcanonical
    rw [mul_two_finite s hm hcanonical]
    change _ = if |2 * ((s.apply m : ℚ) * 2 ^ e)| < 2 ^ (1024 : ℤ) then
      some (2 * ((s.apply m : ℚ) * 2 ^ e)) else none
    by_cases hn : 2 ^ 52 ≤ m
    · have hnext : Canonical m (e + 1) := ⟨hhigh, Or.inl hn, by omega⟩
      rw [if_pos hn, unpack_pack_finite s hm hnext, two_mul_value]
      by_cases hover : 972 ≤ e + 1
      · rw [if_pos hover, if_neg ((abs_lt_iff_exponent s hnext).not.mpr (by omega))]
        rfl
      · rw [if_neg hover, if_pos ((abs_lt_iff_exponent s hnext).mpr (by omega))]
        rfl
    · obtain rfl := hlow.resolve_left hn
      have hnext : Canonical (2 * m) (-1074) := ⟨by omega, Or.inr rfl, by omega⟩
      have hdouble : 2 * ((s.apply m : ℚ) * 2 ^ (-1074 : ℤ)) =
          (s.apply (2 * m : Nat) : ℚ) * 2 ^ (-1074 : ℤ) := by
        rw [← mul_assoc]
        congr 1
        cases s <;> simp [Sign.apply]
      rw [if_neg hn, unpack_pack_finite s (by omega) hnext, hdouble,
        if_pos ((abs_lt_iff_exponent s hnext).mpr (by omega)), if_neg (by omega)]
      rfl

def partsValue? (sign : ℚ) (power fraction : Nat) : Option ℚ :=
  if power = 2047 then none
  else if power = 0 then some (sign * fraction * 2 ^ (-1074 : ℤ))
  else some (sign * (2 ^ 52 + fraction : Nat) * 2 ^ ((power : ℤ) - 1075))

theorem value?_ofBits (bits : UInt64) :
    (Binary64.ofBits bits).value? =
      partsValue? (if bits.toNat / Nat.pow 2 63 = 1 then -1 else 1)
        (bits.toNat / Nat.pow 2 52 % Nat.pow 2 11) (bits.toNat % Nat.pow 2 52) := by
  have hsign : (if decide (bits.toNat / Nat.pow 2 63 = 1) = true then (-1 : ℚ) else 1) =
      if bits.toNat / Nat.pow 2 63 = 1 then -1 else 1 := by
    simp only [decide_eq_true_eq]
  unfold Binary64.ofBits partsValue?
  dsimp only
  split_ifs <;> simp_all [Binary64.value?]

theorem unpackedValue?_components (s : Sign) (e : BitVec 11) (m : BitVec 52) :
    unpackedValue? (unpack .binary64 (packComponents .binary64 s e m)) =
      partsValue? (s.apply 1) e.toNat m.toNat := by
  rw [unpack_components]
  unfold partsValue?
  have happly (k : Nat) : ((s.apply k : ℤ) : ℚ) = (s.apply 1 : ℤ) * k := by
    cases s <;> simp [Sign.apply]
  by_cases hmax : e.toNat = 2047
  · have he : e = -1#11 := BitVec.eq_of_toNat_eq hmax
    rw [if_pos he, if_pos hmax]
    split_ifs <;> rfl
  · have he : e ≠ -1#11 := fun h => hmax (congrArg BitVec.toNat h)
    rw [if_neg he, if_neg hmax]
    by_cases hzero : e.toNat = 0
    · have he : e = 0#11 := BitVec.eq_of_toNat_eq hzero
      rw [if_pos he, if_pos hzero]
      by_cases hm : m = 0#52
      · rw [dif_pos hm, hm]
        simp [unpackedValue?]
      · rw [dif_neg hm, unpackedValue?, happly]
    · have he : e ≠ 0#11 := fun h => hzero (congrArg BitVec.toNat h)
      rw [if_neg he, if_neg hzero, unpackedValue?, happly]

theorem value?_ofFloat (x : Float) :
    (Binary64.ofFloat x).value? = unpackedValue? x.toModel.unpack := by
  have hcomponents :=
    @packComponents_unpackSign_unpackExponent_unpackMantissa .binary64 x.toModel.toBits.toBitVec
  set b : BitVec 64 := x.toModel.toBits.toBitVec with hb
  have hbits : x.toBits.toNat = b.toNat := rfl
  have hsign := toNat_unpackSign b
  have happly : (((Sign.ofBitVec (@unpackSign .binary64 b)).apply 1 : ℤ) : ℚ) =
      if b.toNat / 2 ^ 63 = 1 then -1 else 1 := by
    have hlt := b.isLt
    unfold Sign.ofBitVec
    by_cases hneg : b.toNat / 2 ^ 63 = 1
    · rw [if_pos hneg, if_neg]
      · rfl
      · intro h
        rw [h, hneg] at hsign
        exact absurd hsign (by decide)
    · rw [if_neg hneg, if_pos]
      · rfl
      · refine BitVec.eq_of_toNat_eq ?_
        rw [hsign]
        change _ = 0
        omega
  unfold Float.Model.unpack
  rw [← hb, ← hcomponents, unpackedValue?_components, toNat_unpackMantissa,
    toNat_unpackExponent, happly]
  exact value?_ofBits x.toBits

/-- **Twice a double** is twice its value, unless that is too large for a double. -/
theorem value?_mul_two (x : Float) :
    (Binary64.ofFloat (x * 2)).value? = (Binary64.ofFloat x).value?.bind fun v =>
      if |2 * v| < 2 ^ (1024 : ℤ) then some (2 * v) else none := by
  rw [value?_ofFloat, value?_ofFloat]
  exact unpackedValue?_mul_two x

end PlayerLookup.Decimal

namespace PlayerLookup.Amount

/-! ## Amounts -/

/-- The exact value of an amount, if it is a number. -/
def value? : Amount → Option ℚ
  | .whole n => some n
  | .real x => (Decimal.Binary64.ofFloat x).value?
  | .flag b => some (ofFlag b)

/-- An amount in this form is large enough for a value: doubles are limited. -/
def CanHold : Amount → ℚ → Prop
  | .real _, v => |v| < 2 ^ (1024 : ℤ)
  | .whole _, _ => True
  | .flag _, _ => True

theorem canHold_twice (a : Amount) {v : ℚ} (h : a.CanHold v) : a.twice.CanHold v := by
  cases a <;> exact h

theorem CanHold.of_abs_le {a : Amount} {v w : ℚ} (h : a.CanHold w) (hle : |v| ≤ |w|) :
    a.CanHold v := by
  cases a with
  | whole n => exact h
  | flag b => exact h
  | real x => exact lt_of_le_of_lt hle h

theorem value?_twice {a : Amount} {v : ℚ} (h : a.value? = some v) (hold : a.CanHold (2 * v)) :
    a.twice.value? = some (2 * v) := by
  cases a with
  | whole n =>
    obtain rfl := Option.some.inj h
    change some (((2 * n : ℤ) : ℚ)) = _
    rw [Int.cast_mul, Int.cast_ofNat]
  | flag b =>
    obtain rfl := Option.some.inj h
    change some (((2 * ofFlag b : ℤ) : ℚ)) = _
    rw [Int.cast_mul, Int.cast_ofNat]
  | real x =>
    change (Decimal.Binary64.ofFloat x).value? = some v at h
    change (Decimal.Binary64.ofFloat (x * 2)).value? = _
    rw [Decimal.value?_mul_two, h]
    exact if_pos hold

theorem value?_iterate_twice {a : Amount} {v : ℚ} (h : a.value? = some v) (i : Nat)
    (hold : a.CanHold (2 ^ i * v)) : (twice^[i] a).value? = some (2 ^ i * v) := by
  induction i generalizing a v with
  | zero =>
    rw [pow_zero, one_mul]
    exact h
  | succ i ih =>
    have hone : (1 : ℚ) ≤ 2 ^ i := one_le_pow₀ one_le_two
    have hnext : a.twice.value? = some (2 * v) := by
      refine value?_twice h (hold.of_abs_le ?_)
      rw [pow_succ, mul_assoc, abs_mul (2 ^ i)]
      exact le_mul_of_one_le_left (abs_nonneg _) (hone.trans (le_abs_self _))
    have hshift : (2 : ℚ) ^ (i + 1) * v = 2 ^ i * (2 * v) := by ring
    rw [hshift] at hold ⊢
    exact ih hnext (canHold_twice a hold)

/-- Amounts taken together, if all of them are numbers. -/
def total? : List Amount → Option ℚ
  | [] => some 0
  | a :: rest => do return (← a.value?) + (← total? rest)

theorem total?_map {ι : Type} {f : ι → Amount} {g : ι → ℚ} {items : List ι}
    (h : ∀ i ∈ items, (f i).value? = some (g i)) :
    total? (items.map f) = some ((items.map g).sum) := by
  induction items with
  | nil => rfl
  | cons i rest ih =>
    have hrest := ih fun j hj => h j (List.mem_cons_of_mem i hj)
    rw [List.map_cons, total?, h i List.mem_cons_self, hrest, List.map_cons, List.sum_cons]
    rfl

theorem sum_doubled (v : ℚ) (k : Nat) :
    ((List.range k).map fun i => 2 ^ i * v).sum = v * (2 ^ k - 1) := by
  induction k with
  | zero => simp
  | succ k ih =>
    rw [List.range_succ, List.map_append, List.sum_append, ih, List.map_singleton,
      List.sum_singleton]
    ring

theorem total?_doubled {a : Amount} {v : ℚ} (h : a.value? = some v) {k : Nat}
    (hold : ∀ i < k, a.CanHold (2 ^ i * v)) :
    total? ((List.range k).map fun i => twice^[i] a) = some (v * (2 ^ k - 1)) := by
  rw [total?_map fun i hi => value?_iterate_twice h i (hold i (List.mem_range.mp hi)),
    sum_doubled]

end PlayerLookup.Amount
