import Mathlib

/-! Doubles as they are packed into 64 bits. A mantissa and an exponent that are those of a double
come back from packing as they were, but for an exponent that is too large: that gives an
infinity. -/

set_option autoImplicit false

namespace PlayerLookup.Decimal

open Float.Model Float.Model.UnpackedFloat

/-- A mantissa of 53 bits, or of fewer where the exponent is the least. -/
structure Canonical (m : Nat) (e : ℤ) : Prop where
  lt : m < 2 ^ 53
  leading : 2 ^ 52 ≤ m ∨ e = -1074
  least_le : -1074 ≤ e

theorem toNat_implicit (f : BitVec 52) : (1#1 ++ f).toNat = 2 ^ 52 + f.toNat := by
  rw [BitVec.toNat_append, ← Nat.shiftLeft_add_eq_or_of_lt f.isLt]
  rfl

theorem finite_congr (s : Sign) {m m' : Nat} {e e' : ℤ} {hm : 0 < m} {hm' : 0 < m'} (h : m = m')
    (he : e = e') : UnpackedFloat.finite s m e hm = .finite s m' e' hm' := by
  subst h he
  rfl

theorem log2_eq {m : Nat} (hlow : 2 ^ 52 ≤ m) (hhigh : m < 2 ^ 53) : m.log2 = 52 :=
  (Nat.log2_eq_iff (by omega)).mpr ⟨hlow, hhigh⟩

theorem unpack_components (s : Sign) (e : BitVec 11) (m : BitVec 52) :
    unpack .binary64 (packComponents .binary64 s e m) =
      if e = -1#11 then if m = 0#52 then .infinity s else .notANumber
      else if e = 0#11 then
        if h : m = 0#52 then .zero s
        else .finite s m.toNat (-1074) (Nat.pos_of_ne_zero fun h0 => h (BitVec.eq_of_toNat_eq h0))
      else .finite s (2 ^ 52 + m.toNat) (e.toNat - 1075) (by omega) := by
  unfold UnpackedFloat.unpack
  simp only [unpackMantissa_packComponents, unpackExponent_packComponents,
    unpackSign_packComponents, Sign.ofBitVec_toBitVec]
  split_ifs with h1 h2 h3 h4
  · rfl
  · rfl
  · rfl
  · subst h3
    rfl
  · congr 1
    exact toNat_implicit m

theorem pack_finite (s : Sign) {m : Nat} {e : ℤ} (hm : 0 < m) (h : Canonical m e) :
    UnpackedFloat.pack .binary64 (.finite s m e hm) =
      if 972 ≤ e then packedInfinity .binary64 s
      else packComponents .binary64 s
        (if 2 ^ 52 ≤ m then BitVec.ofNat 11 (e + 1075).toNat else 0#11) (BitVec.ofNat 52 m) := by
  obtain ⟨hhigh, hlow, he⟩ := h
  have hbias : e + (Format.exponentBias .binary64 : ℤ) +
      (Format.mantissaBitsWithoutImplicit .binary64 : ℤ) = e + 1075 := by
    change e + 1023 + 52 = _
    ring
  unfold UnpackedFloat.pack
  simp only [hbias]
  by_cases hover : 972 ≤ e
  · rw [if_pos hover, if_pos]
    omega
  · rw [if_neg hover, if_neg]
    · by_cases hn : 2 ^ 52 ≤ m
      · rw [if_pos hn, log2_eq hn hhigh]
        rfl
      · rw [if_neg hn, if_neg]
        have hlog : m.log2 < 52 := (Nat.log2_lt hm.ne').mpr (by omega)
        change ¬ m.log2 + 1 = 1 + 52
        omega
    · omega

theorem unpack_pack_finite (s : Sign) {m : Nat} {e : ℤ} (hm : 0 < m) (h : Canonical m e) :
    UnpackedFloat.unpack .binary64 (UnpackedFloat.pack .binary64 (.finite s m e hm)) =
      if 972 ≤ e then .infinity s else .finite s m e hm := by
  rw [pack_finite s hm h]
  obtain ⟨hhigh, hlow, he⟩ := h
  by_cases hover : 972 ≤ e
  · rw [if_pos hover, if_pos hover, packedInfinity, unpack_components, if_pos rfl]
    rfl
  · rw [if_neg hover, if_neg hover, unpack_components]
    by_cases hn : 2 ^ 52 ≤ m
    · have hexp : (BitVec.ofNat 11 (e + 1075).toNat).toNat = (e + 1075).toNat := by
        rw [BitVec.toNat_ofNat, Nat.mod_eq_of_lt (by omega)]
      have hfrac : (BitVec.ofNat 52 m).toNat = m - 2 ^ 52 := by
        rw [BitVec.toNat_ofNat]
        omega
      have hmax : BitVec.ofNat 11 (e + 1075).toNat ≠ -1#11 := by
        intro h
        have := congrArg BitVec.toNat h
        rw [hexp] at this
        change (e + 1075).toNat = 2047 at this
        omega
      have hzero : BitVec.ofNat 11 (e + 1075).toNat ≠ 0#11 := by
        intro h
        have := congrArg BitVec.toNat h
        rw [hexp] at this
        change (e + 1075).toNat = 0 at this
        omega
      rw [if_pos hn, if_neg hmax, if_neg hzero]
      refine finite_congr s ?_ ?_
      · rw [hfrac, Nat.add_sub_cancel' hn]
      · rw [hexp]
        omega
    · have hfrac : (BitVec.ofNat 52 m).toNat = m := by
        rw [BitVec.toNat_ofNat, Nat.mod_eq_of_lt (by omega)]
      have hzero : BitVec.ofNat 52 m ≠ 0#52 := by
        intro h
        have := congrArg BitVec.toNat h
        rw [hfrac] at this
        exact hm.ne' this
      have hmax : (0#11 : BitVec 11) ≠ -1#11 := by decide
      rw [if_neg hn, if_neg hmax, if_pos rfl, dif_neg hzero]
      exact finite_congr s hfrac (hlow.resolve_left hn).symm

/-! ## Taking apart -/

theorem toNat_unpackMantissa (b : BitVec 64) :
    (@unpackMantissa .binary64 b).toNat = b.toNat % 2 ^ 52 := by
  rw [unpackMantissa_def, BitVec.extractLsb'_toNat, Nat.shiftRight_zero]

theorem toNat_unpackExponent (b : BitVec 64) :
    (@unpackExponent .binary64 b).toNat = b.toNat / 2 ^ 52 % 2 ^ 11 := by
  rw [unpackExponent_def, BitVec.extractLsb'_toNat, Nat.shiftRight_eq_div_pow]

theorem toNat_unpackSign (b : BitVec 64) :
    (@unpackSign .binary64 b).toNat = b.toNat / 2 ^ 63 % 2 ^ 1 := by
  rw [unpackSign_def, BitVec.extractLsb'_toNat, Nat.shiftRight_eq_div_pow]
  rfl

theorem canonical_of_unpack {b : BitVec 64} {s : Sign} {m : Nat} {e : ℤ} {hm : 0 < m}
    (h : unpack .binary64 b = .finite s m e hm) : Canonical m e ∧ e < 972 := by
  have hcomponents :=
    @packComponents_unpackSign_unpackExponent_unpackMantissa .binary64 b
  rw [← hcomponents, unpack_components] at h
  set ev := @unpackExponent .binary64 b
  set mv := @unpackMantissa .binary64 b
  have hmv : mv.toNat < 2 ^ 52 := mv.isLt
  have hev : ev.toNat < 2 ^ 11 := ev.isLt
  split_ifs at h with h1 h2 h3 h4
  · cases h
    exact ⟨⟨by omega, Or.inr rfl, by omega⟩, by omega⟩
  · have hne : ev.toNat ≠ 2047 := fun h => h1 (BitVec.eq_of_toNat_eq h)
    have hpos : ev.toNat ≠ 0 := fun h => h3 (BitVec.eq_of_toNat_eq h)
    cases h
    exact ⟨⟨by omega, Or.inl (by omega), by omega⟩, by omega⟩

theorem isInf_unpack (b : BitVec 64) :
    (unpack .binary64 b).isInf = true ↔
      b.toNat / 2 ^ 52 % 2 ^ 11 = 2047 ∧ b.toNat % 2 ^ 52 = 0 := by
  have hcomponents :=
    @packComponents_unpackSign_unpackExponent_unpackMantissa .binary64 b
  have hev : (@unpackExponent .binary64 b).toNat = 2047 ↔
      @unpackExponent .binary64 b = -1#11 :=
    ⟨fun h => BitVec.eq_of_toNat_eq h, fun h => by rw [h]; rfl⟩
  have hmv : (@unpackMantissa .binary64 b).toNat = 0 ↔
      @unpackMantissa .binary64 b = 0#52 :=
    ⟨fun h => BitVec.eq_of_toNat_eq h, fun h => by rw [h]; rfl⟩
  rw [← toNat_unpackExponent, ← toNat_unpackMantissa, hev, hmv]
  conv_lhs => rw [← hcomponents, unpack_components]
  split_ifs <;> simp_all [UnpackedFloat.isInf]

theorem isInf_ofBits (bits : UInt64) :
    (Float.ofBits bits).isInf = (unpack .binary64 bits.toBitVec).isInf := by
  -- The bits are taken apart and packed again, which changes at most those of no number at all.
  have hbits : (Float.ofBits bits).isInf =
      (unpack .binary64 (pack .binary64 (unpack .binary64 bits.toBitVec))).isInf := rfl
  rw [hbits]
  cases hu : unpack .binary64 bits.toBitVec with
  | notANumber => rfl
  | infinity s => cases s <;> rfl
  | zero s => cases s <;> rfl
  | finite s m e hm =>
    obtain ⟨hcanonical, he⟩ := canonical_of_unpack hu
    rw [unpack_pack_finite s hm hcanonical, if_neg (by omega)]

end PlayerLookup.Decimal
