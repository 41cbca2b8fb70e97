import Mathlib.Algebra.Group.Nat.Defs
import Mathlib.Data.List.Basic
import Mathlib.Data.List.Induction
import PlayerLookup.PlayerId

/-! Hexadecimal digits: what they are told from, and that the digits written for a number read back
as that number. -/

set_option autoImplicit false

namespace PlayerLookup.PlayerId

open Text

theorem isHexDigit_iff (c : Char) :
    isHexDigit c = true ↔ (48 ≤ c.toNat ∧ c.toNat ≤ 57) ∨ (97 ≤ c.toNat ∧ c.toNat ≤ 102) ∨
      (65 ≤ c.toNat ∧ c.toNat ≤ 70) := by
  unfold isHexDigit hexValue?
  dsimp only
  split_ifs with h1 h2 h3
  · simp [h1]
  · simp [h2]
  · simp [h3]
  · simp only [Option.isSome_none, Bool.false_eq_true, false_iff]
    omega

theorem ne_of_isHexDigit {c d : Char} (hc : isHexDigit c = true) (hd : isHexDigit d = false) :
    c ≠ d := by
  rintro rfl
  rw [hc] at hd
  exact absurd hd (by simp)

theorem hexValue?_hexDigit : ∀ n < 16, hexValue? (hexDigit n) = some n := by decide

theorem isHexDigit_hexDigit {n : Nat} (h : n < 16) : isHexDigit (hexDigit n) = true := by
  rw [isHexDigit, hexValue?_hexDigit n h]
  rfl

theorem length_hexPadded (w n : Nat) : (hexPadded w n).length = w := by
  induction w generalizing n with
  | zero => rfl
  | succ w ih => rw [hexPadded, List.length_append, ih, List.length_singleton]

theorem exists_of_mem_hexPadded {w n : Nat} {c : Char} (h : c ∈ hexPadded w n) :
    ∃ k < 16, c = hexDigit k := by
  induction w generalizing n with
  | zero => simp [hexPadded] at h
  | succ w ih =>
    rw [hexPadded, List.mem_append, List.mem_singleton] at h
    rcases h with h | rfl
    · exact ih h
    · exact ⟨n % 16, Nat.mod_lt n (by omega), rfl⟩

theorem isHexDigit_of_mem_hexPadded {w n : Nat} {c : Char} (h : c ∈ hexPadded w n) :
    isHexDigit c = true := by
  obtain ⟨k, hk, rfl⟩ := exists_of_mem_hexPadded h
  exact isHexDigit_hexDigit hk

theorem natOfHex_concat (cs : List Char) (c : Char) :
    natOfHex (cs ++ [c]) = 16 * natOfHex cs + (hexValue? c).getD 0 := by
  rw [natOfHex, List.foldl_append]
  rfl

theorem natOfHex_hexPadded (w n : Nat) : natOfHex (hexPadded w n) = n % 16 ^ w := by
  induction w generalizing n with
  | zero => simp [hexPadded, natOfHex, Nat.mod_one]
  | succ w ih =>
    have hsplit : n % (16 * 16 ^ w) = n % 16 + 16 * (n / 16 % 16 ^ w) := Nat.mod_mul
    rw [hexPadded, natOfHex_concat, ih, hexValue?_hexDigit _ (Nat.mod_lt n (by omega)),
      Nat.pow_succ', hsplit, Option.getD_some]
    omega

/-- What holds of every digit can be seen from the characters up to the last of them. -/
theorem forall_isHexDigit {P : Char → Prop}
    (h : ∀ n < 103, isHexDigit (Char.ofNat n) = true → P (Char.ofNat n)) {c : Char}
    (hc : isHexDigit c = true) : P c := by
  have hlt : c.toNat < 103 := by
    rw [isHexDigit_iff] at hc
    omega
  have hsame : Char.ofNat c.toNat = c := Char.ofNat_toNat c
  have hP := h c.toNat hlt
  rw [hsame] at hP
  exact hP hc

theorem hexDigit_hexValue? {c : Char} (h : isHexDigit c = true) :
    hexDigit ((hexValue? c).getD 0) = c.toLower :=
  forall_isHexDigit (P := fun c => hexDigit ((hexValue? c).getD 0) = c.toLower) (by decide) h

theorem hexValue?_lt {c : Char} (h : isHexDigit c = true) : (hexValue? c).getD 0 < 16 :=
  forall_isHexDigit (P := fun c => (hexValue? c).getD 0 < 16) (by decide) h

theorem natOfHex_lt {cs : List Char} (h : ∀ c ∈ cs, isHexDigit c = true) :
    natOfHex cs < 16 ^ cs.length := by
  induction cs using List.reverseRecOn with
  | nil => simp [natOfHex]
  | append_singleton cs c ih =>
    have hlt := hexValue?_lt (h c (by simp))
    have hcs := ih fun d hd => h d (List.mem_append_left _ hd)
    rw [natOfHex_concat, List.length_append, List.length_singleton, Nat.pow_succ]
    omega

theorem hexPadded_natOfHex {cs : List Char} (h : ∀ c ∈ cs, isHexDigit c = true) :
    hexPadded cs.length (natOfHex cs) = cs.map Char.toLower := by
  induction cs using List.reverseRecOn with
  | nil => rfl
  | append_singleton cs c ih =>
    have hc : isHexDigit c = true := h c (by simp)
    have hcs : ∀ d ∈ cs, isHexDigit d = true := fun d hd => h d (List.mem_append_left _ hd)
    have hlt := hexValue?_lt hc
    have hdiv : (16 * natOfHex cs + (hexValue? c).getD 0) / 16 = natOfHex cs := by omega
    have hmod : (16 * natOfHex cs + (hexValue? c).getD 0) % 16 = (hexValue? c).getD 0 := by omega
    rw [natOfHex_concat, List.length_append, List.length_singleton, hexPadded, hdiv, hmod, ih hcs,
      hexDigit_hexValue? hc, List.map_append, List.map_singleton]

/-! ## The digits of an id -/

theorem length_digits (id : PlayerId) : id.digits.length = digitCount :=
  length_hexPadded digitCount id.bits.toNat

theorem isHexDigit_of_mem_digits {id : PlayerId} {c : Char} (h : c ∈ id.digits) :
    isHexDigit c = true := isHexDigit_of_mem_hexPadded h

theorem natOfHex_digits (id : PlayerId) : natOfHex id.digits = id.bits.toNat := by
  rw [digits, natOfHex_hexPadded]
  have hlt : id.bits.toNat < 2 ^ 128 := id.bits.isLt
  exact Nat.mod_eq_of_lt (by simpa [digitCount] using hlt)

theorem digits_injective {id id' : PlayerId} (h : id.digits = id'.digits) : id = id' := by
  have hvalue : id.bits.toNat = id'.bits.toNat := by
    rw [← natOfHex_digits, ← natOfHex_digits, h]
  have hbits : id.bits = id'.bits := BitVec.eq_of_toNat_eq hvalue
  cases id
  cases id'
  exact congrArg PlayerId.mk hbits

theorem digits_ofNat_natOfHex {cs : List Char} (hlen : cs.length = digitCount)
    (h : ∀ c ∈ cs, isHexDigit c = true) :
    digits ⟨BitVec.ofNat 128 (natOfHex cs)⟩ = cs.map Char.toLower := by
  have hlt : natOfHex cs < 2 ^ 128 := by
    have hlt := natOfHex_lt h
    rw [hlen] at hlt
    exact hlt
  rw [digits, BitVec.toNat_ofNat, Nat.mod_eq_of_lt hlt, ← hlen, hexPadded_natOfHex h]

/-! ## Dashes -/

theorem withoutDashes_eq_self {cs : List Char} (h : ∀ c ∈ cs, isHexDigit c = true) :
    withoutDashes cs = cs := by
  refine List.filter_eq_self.mpr fun c hc => ?_
  exact bne_iff_ne.mpr (ne_of_isHexDigit (h c hc) (by decide))

theorem withoutDashes_append (as bs : List Char) :
    withoutDashes (as ++ bs) = withoutDashes as ++ withoutDashes bs := List.filter_append ..

theorem withoutDashes_dash (cs : List Char) : withoutDashes ('-' :: cs) = withoutDashes cs := rfl

theorem withoutDashes_grouped {cs : List Char} (hlen : cs.length = digitCount)
    (h : ∀ c ∈ cs, isHexDigit c = true) : withoutDashes (grouped cs) = cs := by
  have hpart : ∀ a b, withoutDashes ((cs.drop a).take b) = (cs.drop a).take b := fun a b =>
    withoutDashes_eq_self fun c hc => h c (List.mem_of_mem_drop (List.mem_of_mem_take hc))
  have hfirst : withoutDashes (cs.take 8) = cs.take 8 :=
    withoutDashes_eq_self fun c hc => h c (List.mem_of_mem_take hc)
  have hlast : (cs.drop 20).take 12 = cs.drop 20 := by
    refine List.take_of_length_le ?_
    rw [List.length_drop, hlen]
    decide
  have hjoin : ∀ a b, (cs.drop a).take b ++ cs.drop (a + b) = cs.drop a := by
    intro a b
    rw [← List.drop_drop, List.take_append_drop]
  have h16 : (cs.drop 16).take 4 ++ cs.drop 20 = cs.drop 16 := hjoin 16 4
  have h12 : (cs.drop 12).take 4 ++ cs.drop 16 = cs.drop 12 := hjoin 12 4
  have h8 : (cs.drop 8).take 4 ++ cs.drop 12 = cs.drop 8 := hjoin 8 4
  simp only [grouped, List.append_assoc, List.cons_append, withoutDashes_append,
    withoutDashes_dash, hpart, hfirst]
  rw [hlast, h16, h12, h8, List.take_append_drop]

theorem mem_grouped {cs : List Char} {c : Char} (h : c ∈ grouped cs) : c = '-' ∨ c ∈ cs := by
  have hpart : ∀ a b, c ∈ (cs.drop a).take b → c ∈ cs := fun a b hc =>
    List.mem_of_mem_drop (List.mem_of_mem_take hc)
  simp only [grouped, List.append_assoc, List.cons_append, List.mem_append, List.mem_cons] at h
  rcases h with h | h | h | h | h | h | h | h | h
  · exact Or.inr (List.mem_of_mem_take h)
  all_goals first | exact Or.inl h | exact Or.inr (hpart _ _ h)

end PlayerLookup.PlayerId
