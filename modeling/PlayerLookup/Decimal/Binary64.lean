import PlayerLookup.Decimal.Ratio

/-! Double-precision numbers taken apart: sign, and either an exact magnitude, an infinity or no
number at all. -/

set_option autoImplicit false

namespace PlayerLookup.Decimal

/-- The magnitude `mantissa * 2 ^ exponent`. At the bottom of a binade the gap to the next smaller
double is half the gap to the next larger one. -/
structure Magnitude where
  mantissa : Nat
  exponent : Int
  bottom : Bool

/-- The three kinds of double. -/
inductive Binary64 where
  | finite (negative : Bool) (magnitude : Magnitude)
  | infinite (negative : Bool)
  | notNumber

def Binary64.ofBits (bits : UInt64) : Binary64 :=
  let n := bits.toNat
  let negative := n / Nat.pow 2 63 = 1
  let power : Nat := n / Nat.pow 2 52 % Nat.pow 2 11
  let fraction : Nat := n % Nat.pow 2 52
  if power = 2047 then if fraction = 0 then .infinite negative else .notNumber
  else if power = 0 then .finite negative ⟨fraction, -1074, false⟩
  else .finite negative ⟨Nat.pow 2 52 + fraction, (power : Int) - 1075, fraction = 0 ∧ 1 < power⟩

def Binary64.ofFloat (x : Float) : Binary64 := .ofBits x.toBits

def Magnitude.ratio (m : Magnitude) : Ratio := .scaled 2 m.mantissa m.exponent

/-- Half-way points to the neighbouring doubles: every number strictly between them reads back as
this double, and they themselves do when the mantissa is even. -/
def Magnitude.bounds (m : Magnitude) : Ratio × Ratio :=
  let low := 4 * m.mantissa - if m.bottom then 1 else 2
  (.scaled 2 low (m.exponent - 2), .scaled 2 (4 * m.mantissa + 2) (m.exponent - 2))

def Magnitude.readsBack (m : Magnitude) (a : Ratio) : Bool :=
  let (low, high) := m.bounds
  if m.mantissa % 2 = 0 then low.le a && a.le high else low.lt a && a.lt high

end PlayerLookup.Decimal
