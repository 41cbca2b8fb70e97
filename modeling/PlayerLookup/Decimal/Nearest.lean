import PlayerLookup.Decimal.Binary64

/-! The double nearest to an exact fraction, ties to the even mantissa, and the reading of decimal
text into doubles. Too large a fraction becomes infinite. -/

set_option autoImplicit false

namespace PlayerLookup.Decimal

/-- The exponent `e` with `2 ^ e ≤ a < 2 ^ (e + 1)`, for a positive fraction. -/
def Ratio.binaryExponent (a : Ratio) : Int :=
  let e : Int := (Nat.log2 a.num : Int) - Nat.log2 a.den
  if (Ratio.scaled 2 1 e).le a then e else e - 1

/-- The bit pattern of the nearest double, without the sign. The mantissa is added to the shifted
exponent, so that rounding up to the next power of two carries into the exponent by itself. -/
def Ratio.nearestBits (a : Ratio) : Nat :=
  if a.num = 0 then 0
  else
    let unit := max (a.binaryExponent - 52) (-1074)
    let mantissa := (a.mul (Ratio.scaled 2 1 (-unit))).round
    let bits := (unit + 1074).toNat * Nat.pow 2 52 + mantissa
    min bits (2047 * Nat.pow 2 52)

def Ratio.nearest (negative : Bool) (a : Ratio) : Float :=
  let bits := a.nearestBits
  Float.ofBits (UInt64.ofNat (if negative then bits + Nat.pow 2 63 else bits))

def ofInt (n : Int) : Float := (Ratio.mk n.natAbs 1).nearest (n < 0)

/-- `digits * 10 ^ exponent` as a double. Beyond four hundred places either way the answer no
longer depends on the exponent. -/
def ofDigits (negative : Bool) (digits : Nat) (exponent : Int) : Float :=
  let size : Int := digitCount digits
  if digits = 0 ∨ exponent + size < -400 then (Ratio.mk 0 1).nearest negative
  else if 400 < exponent + size then (Ratio.mk (Nat.pow 10 400) 1).nearest negative
  else (Ratio.scaled 10 digits exponent).nearest negative

def natOfDigits (cs : List Char) : Nat :=
  cs.foldl (fun n c => 10 * n + (c.toNat - 48)) 0

end PlayerLookup.Decimal
