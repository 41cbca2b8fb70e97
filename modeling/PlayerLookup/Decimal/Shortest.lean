import PlayerLookup.Decimal.Binary64

/-! The shortest decimal that reads back as a given double. On the grid of decimals with a given
number of digits only the two neighbours of the value can do so first; the coarsest grid on which
one of them does gives the length, and the nearer of them the digits. -/

set_option autoImplicit false

namespace PlayerLookup.Decimal

/-- The neighbours of the value among the decimals of `count` digits that read back, nearer one
first: digits as one number, and the exponent of the last digit. -/
def Magnitude.candidates (m : Magnitude) (count : Nat) : List (Nat × Int) :=
  let v := m.ratio
  let unit : Int := v.decimalExponent - count + 1
  let scaled := v.mul (Ratio.scaled 10 1 (-unit))
  let below := scaled.floor
  let nearest := scaled.round
  let other := if nearest = below then below + 1 else below
  [nearest, other].filterMap fun d =>
    if m.readsBack (Ratio.scaled 10 d unit) then some (d, unit) else none

/-- The first hit, trying ever finer grids; seventeen digits always suffice. -/
def Magnitude.shortestFrom (m : Magnitude) : (tries count : Nat) → Nat × Int
  | 0, _ => (m.mantissa, m.exponent)
  | tries + 1, count =>
    match m.candidates count with
    | hit :: _ => hit
    | [] => m.shortestFrom tries (count + 1)

/-- Digits without a trailing zero, and the exponent of the last one. -/
def Magnitude.shortest (m : Magnitude) : Nat × Int :=
  m.shortestFrom 17 1

end PlayerLookup.Decimal
