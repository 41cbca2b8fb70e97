import PlayerLookup.Decimal.Nearest
import PlayerLookup.Document

/-! Amounts: numbers that a caller gives as a whole number, a real one or a flag, and that keep
that form when they are doubled or shown. Comparison is by value, and no order holds with a real
that is not a number. -/

set_option autoImplicit false

namespace PlayerLookup

/-- A number in the form in which it was given. -/
inductive Amount where
  | whole (value : Int)
  | real (value : Float)
  | flag (value : Bool)

namespace Amount

def ofFlag (b : Bool) : Int := if b then 1 else 0

def isNegative : Amount → Bool
  | .whole n => n < 0
  | .real x => x < 0
  | .flag _ => false

def isNotPositive : Amount → Bool
  | .whole n => n ≤ 0
  | .real x => x ≤ 0
  | .flag b => !b

/-- Twice the amount; a whole number stays whole. -/
def twice : Amount → Amount
  | .whole n => .whole (2 * n)
  | .real x => .real (x * 2)
  | .flag b => .whole (2 * ofFlag b)

def document : Amount → Document
  | .whole n => .int n
  | .real x => .real x
  | .flag b => .bool b

def text (a : Amount) : String := a.document.display

/-- The amount with three places after the point. A whole number too large for a double has no
such form. -/
def threePlaces? : Amount → Option String
  | .real x => some (Decimal.fixedText 3 x)
  | .whole n =>
    let x := Decimal.ofInt n
    if x.isInf then none else some (Decimal.fixedText 3 x)
  | .flag b => some (Decimal.fixedText 3 (Decimal.ofInt (ofFlag b)))

end Amount

end PlayerLookup
