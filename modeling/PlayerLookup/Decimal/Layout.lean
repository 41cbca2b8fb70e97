import PlayerLookup.Decimal.Shortest

/-! The written forms of doubles: the plain form that messages use, a fixed number of places, and
the general form with a given precision. -/

set_option autoImplicit false

namespace PlayerLookup.Decimal

/-- How the plain form is laid out. -/
structure Layout where
  /-- Exponents of the first digit that are written without an exponent. -/
  positionalFrom : Int
  positionalBelow : Int
  exponentDigits : Nat

/-- Plain form: positional from 0.0001 up to below 10 ^ 16, at least one place after the point. -/
def plain : Layout := ⟨-4, 16, 2⟩

def exponentText (minDigits : Nat) (e : Int) : String :=
  (if e < 0 then "e-" else "e+") ++ padded minDigits e.natAbs

def pointAfterFirst (digits : String) : String :=
  let cs := digits.toList
  if cs.length ≤ 1 then digits else String.ofList (cs.take 1 ++ '.' :: cs.drop 1)

/-- Digits with the point where exponent `e` of the first digit puts it. -/
def positional (digits : String) (e : Int) : String :=
  let cs := digits.toList
  if e < 0 then "0." ++ String.ofList (List.replicate (-e - 1).toNat '0' ++ cs)
  else
    let whole := e.toNat + 1
    let pad := List.replicate (whole - cs.length) '0'
    String.ofList (cs.take whole ++ pad) ++ "."
      ++ (if cs.length ≤ whole then "0" else String.ofList (cs.drop whole))

def signed (negative : Bool) (s : String) : String := if negative then "-" ++ s else s

def Magnitude.plainText (m : Magnitude) : String :=
  if m.mantissa = 0 then "0.0"
  else
    let (d, unit) := m.shortest
    let digits := Nat.repr d
    let e : Int := unit + digits.length - 1
    if plain.positionalFrom ≤ e ∧ e < plain.positionalBelow then positional digits e
    else
      let kept := String.ofList (digits.toList.reverse.dropWhile (· == '0')).reverse
      pointAfterFirst kept ++ exponentText plain.exponentDigits e

def plainText (x : Float) : String :=
  match Binary64.ofFloat x with
  | .notNumber => "nan"
  | .infinite negative => signed negative "inf"
  | .finite negative m => signed negative m.plainText

def fixedText (places : Nat) (x : Float) : String :=
  match Binary64.ofFloat x with
  | .notNumber => "nan"
  | .infinite negative => signed negative "inf"
  | .finite negative m => signed negative (m.ratio.fixed places)

/-- Digits of a magnitude to a precision, with the exponent of the first. -/
def Magnitude.digits (m : Magnitude) (count : Nat) : String × Int :=
  if m.mantissa = 0 then (padded count 0, 0)
  else
    let (d, e) := m.ratio.significant count
    (padded count d, e)

/-- Digits without zeros at the end; the first digit stays. -/
def dropTrailingZeros (digits : String) : String :=
  match digits.toList with
  | [] => digits
  | c :: rest => String.ofList (c :: (rest.reverse.dropWhile (· == '0')).reverse)

/-- `count` significant digits, positional or scientific by the exponent, no trailing zeros. -/
def Magnitude.generalText (m : Magnitude) (count : Nat) : String :=
  let count := max count 1
  let (digits, e) := m.digits count
  let kept := dropTrailingZeros digits
  if -4 ≤ e ∧ e < count then
    let text := positional kept e
    if kept.length ≤ (e + 1).toNat then String.ofList (text.toList.take (text.length - 2)) else text
  else pointAfterFirst kept ++ exponentText 2 e

/-- Applies a form to finite magnitudes and keeps the texts of the other doubles. -/
def textBy (form : Magnitude → String) (x : Float) : String :=
  match Binary64.ofFloat x with
  | .notNumber => "nan"
  | .infinite negative => signed negative "inf"
  | .finite negative m => signed negative (form m)

end PlayerLookup.Decimal
