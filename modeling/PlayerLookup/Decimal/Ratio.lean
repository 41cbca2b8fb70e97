/-! Exact non-negative fractions, the roundings of them to whole numbers, and the decimal exponent
of a fraction. All decimal text is computed from these. -/

set_option autoImplicit false

namespace PlayerLookup.Decimal

/-- The fraction `num / den`; `den` is positive. -/
structure Ratio where
  num : Nat
  den : Nat

/-- `m` times a power of `base`, which may be negative. -/
def Ratio.scaled (base m : Nat) (e : Int) : Ratio :=
  match e with
  | .ofNat k => ⟨m * Nat.pow base k, 1⟩
  | .negSucc k => ⟨m, Nat.pow base (k + 1)⟩

def Ratio.mul (a b : Ratio) : Ratio := ⟨a.num * b.num, a.den * b.den⟩

def Ratio.le (a b : Ratio) : Bool := a.num * b.den ≤ b.num * a.den

def Ratio.lt (a b : Ratio) : Bool := a.num * b.den < b.num * a.den

/-- The nearest whole number; a half goes to the even neighbour. -/
def roundHalfEven (num den : Nat) : Nat :=
  let q := num / den
  let r := num % den
  if 2 * r < den then q
  else if den < 2 * r then q + 1
  else if q % 2 = 0 then q else q + 1

/-- The nearest whole number; a half goes to the even neighbour. -/
def Ratio.round (a : Ratio) : Nat := roundHalfEven a.num a.den

def Ratio.floor (a : Ratio) : Nat := a.num / a.den

def digitCount (n : Nat) : Nat := (Nat.repr n).length

/-- The exponent `e` with `10 ^ e ≤ a < 10 ^ (e + 1)`, for a positive fraction: the digit counts
of its parts leave two candidates. -/
def Ratio.decimalExponent (a : Ratio) : Int :=
  let e : Int := digitCount a.num - digitCount a.den
  if (Ratio.scaled 10 1 e).le a then e else e - 1

/-- The first `count` significant digits, rounded, as one number, and the exponent of the first
digit. -/
def Ratio.significant (a : Ratio) (count : Nat) : Nat × Int :=
  let e := a.decimalExponent
  let d := (a.mul (Ratio.scaled 10 1 (count - 1 - e))).round
  if d = Nat.pow 10 count then (Nat.pow 10 (count - 1), e + 1) else (d, e)

def padded (width n : Nat) : String :=
  let s := Nat.repr n
  String.ofList (List.replicate (width - s.length) '0') ++ s

/-- A fraction with a fixed number of places after the point; a half goes to the even digit. -/
def Ratio.fixed (a : Ratio) (places : Nat) : String :=
  let n := (a.mul ⟨Nat.pow 10 places, 1⟩).round
  let whole := Nat.repr (n / Nat.pow 10 places)
  if places = 0 then whole else whole ++ "." ++ padded places (n % Nat.pow 10 places)

end PlayerLookup.Decimal
