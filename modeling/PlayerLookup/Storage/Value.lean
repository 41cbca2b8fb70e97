import PlayerLookup.Decimal.Layout
import PlayerLookup.Decimal.Nearest
import PlayerLookup.Text.Quoted

/-! Values in the rows of a stored table, and the conversion of numbers that a text column makes
when a value is stored in it. -/

set_option autoImplicit false

namespace PlayerLookup.Storage

/-- A stored value. -/
inductive Value where
  | null
  | int (value : Int)
  | real (value : Float)
  | text (value : String)
  | blob (bytes : List UInt8)

namespace Value

/-- Whether two values are in conflict in a unique column: equal, and not null. -/
def conflicts : Value → Value → Bool
  | .int m, .int n => m == n
  | .real x, .real y => x == y
  | .int m, .real y => Decimal.ofInt m == y
  | .real x, .int n => x == Decimal.ofInt n
  | .text s, .text t => s == t
  | .blob a, .blob b => a == b
  | _, _ => false

def isText (s : String) : Value → Bool
  | .text t => s == t
  | _ => false

/-- A digit string with a point and at least one place, put before the exponent if there is
one. -/
def withPlace (s : String) : String :=
  let cs := s.toList
  let front := cs.takeWhile (· != 'e')
  let back := cs.dropWhile (· != 'e')
  if front.contains '.' then s else String.ofList (front ++ ['.', '0'] ++ back)

/-- The text that a real has in a text column: fifteen significant digits. -/
def realText (x : Float) : String :=
  if x.isInf then (if x < 0 then "-Inf" else "Inf")
  else if x == 0 then "0.0"
  else withPlace (Decimal.textBy (·.generalText 15) x)

/-- The value as a text column keeps it: numbers become text. -/
def inTextColumn : Value → Value
  | .int n => .text (toString n)
  | .real x => if x.isNaN then .null else .text (realText x)
  | v => v

def literal : Value → String
  | .null => "None"
  | .int n => toString n
  | .real x => Decimal.plainText x
  | .text s => Text.quoted s
  | .blob bytes => Text.quotedBytes bytes

end Value

end PlayerLookup.Storage
