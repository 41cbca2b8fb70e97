import PlayerLookup.Text.Digit
import PlayerLookup.Text.Quoted

/-! Player ids: 128 bits, written as 32 hexadecimal digits. The canonical form has dashes after
8, 12, 16 and 20 digits; the remote service uses the form without dashes. Dashes are ignored when
an id is read, wherever they stand. -/

set_option autoImplicit false

namespace PlayerLookup

/-- An id of a player. -/
structure PlayerId where
  bits : BitVec 128
  deriving DecidableEq

namespace PlayerId

def digitCount : Nat := 32

def digits (id : PlayerId) : List Char := Text.hexPadded digitCount id.bits.toNat

/-- Digits in groups of 8, 4, 4, 4 and 12 with dashes between. -/
def grouped (cs : List Char) : List Char :=
  cs.take 8 ++ '-' :: (cs.drop 8).take 4 ++ '-' :: (cs.drop 12).take 4
    ++ '-' :: (cs.drop 16).take 4 ++ '-' :: (cs.drop 20).take 12

def text (id : PlayerId) : String := String.ofList (grouped id.digits)

def dashless (id : PlayerId) : String := String.ofList id.digits

def withoutDashes (cs : List Char) : List Char := cs.filter (· != '-')

def isHexDigit (c : Char) : Bool := (Text.hexValue? c).isSome

/-- The 32 digits that open a text without dashes, if nothing but perhaps one newline follows. -/
def leadingDigits? (cs : List Char) : Option (List Char) :=
  let head := cs.take digitCount
  if head.length = digitCount ∧ head.all isHexDigit
      ∧ (cs.drop digitCount = [] ∨ cs.drop digitCount = ['\n']) then some head
  else none

/-- The text in the canonical grouping, keeping the case of its digits. -/
def addDashes? (s : String) : Option String :=
  (leadingDigits? (withoutDashes s.toList)).map fun ds => String.ofList (grouped ds)

def stripDashes? (s : String) : Option String :=
  let cs := withoutDashes s.toList
  (leadingDigits? cs).map fun _ => String.ofList cs

def natOfHex (cs : List Char) : Nat :=
  cs.foldl (fun n c => 16 * n + (Text.hexValue? c).getD 0) 0

def parse? (s : String) : Option PlayerId :=
  (leadingDigits? (withoutDashes s.toList)).map fun ds => ⟨BitVec.ofNat 128 (natOfHex ds)⟩

end PlayerId

end PlayerLookup
