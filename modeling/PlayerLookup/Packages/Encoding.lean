/-! Reading text from bytes in the encodings of the Unicode standard, and guessing which of them
a document uses: its first characters are ASCII, so the zero bytes among the first four tell. -/

set_option autoImplicit false

namespace PlayerLookup.Text

/-- The encodings that a document may use. `marked` means that a byte order mark comes first. -/
inductive Encoding where
  | utf8 (marked : Bool)
  | utf16 (bigEndian marked : Bool)
  | utf32 (bigEndian marked : Bool)

def guessEncoding (bytes : List UInt8) : Option Encoding :=
  let head := bytes.take 4
  let zeros := head.countP (· == 0)
  if head = [0xff, 0xfe, 0, 0] then some (.utf32 false true)
  else if head = [0, 0, 0xfe, 0xff] then some (.utf32 true true)
  else if head.take 3 = [0xef, 0xbb, 0xbf] then some (.utf8 true)
  else if head.take 2 = [0xff, 0xfe] then some (.utf16 false true)
  else if head.take 2 = [0xfe, 0xff] then some (.utf16 true true)
  else match head, zeros with
    | _, 0 => some (.utf8 false)
    | [0, _, 0, _], 2 => some (.utf16 true false)
    | [_, 0, _, 0], 2 => some (.utf16 false false)
    | [0, 0, 0, _], 3 => some (.utf32 true false)
    | [_, 0, 0, 0], 3 => some (.utf32 false false)
    | _, _ => none

/-- Whether a number is the code of a character: surrogates are not. -/
def isCharacterCode (n : Nat) : Bool :=
  n < 0xd800 || (0xe000 ≤ n && n < 0x110000)

/-- Characters from their codes; fails on a code that is no character. -/
def charsOfCodes? (codes : List Nat) : Option (List Char) :=
  if codes.all isCharacterCode then some (codes.map Char.ofNat) else none

def pairsOfBytes? (bigEndian : Bool) : List UInt8 → Option (List Nat)
  | [] => some []
  | a :: b :: rest =>
    let n := if bigEndian then a.toNat * 256 + b.toNat else b.toNat * 256 + a.toNat
    (pairsOfBytes? bigEndian rest).map (n :: ·)
  | _ => none

def quadsOfBytes? (bigEndian : Bool) : List UInt8 → Option (List Nat)
  | [] => some []
  | a :: b :: c :: d :: rest =>
    let number (w x y z : UInt8) := ((w.toNat * 256 + x.toNat) * 256 + y.toNat) * 256 + z.toNat
    let n := if bigEndian then number a b c d else number d c b a
    (quadsOfBytes? bigEndian rest).map (n :: ·)
  | _ => none

def joinSurrogates : List Nat → List Nat
  | [] => []
  | [u] => [u]
  | u :: v :: rest =>
    if 0xd800 ≤ u ∧ u < 0xdc00 ∧ 0xdc00 ≤ v ∧ v < 0xe000 then
      (0x10000 + (u - 0xd800) * 0x400 + (v - 0xdc00)) :: joinSurrogates rest
    else u :: joinSurrogates (v :: rest)

/-- Strict decoding; a byte order mark that the encoding announces is dropped. -/
def decode? (encoding : Encoding) (bytes : List UInt8) : Option String :=
  match encoding with
  | .utf8 marked =>
    String.fromUTF8? (ByteArray.mk (if marked then bytes.drop 3 else bytes).toArray)
  | .utf16 bigEndian marked => do
    let units ← pairsOfBytes? bigEndian (if marked then bytes.drop 2 else bytes)
    let cs ← charsOfCodes? (joinSurrogates units)
    return String.ofList cs
  | .utf32 bigEndian marked => do
    let codes ← quadsOfBytes? bigEndian (if marked then bytes.drop 4 else bytes)
    let cs ← charsOfCodes? codes
    return String.ofList cs

/-- Decoding that never fails: strict if possible, and otherwise every byte beyond ASCII becomes
the replacement character. -/
def decodeLossy (bytes : List UInt8) : String :=
  match decode? (.utf8 false) bytes with
  | some s => s
  | none =>
    String.ofList (bytes.map fun b => if b.toNat < 128 then Char.ofNat b.toNat else '\ufffd')

end PlayerLookup.Text
