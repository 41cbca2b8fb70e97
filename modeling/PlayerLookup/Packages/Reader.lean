import PlayerLookup.Decimal.Nearest
import PlayerLookup.Document
import PlayerLookup.Packages.Encoding

/-! Reading a document from its text, as the package does that answers of the service are read with.
The reader works on the characters that are left; a fault remembers how many were left where it was
found, from which its place follows. Reals beyond the range of doubles become infinite, `NaN` and
the infinities are words of the format, and of several members with one name the last counts. No
lookup depends on this reader: an answer comes with its document, or with the failure to read one.
-/

set_option autoImplicit false

namespace PlayerLookup.Document.Reader

/-- What can be wrong with the text of a document. -/
inductive Fault where
  | expectedValue
  | expectedName
  | expectedColon
  | expectedComma
  | unterminatedText
  | controlCharacter
  | unknownEscape
  | badCodeEscape
  | trailingData
  | byteOrderMark
  /-- A whole number with too many digits. -/
  | tooManyDigits (count : Nat)
  /-- Lists or records that stand in one another too deep. -/
  | tooDeep (kind : String)
  /-- Half of a pair of codes that only together stand for a character. -/
  | halfCharacter
  deriving DecidableEq

def digitLimit : Nat := 4300

/-- How deep documents may stand in one another. Where the package stops also depends on what the
program is doing when it reads. -/
def depthLimit : Nat := 970

def Fault.wording : Fault → String
  | .expectedValue => "Expecting value"
  | .expectedName => "Expecting property name enclosed in double quotes"
  | .expectedColon => "Expecting ':' delimiter"
  | .expectedComma => "Expecting ',' delimiter"
  | .unterminatedText => "Unterminated string starting at"
  | .controlCharacter => "Invalid control character at"
  | .unknownEscape => "Invalid \\escape"
  | .badCodeEscape => "Invalid \\uXXXX escape"
  | .trailingData => "Extra data"
  | .byteOrderMark => "Unexpected UTF-8 BOM (decode using utf-8-sig)"
  | .tooManyDigits count =>
    "Exceeds the limit (" ++ toString digitLimit ++
      " digits) for integer string conversion: value has "
      ++ toString count ++ " digits; use sys.set_int_max_str_digits() to increase the limit"
  | .tooDeep kind =>
    "maximum recursion depth exceeded while decoding a JSON " ++ kind ++ " from a unicode string"
  | .halfCharacter => "half of a character"

/-- A fault, and how many characters were left at its place. -/
structure Stop where
  fault : Fault
  left : Nat

abbrev Step (α : Type) := Except Stop (α × List Char)

/-- The four characters that may stand between the parts of a document. -/
def isFormatSpace (c : Char) : Bool := c == ' ' || c == '\t' || c == '\n' || c == '\r'

def skipSpace (cs : List Char) : List Char := cs.dropWhile isFormatSpace

def codeOfHex? (a b c d : Char) : Option Nat := do
  let w ← Text.hexValue? a
  let x ← Text.hexValue? b
  let y ← Text.hexValue? c
  let z ← Text.hexValue? d
  return ((w * 16 + x) * 16 + y) * 16 + z

def letterEscape? (c : Char) : Option Char :=
  if c = '\x22' ∨ c = '\\' ∨ c = '/' then some c
  else if c = 'b' then some '\x08'
  else if c = 'f' then some '\x0c'
  else if c = 'n' then some '\n'
  else if c = 'r' then some '\r'
  else if c = 't' then some '\t'
  else none

/-- The codes of a text up to its closing quote, in reverse; `start` characters were left at the
opening quote. -/
def textCodes (start : Nat) (done : List Nat) : List Char → Step (List Nat)
  | [] => .error ⟨.unterminatedText, start⟩
  | '\x22' :: rest => .ok (done, rest)
  | '\\' :: [] => .error ⟨.unterminatedText, start⟩
  | '\\' :: 'u' :: a :: b :: c :: d :: e :: rest =>
    match codeOfHex? a b c d with
    | some code => textCodes start (code :: done) (e :: rest)
    | none => .error ⟨.badCodeEscape, rest.length + 6⟩
  | '\\' :: c :: rest =>
    if c = 'u' then .error ⟨.badCodeEscape, rest.length + 1⟩
    else match letterEscape? c with
      | some x => textCodes start (x.toNat :: done) rest
      | none => .error ⟨.unknownEscape, rest.length + 2⟩
  | c :: rest =>
    if c.toNat < 0x20 then .error ⟨.controlCharacter, rest.length + 1⟩
    else textCodes start (c.toNat :: done) rest

/-- A text after its opening quote. Texts are made of characters, which half of a pair is not. -/
def text (cs : List Char) : Step String :=
  match textCodes (cs.length + 1) [] cs with
  | .ok (codes, rest) =>
    match Text.charsOfCodes? (Text.joinSurrogates codes.reverse) with
    | some chars => .ok (String.ofList chars, rest)
    | none => .error ⟨.halfCharacter, cs.length + 1⟩
  | .error stop => .error stop

def places (cs : List Char) : Option (List Char × List Char) :=
  match cs with
  | '.' :: rest =>
    match rest.takeWhile Char.isDigit with
    | [] => none
    | digits => some (digits, rest.dropWhile Char.isDigit)
  | _ => none

/-- A written exponent; the letter alone, without digits, is not one. -/
def exponent (cs : List Char) : Option (Int × List Char) :=
  match cs with
  | c :: rest =>
    if c = 'e' ∨ c = 'E' then
      let (negative, tail) := match rest with
        | '-' :: more => (true, more)
        | '+' :: more => (false, more)
        | more => (false, more)
      match tail.takeWhile Char.isDigit with
      | [] => none
      | digits =>
        let n : Int := Decimal.natOfDigits digits
        some (if negative then -n else n, tail.dropWhile Char.isDigit)
    else none
  | [] => none

/-- The digits before the point: a zero stands alone. -/
def wholeDigits (cs : List Char) : Option (List Char × List Char) :=
  match cs with
  | '0' :: rest => some (['0'], rest)
  | cs => match cs.takeWhile Char.isDigit with
    | [] => none
    | digits => some (digits, cs.dropWhile Char.isDigit)

def number (negative : Bool) (cs : List Char) : Step Document :=
  match wholeDigits cs with
  | none => .error ⟨.expectedValue, cs.length + if negative then 1 else 0⟩
  | some (whole, rest) =>
    let (decimals, rest, point) := match places rest with
      | some (digits, more) => (digits, more, true)
      | none => ([], rest, false)
    let (power, rest, powered) := match exponent rest with
      | some (n, more) => (n, more, true)
      | none => (0, rest, false)
    if point || powered then
      .ok (.real (Decimal.ofDigits negative (Decimal.natOfDigits (whole ++ decimals))
        (power - decimals.length)), rest)
    else if digitLimit < whole.length then .error ⟨.tooManyDigits whole.length, cs.length⟩
    else
      let n : Int := Decimal.natOfDigits whole
      .ok (.int (if negative then -n else n), rest)

def words : List (List Char × Document) :=
  [("null".toList, .null), ("true".toList, .bool true), ("false".toList, .bool false),
    ("NaN".toList, .real (0.0 / 0.0)), ("Infinity".toList, .real (1.0 / 0.0)),
    ("-Infinity".toList, .real (-1.0 / 0.0))]

def word? (cs : List Char) : Option (Document × List Char) :=
  words.findSome? fun (w, d) => if w.isPrefixOf cs then some (d, cs.drop w.length) else none

def scalar (cs : List Char) : Step Document :=
  match word? cs with
  | some r => .ok r
  | none =>
    match cs with
    | '-' :: rest => number true rest
    | _ => number false cs

mutual

/-- A document in which others may stand `depth` deep. -/
def value : (fuel depth : Nat) → List Char → Step Document
  | 0, _, cs => .error ⟨.expectedValue, cs.length⟩
  | fuel + 1, depth, cs =>
    match cs, depth with
    | '\x22' :: rest, _ =>
      match text rest with
      | .ok (s, more) => .ok (.text s, more)
      | .error stop => .error stop
    | '\x7b' :: _, 0 => .error ⟨.tooDeep "object", cs.length⟩
    | '\x7b' :: rest, depth + 1 =>
      match skipSpace rest with
      | '\x7d' :: more => .ok (.record [], more)
      | more =>
        match members fuel depth [] more with
        | .ok (ms, after) => .ok (.record ms, after)
        | .error stop => .error stop
    | '[' :: _, 0 => .error ⟨.tooDeep "array", cs.length⟩
    | '[' :: rest, depth + 1 =>
      match skipSpace rest with
      | ']' :: more => .ok (.list [], more)
      | more =>
        match items fuel depth [] more with
        | .ok (ds, after) => .ok (.list ds.reverse, after)
        | .error stop => .error stop
    | cs, _ => scalar cs

def items : (fuel depth : Nat) → List Document → List Char → Step (List Document)
  | 0, _, _, cs => .error ⟨.expectedValue, cs.length⟩
  | fuel + 1, depth, done, cs =>
    match value fuel depth cs with
    | .error stop => .error stop
    | .ok (d, rest) =>
      match skipSpace rest with
      | ']' :: more => .ok (d :: done, more)
      | ',' :: more => items fuel depth (d :: done) (skipSpace more)
      | more => .error ⟨.expectedComma, more.length⟩

def members : (fuel depth : Nat) → List (String × Document) → List Char →
    Step (List (String × Document))
  | 0, _, _, cs => .error ⟨.expectedValue, cs.length⟩
  | fuel + 1, depth, done, cs =>
    match cs with
    | '\x22' :: rest =>
      match text rest with
      | .error stop => .error stop
      | .ok (name, rest) =>
        match skipSpace rest with
        | ':' :: rest =>
          match value fuel depth (skipSpace rest) with
          | .error stop => .error stop
          | .ok (d, rest) =>
            match skipSpace rest with
            | '\x7d' :: more => .ok (setMember name d done, more)
            | ',' :: more => members fuel depth (setMember name d done) (skipSpace more)
            | more => .error ⟨.expectedComma, more.length⟩
        | more => .error ⟨.expectedColon, more.length⟩
    | more => .error ⟨.expectedName, more.length⟩

end

/-- The whole text: one value, with nothing but space around it. -/
def whole (cs : List Char) : Except Stop Document :=
  if cs.head? = some '\ufeff' then .error ⟨.byteOrderMark, cs.length⟩
  else
    match value (2 * cs.length + 2) depthLimit (skipSpace cs) with
    | .error stop => .error stop
    | .ok (d, rest) =>
      match skipSpace rest with
      | [] => .ok d
      | more => .error ⟨.trailingData, more.length⟩

/-- A fault with its place in the text: characters before it, line, and column. -/
structure Located where
  fault : Fault
  position : Nat
  line : Nat
  column : Nat
  deriving DecidableEq

/-- The place of a fault: lines are counted by newlines, columns from the last one. -/
def Stop.locate (stop : Stop) (cs : List Char) : Located :=
  let position := cs.length - stop.left
  let before := cs.take position
  ⟨stop.fault, position, before.count '\n' + 1,
    (before.reverse.takeWhile (· != '\n')).length + 1⟩

def Located.message (l : Located) : String :=
  l.fault.wording ++ ": line " ++ toString l.line ++ " column " ++ toString l.column
    ++ " (char " ++ toString l.position ++ ")"

end PlayerLookup.Document.Reader

namespace PlayerLookup.Document

def ofText (s : String) : Except Reader.Located Document :=
  match Reader.whole s.toList with
  | .ok d => .ok d
  | .error stop => .error (stop.locate s.toList)

/-- Reads a document from bytes in a guessed encoding. Bytes too few to guess by, or that the
guess does not fit, are read as text all the same. -/
def ofBytes (bytes : List UInt8) : Except Reader.Located Document :=
  let guessed := if 3 < bytes.length then Text.guessEncoding bytes else none
  match guessed.bind (Text.decode? · bytes) with
  | some s => ofText s
  | none => ofText (Text.decodeLossy bytes)

end PlayerLookup.Document
