import PlayerLookup.Text.Digit
import PlayerLookup.Word

/-! Templates: text with fields in braces that are filled in by name. A doubled brace stands for
itself. A field names its value, then perhaps steps into it, a conversion after an exclamation
mark and a layout after a colon; the layout may hold fields of its own. This module takes a
template apart; a fault is a piece of its own, so that what stands before it still counts. -/

set_option autoImplicit false

namespace PlayerLookup.Template

/-- What can be wrong with a template, or with filling it in. -/
inductive Fault where
  | singleOpening
  | singleClosing
  | openingInName
  | noConversion
  | noColonAfterConversion
  | unmatchedOpening
  | noClosing
  | manyDigits
  | position (index : Nat)
  | unknownName (name : String)
  | emptyStep
  | missingBracket
  | strayAfterBracket
  | noPart (name : String)
  | outOfRange
  | textIndex
  | unknownConversion (c : Char)
  | tooDeep
  | layoutTooLong (layout : String)
  | missingPlaces
  | bothSeparators
  | separator (mark : Char) (type : Char)
  | unknownType (type : Char)
  | sign (mark : Char)
  | zeroSign
  | alternateForm
  | signAlignment
  /-- What a part of a value is at fault with, under the name that it has for that. -/
  | part (kind message : String)
  deriving DecidableEq

/-- A character as messages name it: by its code if it is not visible ASCII. -/
def named (c : Char) : String :=
  if 32 < c.toNat ∧ c.toNat < 128 then String.ofList [c]
  else String.ofList ('\\' :: 'x' :: Nat.toDigits 16 c.toNat)

/-- A field as it is written. -/
structure Field where
  name : List Char
  conversion : Option Char
  layout : List Char
  nested : Bool
  deriving DecidableEq

/-- A part of a template. -/
inductive Piece where
  | literal (text : List Char)
  | field (f : Field)
  | broken (fault : Fault)
  deriving DecidableEq

/-- The name of a field, with the character that ends it, if any, and the rest. What stands in
square brackets cannot end the name. -/
def fieldName (done : List Char) (bracketed : Bool) :
    List Char → Except Fault (List Char × Option Char × List Char)
  | [] => .ok (done.reverse, none, [])
  | c :: rest =>
    if bracketed then fieldName (c :: done) (c != ']') rest
    else if c = '\x7b' then .error .openingInName
    else if c = '\x7d' ∨ c = ':' ∨ c = '!' then .ok (done.reverse, some c, rest)
    else fieldName (c :: done) (c == '[') rest

/-- A layout up to the brace that closes its field, `open` braces within it being open. -/
def layoutText (done : List Char) (nested : Bool) (depth : Nat) :
    List Char → Except Fault (List Char × Bool × List Char)
  | [] => .error .unmatchedOpening
  | c :: rest =>
    if c = '\x7b' then layoutText (c :: done) true (depth + 1) rest
    else if c = '\x7d' then
      match depth with
      | 0 => .ok (done.reverse, nested, rest)
      | d + 1 => layoutText (c :: done) nested d rest
    else layoutText (c :: done) nested depth rest

/-- A field after its opening brace, and the rest of the template. -/
def field (cs : List Char) : Except Fault (Field × List Char) := do
  let (name, ending, rest) ← fieldName [] false cs
  match ending with
  | none => .error .noClosing
  | some c =>
    if c = '\x7d' then return (⟨name, none, [], false⟩, rest)
    else if c = ':' then
      let (layout, nested, rest) ← layoutText [] false 0 rest
      return (⟨name, none, layout, nested⟩, rest)
    else match rest with
      | [] => .error .noConversion
      | [_] => .error .unmatchedOpening
      | conversion :: next :: rest =>
        if next = '\x7d' then return (⟨name, some conversion, [], false⟩, rest)
        else if next = ':' then
          let (layout, nested, rest) ← layoutText [] false 0 rest
          return (⟨name, some conversion, layout, nested⟩, rest)
        else .error .noColonAfterConversion

def pieces : (fuel : Nat) → List Char → List Piece
  | 0, _ => []
  | fuel + 1, cs =>
    let isBrace (c : Char) : Bool := c == '\x7b' || c == '\x7d'
    let text := cs.takeWhile fun c => !isBrace c
    match cs.dropWhile fun c => !isBrace c with
    | [] => if text = [] then [] else [.literal text]
    | [c] => [.broken (if c = '\x7b' then .singleOpening else .singleClosing)]
    | c :: d :: rest =>
      if c = d then .literal (text ++ [c]) :: pieces fuel rest
      else if c = '\x7d' then [.broken .singleClosing]
      else match field (d :: rest) with
        | .error fault => [.literal text, .broken fault]
        | .ok (f, more) => .literal text :: .field f :: pieces fuel more

def ofText (s : List Char) : List Piece := pieces (s.length + 1) s

/-- A step into a value. -/
inductive Step where
  | part (name : List Char)
  | item (name : List Char)

/-- The number that decimal digits of any script write, if there is nothing else. -/
def index? (cs : List Char) : Except Fault (Option Nat) :=
  match cs with
  | [] => .ok none
  | cs =>
    let digits := cs.takeWhile fun c => (Text.decimalValue? c).isSome
    let n := digits.foldl (fun n c => 10 * n + (Text.decimalValue? c).getD 0) 0
    if Word.bound ≤ n then .error .manyDigits
    else .ok (if digits.length = cs.length then some n else none)

def isStepMark (c : Char) : Bool := c == '.' || c == '['

/-- The first step of a field's name after its value's name, and what follows it. -/
def step (cs : List Char) : Except Fault (Option (Step × List Char)) :=
  match cs with
  | [] => .ok none
  | '.' :: rest =>
    match rest.takeWhile fun c => !isStepMark c with
    | [] => .error .emptyStep
    | name => .ok (some (.part name, rest.dropWhile fun c => !isStepMark c))
  | '[' :: rest =>
    match rest.dropWhile (· != ']') with
    | [] => .error .missingBracket
    | _ :: more =>
      match rest.takeWhile (· != ']') with
      | [] => .error .emptyStep
      | name => .ok (some (.item name, more))
  | _ => .error .strayAfterBracket

end PlayerLookup.Template
