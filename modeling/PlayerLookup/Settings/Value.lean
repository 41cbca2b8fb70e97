import PlayerLookup.Decimal.Nearest
import PlayerLookup.Settings.Complaint
import PlayerLookup.Text.Blank
import PlayerLookup.Word

/-! Reading the value of a setting from what it was given: whole numbers, reals, flags, texts and
paths. Texts are read leniently where other values are wanted. -/

set_option autoImplicit false

namespace PlayerLookup.SettingValue

def hasDoubleUnderscore : List Char → Bool
  | '_' :: '_' :: _ => true
  | _ :: rest => hasDoubleUnderscore rest
  | [] => false

/-- Digits with single underscores between them, without the underscores. -/
def withoutUnderscores? (cs : List Char) : Option (List Char) :=
  if cs.head? = some '_' ∨ cs.getLast? = some '_' ∨ hasDoubleUnderscore cs then none
  else some (cs.filter (· != '_'))

/-- Without leading zeros, underscores among them included. The last of these characters stays where
nothing else does, and before a point. What has a minus sign stays as it is. -/
def withoutLeadingZeros? : List Char → Option (List Char)
  | '0' :: rest =>
    let isLeading (c : Char) : Bool := c == '0' || c == '_'
    let last := ('0' :: rest.takeWhile isLeading).getLast?.toList
    match rest.dropWhile isLeading with
    | [] => some last
    | '.' :: more => some (last ++ '.' :: more)
    | c :: more => if c.isDigit then some (c :: more) else none
  | '-' :: rest => some ('-' :: rest)
  | c :: rest => if c.isDigit then some (c :: rest) else none
  | [] => none

def withoutPlaces (cs : List Char) : List Char :=
  match cs.dropWhile (· != '.') with
  | _ :: zeros => if !zeros.isEmpty && zeros.all (· == '0') then cs.takeWhile (· != '.') else cs
  | [] => cs

def lengthLimit : Nat := 4300

/-- A whole number in its plain form: perhaps a minus sign, then digits without leading zeros. -/
def ofPlain? (cs : List Char) : Option Int :=
  let (negative, digits) := match cs with
    | '-' :: rest => (true, rest)
    | cs => (false, cs)
  let leads : Bool := digits.head? != some '0' || digits.length == 1
  if digits.isEmpty || !digits.all Char.isDigit || !leads then none
  else
    let n : Int := Decimal.natOfDigits digits
    some (if negative then -n else n)

/-- The plain form of a text that may begin with a plus sign. -/
def plainForm? (cs : List Char) : Option (List Char) := do
  let cs ← withoutLeadingZeros? (← match cs with
    | '+' :: '-' :: _ => none
    | '+' :: rest => some rest
    | cs => some cs)
  withoutUnderscores? (withoutPlaces cs)

def wholeOfText (s : String) : Except SettingFlaw Int :=
  match plainForm? (Text.trimWhile Text.isSpace s.toList) with
  | none => .error .wholeText
  | some cs =>
    match ofPlain? cs with
    | none => .error .wholeText
    | some n => if lengthLimit < cs.length then .error .wholeTooLong else .ok n

def wholeOfReal (x : Float) : Except SettingFlaw Int :=
  if x.isNaN || x.isInf then .error .notFinite
  else match Document.wholeValue? x with
    | none => .error .wholeFraction
    | some n => if n.natAbs < Word.bound then .ok n else .error .wholeTooLong

def whole (bound : Nat) (d : Document) : Except SettingFlaw Int := do
  let n ← match d with
    | .int n => .ok n
    | .bool b => .ok (if b then 1 else 0)
    | .real x => wholeOfReal x
    | .text s => wholeOfText s
    | _ => .error .wholeKind
  if n < bound then .error (.atLeast bound) else .ok n

def exponent? (cs : List Char) : Option Int :=
  let (negative, digits) := match cs with
    | '-' :: rest => (true, rest)
    | '+' :: rest => (false, rest)
    | rest => (false, rest)
  if digits.isEmpty || !digits.all Char.isDigit then none
  else
    let n : Int := Decimal.natOfDigits digits
    some (if negative then -n else n)

def realWord? (negative : Bool) (cs : List Char) : Option Float :=
  let word := String.ofList (cs.map Char.toLower)
  if word = "inf" ∨ word = "infinity" then
    some (if negative then -1.0 / 0.0 else 1.0 / 0.0)
  else if word = "nan" then some (0.0 / 0.0)
  else none

/-- A decimal without its sign: digits with or without a point, and perhaps an exponent. -/
def decimal? (negative : Bool) (cs : List Char) : Option Float :=
  let whole := cs.takeWhile Char.isDigit
  let rest := cs.dropWhile Char.isDigit
  let (places, rest) := match rest with
    | '.' :: more => (more.takeWhile Char.isDigit, more.dropWhile Char.isDigit)
    | rest => ([], rest)
  if whole.isEmpty && places.isEmpty then none
  else
    let power? := match rest with
      | [] => some 0
      | c :: more => if c = 'e' ∨ c = 'E' then exponent? more else none
    power?.map fun power =>
      Decimal.ofDigits negative (Decimal.natOfDigits (whole ++ places)) (power - places.length)

def realOfChars? (cs : List Char) : Option Float :=
  let (negative, cs) := match cs with
    | '-' :: rest => (true, rest)
    | '+' :: rest => (false, rest)
    | cs => (false, cs)
  (realWord? negative cs).or (decimal? negative cs)

/-- The real that a text writes. Gaps at its ends are skipped, but not beside underscores. -/
def realOfText? (s : String) : Option Float :=
  (realOfChars? (Text.trimWhile Text.isSpace s.toList)).or
    ((withoutUnderscores? s.toList).bind realOfChars?)

def positive (d : Document) : Except SettingFlaw Float := do
  let x ← match d with
    | .real x => .ok x
    | .int n => .ok (Decimal.ofInt n)
    | .bool b => .ok (if b then 1 else 0)
    | .text s => match realOfText? s with
      | some x => .ok x
      | none => .error .realText
    | _ => .error .realKind
  if 0 < x then .ok x else .error (.above 0)

def flagOfText? (s : String) : Option Bool :=
  let word := s.map Char.toLower
  if ["1", "on", "t", "true", "y", "yes"].contains word then some true
  else if ["0", "off", "f", "false", "n", "no"].contains word then some false
  else none

def flagOfWhole? (n : Int) : Option Bool :=
  if n = 0 then some false else if n = 1 then some true else none

def flag (d : Document) : Except SettingFlaw Bool :=
  let named (b : Option Bool) : Except SettingFlaw Bool :=
    match b with
    | some b => .ok b
    | none => .error .flagText
  match d with
  | .bool b => .ok b
  | .text s => named (flagOfText? s)
  | .int n => if n.natAbs < Word.bound then named (flagOfWhole? n) else .error .flagKind
  | .real x => match wholeOfReal x with
    | .ok n => named (flagOfWhole? n)
    | .error _ => .error .flagKind
  | _ => .error .flagKind

def text (d : Document) : Except SettingFlaw String :=
  match d with
  | .text s => .ok s
  | _ => .error .textKind

def unlessBlank (d : Document) : Document :=
  match d with
  | .text s => if s.toList.all Text.isBlank then .null else d
  | d => d

def textOrNone (d : Document) : Except SettingFlaw (Option String) :=
  match unlessBlank d with
  | .null => .ok none
  | .text s => .ok (some s)
  | _ => .error .textKind

/-- A path without empty steps and steps that stay where they are. Two slashes in front are kept as
two, more count as one. -/
def plainPath (s : String) : String :=
  let cs := s.toList
  let slashes := (cs.takeWhile (· == '/')).length
  let root := if slashes = 2 then "//" else if slashes = 0 then "" else "/"
  let steps := ((cs.splitOn '/').map String.ofList).filter fun step => step ≠ "" ∧ step ≠ "."
  let joined := root ++ "/".intercalate steps
  if joined = "" then "." else joined

def pathOrNone (d : Document) : Except SettingFlaw (Option String) :=
  match unlessBlank d with
  | .null => .ok none
  | .text s => .ok (some (plainPath s))
  | _ => .error .pathKind

end PlayerLookup.SettingValue
