import PlayerLookup.Template
import PlayerLookup.Text.Quoted

/-! Filling in a template: each field is looked up by its name, followed into by its steps,
converted, and laid out in a width with a fill and a precision. Values are texts. A step may lead to
a part of a text, which is no text itself; what comes of parts is not decided here. -/

set_option autoImplicit false

namespace PlayerLookup.Template

/-- Where a text stands in a wider field. -/
inductive Alignment where
  | left
  | right
  | centre
  | afterSign
  deriving DecidableEq

def alignment? (c : Char) : Option Alignment :=
  if c = '<' then some .left
  else if c = '>' then some .right
  else if c = '^' then some .centre
  else if c = '=' then some .afterSign
  else none

/-- How a value is laid out. Signs, separators and the rest are for numbers, and refused for
texts, but they are read first. -/
structure Layout where
  fill : Char := ' '
  align : Alignment := .left
  sign : Option Char := none
  zeroSign : Bool := false
  alternate : Bool := false
  width : Nat := 0
  separator : Option Char := none
  precision : Option Nat := none
  type : Char := 's'

def takeMark (mark : Char) (cs : List Char) : Bool × List Char :=
  match cs with
  | c :: rest => if c = mark then (true, rest) else (false, cs)
  | [] => (false, cs)

def takeAlignment (cs : List Char) : Option Char × Option Alignment × List Char :=
  match cs with
  | c :: d :: rest =>
    match alignment? d with
    | some a => (some c, some a, rest)
    | none => match alignment? c with
      | some a => (none, some a, d :: rest)
      | none => (none, none, cs)
  | [c] => match alignment? c with
    | some a => (none, some a, [])
    | none => (none, none, cs)
  | [] => (none, none, [])

def takeNumber (cs : List Char) : Except Fault (Option Nat × List Char) :=
  let digits := cs.takeWhile fun c => (Text.decimalValue? c).isSome
  let n := digits.foldl (fun n c => 10 * n + (Text.decimalValue? c).getD 0) 0
  if Word.bound ≤ n then .error .manyDigits
  else .ok (if digits = [] then none else some n, cs.drop digits.length)

def mayBeSeparated (mark type : Char) (given : Bool) : Bool :=
  !given || ['d', 'e', 'f', 'g', 'E', 'G', '%', 'F'].contains type
    || (mark == '_' && ['b', 'o', 'x', 'X'].contains type)

def takeSeparator (cs : List Char) : Except Fault (Option Char × List Char) :=
  let (comma, cs) := takeMark ',' cs
  let (line, cs) := takeMark '_' cs
  if (comma && line) || (line && (takeMark ',' cs).1) then .error .bothSeparators
  else .ok (if comma then some ',' else if line then some '_' else none, cs)

def takePrecision (cs : List Char) : Except Fault (Option Nat × List Char) := do
  let (point, cs) := takeMark '.' cs
  if point then
    match ← takeNumber cs with
    | (none, _) => .error .missingPlaces
    | (some n, cs) => return (some n, cs)
  else return (none, cs)

def layout (all : List Char) : Except Fault Layout := do
  let (fill?, align?, cs) := takeAlignment all
  let (sign, cs) := match cs with
    | c :: rest => if c = ' ' ∨ c = '+' ∨ c = '-' then (some c, rest) else (none, cs)
    | [] => (none, cs)
  let (zeroSign, cs) := takeMark 'z' cs
  let (alternate, cs) := takeMark '#' cs
  let (zero, cs) := if fill?.isNone then takeMark '0' cs else (false, cs)
  let (width?, cs) ← takeNumber cs
  let (separator, cs) ← takeSeparator cs
  let (precision, cs) ← takePrecision cs
  let fill := fill?.getD (if zero then '0' else ' ')
  let align := align?.getD .left
  let result (type : Char) (given : Bool) : Except Fault Layout :=
    match separator with
    | some mark =>
      if mayBeSeparated mark type given then
        .ok ⟨fill, align, sign, zeroSign, alternate, width?.getD 0, separator, precision, type⟩
      else .error (.separator mark type)
    | none =>
      .ok ⟨fill, align, sign, zeroSign, alternate, width?.getD 0, separator, precision, type⟩
  match cs with
  | [] =>
    if separator.isSome then .error (.separator (separator.getD ',') 's')
    else result 's' false
  | [c] => result c true
  | _ => .error (.layoutTooLong (String.ofList all))

def Layout.apply (l : Layout) (text : List Char) : Except Fault (List Char) :=
  if l.type ≠ 's' then .error (.unknownType l.type)
  else match l.sign with
    | some c => .error (.sign c)
    | none =>
      if l.zeroSign then .error .zeroSign
      else if l.alternate then .error .alternateForm
      else if l.align = .afterSign then .error .signAlignment
      else
        let kept := match l.precision with
          | some n => text.take n
          | none => text
        let room := l.width - kept.length
        let before := match l.align with
          | .right => room
          | .centre => room / 2
          | _ => 0
        .ok (List.replicate before l.fill ++ kept ++ List.replicate (room - before) l.fill)

def asciiOnly (s : List Char) : List Char :=
  s.flatMap fun c => if c.toNat < 128 then [c] else Text.escapeCode c.toNat

/-- A value after its conversion: as it is, quoted, or quoted in ASCII. -/
def convert (conversion : Option Char) (value : List Char) : Except Fault (List Char) :=
  match conversion with
  | none => .ok value
  | some c =>
    let quoted := (Text.quoted (String.ofList value)).toList
    if c = 's' then .ok value
    else if c = 'r' then .ok quoted
    else if c = 'a' then .ok (asciiOnly quoted)
    else .error (.unknownConversion c)

/-- A text in a layout; the empty layout is none. -/
def laidOut (text spec : List Char) : Except Fault (List Char) :=
  if spec = [] then .ok text else do (← layout spec).apply text

/-- How a value is written: after a conversion, and then in a layout. -/
abbrev Written := (conversion : Option Char) → Except Fault (List Char → Except Fault (List Char))

def written (value : List Char) : Written := fun conversion => do
  return laidOut (← convert conversion value)

/-- The parts of texts, by the text, the name of the part and the steps that follow it. -/
abbrev Parts := (value name steps : List Char) → Except Fault Written

def noParts : Parts := fun _ name _ => .error (.noPart (String.ofList name))

def item (value name : List Char) : Except Fault (List Char) := do
  match ← index? name with
  | none => .error .textIndex
  | some i => match value[i]? with
    | some c => return [c]
    | none => .error .outOfRange

def follow (parts : Parts) : (fuel : Nat) → List Char → List Char → Except Fault Written
  | 0, value, _ => .ok (written value)
  | fuel + 1, value, steps => do
    match ← step steps with
    | none => return written value
    | some (.part name, rest) => parts value name rest
    | some (.item name, rest) => follow parts fuel (← item value name) rest

def lookUp (parts : Parts) (values : List (String × List Char)) (name : List Char) :
    Except Fault Written := do
  let first := name.takeWhile fun c => !isStepMark c
  match ← index? first with
  | some i => .error (.position i)
  | none =>
    if first = [] then .error (.position 0)
    else match values.lookup (String.ofList first) with
      | none => .error (.unknownName (String.ofList first))
      | some value => follow parts (name.length + 1) value (name.drop first.length)

/-- The text of a template; `depth` is how deep layouts may hold fields of their own. -/
def fill (parts : Parts) (values : List (String × List Char)) : (depth : Nat) → List Char →
    Except Fault (List Char)
  | 0, _ => .error .tooDeep
  | depth + 1, template =>
    (ofText template).foldlM (fun done piece =>
      match piece with
      | .literal text => .ok (done ++ text)
      | .broken fault => .error fault
      | .field f => do
        let value ← lookUp parts values f.name
        let textIn ← value f.conversion
        let spec ← if f.nested then fill parts values depth f.layout else .ok f.layout
        return done ++ (← textIn spec)) []

def fillIn (parts : Parts) (template : String) (values : List (String × List Char)) :
    Except Fault String :=
  (fill parts values 2 template.toList).map String.ofList

def Fault.message : Fault → String
  | .singleOpening => "Single '\x7b' encountered in format string"
  | .singleClosing => "Single '\x7d' encountered in format string"
  | .openingInName => "unexpected '\x7b' in field name"
  | .noConversion => "end of string while looking for conversion specifier"
  | .noColonAfterConversion => "expected ':' after conversion specifier"
  | .unmatchedOpening => "unmatched '\x7b' in format spec"
  | .noClosing => "expected '\x7d' before end of string"
  | .manyDigits => "Too many decimal digits in format string"
  | .position index =>
    "Replacement index " ++ toString index ++ " out of range for positional args tuple"
  | .unknownName name => Text.quoted name
  | .emptyStep => "Empty attribute in format string"
  | .missingBracket => "Missing ']' in format string"
  | .strayAfterBracket => "Only '.' or '[' may follow ']' in format field specifier"
  | .noPart name => "'str' object has no attribute '" ++ name ++ "'"
  | .outOfRange => "string index out of range"
  | .textIndex => "string indices must be integers, not 'str'"
  | .unknownConversion c => "Unknown conversion specifier " ++ named c
  | .tooDeep => "Max string recursion exceeded"
  | .layoutTooLong layout => "Invalid format specifier '" ++ layout ++ "' for object of type 'str'"
  | .missingPlaces => "Format specifier missing precision"
  | .bothSeparators => "Cannot specify both ',' and '_'."
  | .separator mark type =>
    "Cannot specify '" ++ String.ofList [mark] ++ "' with '" ++ named type ++ "'."
  | .unknownType type => "Unknown format code '" ++ named type ++ "' for object of type 'str'"
  | .sign mark =>
    if mark = ' ' then "Space not allowed in string format specifier"
    else "Sign not allowed in string format specifier"
  | .zeroSign => "Negative zero coercion (z) not allowed in string format specifier"
  | .alternateForm => "Alternate form (#) not allowed in string format specifier"
  | .signAlignment => "'=' alignment not allowed in string format specifier"
  | .part _ message => message

end PlayerLookup.Template
