import PlayerLookup.Decimal.Nearest
import PlayerLookup.Document
import PlayerLookup.Template.Fill
import PlayerLookup.Word

/-! Messages of log records: text with places, marked by a percent sign, for arguments. A place
may name a member of a record of arguments, and has flags, a width, a precision and a letter that
says in which form its argument is written. -/

set_option autoImplicit false

namespace PlayerLookup.LogMessage

/-- One more than the largest number that a signed word of 32 bits holds. -/
def shortBound : Nat := 2147483648

/-- What can be wrong with a message or its arguments. -/
inductive Fault where
  | incompletePlace
  | incompleteKey
  | notARecord
  | unknownKey (name : String)
  | tooFew
  | tooMany
  | widthKind
  | widthTooBig
  | precisionTooBig
  | argumentTooBig (word : String)
  | unknownLetter (letter : Char) (position : Nat)
  | wholeWanted (letter : Char) (kind : String)
  | numberWanted (letter : Char) (kind : String)
  | realWanted (kind : String)
  | characterWanted
  | characterRange
  | notANumber
  | infinite
  | tooLarge
  deriving DecidableEq

def Fault.message : Fault → String
  | .incompletePlace => "incomplete format"
  | .incompleteKey => "incomplete format key"
  | .notARecord => "format requires a mapping"
  | .unknownKey name => Text.quoted name
  | .tooFew => "not enough arguments for format string"
  | .tooMany => "not all arguments converted during string formatting"
  | .widthKind => "* wants int"
  | .widthTooBig => "width too big"
  | .precisionTooBig => "precision too big"
  | .argumentTooBig word => "Python int too large to convert to C " ++ word
  | .unknownLetter letter position =>
    let shown := if 31 < letter.toNat ∧ letter.toNat < 128 then letter else '?'
    "unsupported format character '" ++ String.ofList [shown] ++ "' (0x"
      ++ String.ofList (Nat.toDigits 16 letter.toNat) ++ ") at index " ++ toString position
  | .wholeWanted letter kind =>
    "%" ++ String.ofList [letter] ++ " format: an integer is required, not " ++ kind
  | .numberWanted letter kind =>
    "%" ++ String.ofList [letter] ++ " format: a real number is required, not " ++ kind
  | .realWanted kind => "must be real number, not " ++ kind
  | .characterWanted => "%c requires int or char"
  | .characterRange => "%c arg not in range(0x110000)"
  | .notANumber => "cannot convert float NaN to integer"
  | .infinite => "cannot convert float infinity to integer"
  | .tooLarge => "int too large to convert to float"

/-- The arguments that are left: a list that is used up, or one record, of which the whole or the
member named last is what comes next. -/
inductive Arguments where
  | list (left : List Document)
  | record (all : Document) (current : Option Document)

/-- A record alone gives its members by name, unless it has none. -/
def Arguments.ofList : List Document → Arguments
  | [.record (m :: ms)] => .record (.record (m :: ms)) (some (.record (m :: ms)))
  | items => .list items

def Arguments.next : Arguments → Except Fault (Document × Arguments)
  | .list [] => .error .tooFew
  | .list (d :: rest) => .ok (d, .list rest)
  | .record all (some d) => .ok (d, .record all none)
  | .record _ none => .error .tooFew

/-- The flags of a place. -/
structure Flags where
  left : Bool
  sign : Bool
  blank : Bool
  alternate : Bool
  zero : Bool

def Flags.ofChars (cs : List Char) : Flags :=
  ⟨cs.contains '-', cs.contains '+', cs.contains ' ', cs.contains '#', cs.contains '0'⟩

def isFlag (c : Char) : Bool := ['-', '+', ' ', '#', '0'].contains c

def keyName (done : List Char) (depth : Nat) : List Char → Except Fault (String × List Char)
  | [] => .error .incompleteKey
  | c :: rest =>
    if c = ')' then
      match depth with
      | 0 => .ok (String.ofList done.reverse, rest)
      | d + 1 => keyName (c :: done) d rest
    else keyName (c :: done) (if c = '(' then depth + 1 else depth) rest

def wholeArgument (args : Arguments) : Except Fault (Int × Arguments) := do
  match ← args.next with
  | (.int n, rest) => return (n, rest)
  | (.bool b, rest) => return (if b then 1 else 0, rest)
  | _ => throw .widthKind

/-- The width of a place, negative when its text stands to the left. -/
def widthOf (cs : List Char) (args : Arguments) : Except Fault (Int × List Char × Arguments) :=
  match cs with
  | '*' :: rest => do
    let (n, args) ← wholeArgument args
    if n < -Word.bound ∨ Word.bound ≤ n then throw (.argumentTooBig "ssize_t")
    return (n, rest, args)
  | cs =>
    let n := Decimal.natOfDigits (cs.takeWhile Char.isDigit)
    if Word.bound ≤ n then .error .widthTooBig
    else .ok (n, cs.dropWhile Char.isDigit, args)

def precisionOf (cs : List Char) (args : Arguments) :
    Except Fault (Option Nat × List Char × Arguments) :=
  match cs with
  | '.' :: '*' :: rest => do
    let (n, args) ← wholeArgument args
    if n < -shortBound ∨ shortBound ≤ n then throw (.argumentTooBig "int")
    return (some n.toNat, rest, args)
  | '.' :: rest =>
    let n := Decimal.natOfDigits (rest.takeWhile Char.isDigit)
    if shortBound ≤ n then .error .precisionTooBig
    else .ok (some n, rest.dropWhile Char.isDigit, args)
  | cs => .ok (none, cs, args)

/-- What is written in a place: a mark of its base, and a sign, come before any filling zeros. -/
structure Written where
  negative : Bool
  numeric : Bool
  mark : List Char
  body : List Char

def Written.ofText (precision : Option Nat) (s : String) : Written :=
  let cs := s.toList
  ⟨false, false, [], match precision with | some n => cs.take n | none => cs⟩

def Written.ofWhole (flags : Flags) (precision : Option Nat) (base : Nat) (mark : List Char)
    (n : Int) : Written :=
  let digits := Nat.toDigits base n.natAbs
  let zeros := List.replicate (precision.getD 0 - digits.length) '0'
  ⟨n < 0, true, if flags.alternate then mark else [], zeros ++ digits⟩

/-- One digit before the point, `places` after it, and an exponent. -/
def scientificText (m : Decimal.Magnitude) (places : Nat) : String :=
  let (digits, e) := m.digits (places + 1)
  Decimal.pointAfterFirst digits ++ Decimal.exponentText 2 e

/-- The magnitude of a real in the general form, keeping all its zeros. -/
def fullGeneral (count : Nat) (m : Decimal.Magnitude) : String :=
  let count := max count 1
  let (digits, e) := m.digits count
  if -4 ≤ e ∧ e < count then
    let text := Decimal.positional digits e
    if digits.length ≤ (e + 1).toNat then String.ofList (text.toList.take (text.length - 1))
    else text
  else
    (if count = 1 then digits ++ "." else Decimal.pointAfterFirst digits)
      ++ Decimal.exponentText 2 e

def withPoint (s : String) : String :=
  let cs := s.toList
  let whole := cs.takeWhile fun c => c != 'e'
  if whole.contains '.' then s else String.ofList (whole ++ '.' :: cs.drop whole.length)

def realText (letter : Char) (alternate : Bool) (places : Nat) (m : Decimal.Magnitude) :
    String :=
  if letter = 'f' then
    let s := m.ratio.fixed places
    if alternate then withPoint s else s
  else if letter = 'e' then
    let s := scientificText m places
    if alternate then withPoint s else s
  else if alternate then fullGeneral places m
  else m.generalText places

def Written.ofReal (flags : Flags) (precision : Option Nat) (letter : Char) (x : Float) :
    Written :=
  let lower := letter.toLower
  match Decimal.Binary64.ofFloat x with
  | .notNumber => ⟨false, true, [], "nan".toList⟩
  | .infinite negative => ⟨negative, true, [], "inf".toList⟩
  | .finite negative m =>
    ⟨negative, true, [], (realText lower flags.alternate (precision.getD 6) m).toList⟩

def Written.upper (letter : Char) (w : Written) : Written :=
  if letter.isUpper then { w with mark := w.mark.map Char.toUpper, body := w.body.map Char.toUpper }
  else w

def wholeOf (letter : Char) (realsToo : Bool) (d : Document) : Except Fault Int :=
  match d with
  | .int n => .ok n
  | .bool b => .ok (if b then 1 else 0)
  | .real x =>
    if !realsToo then .error (.wholeWanted letter d.kind)
    else match Decimal.Binary64.ofFloat x with
      | .notNumber => .error .notANumber
      | .infinite _ => .error .infinite
      | .finite negative m =>
        let n : Int := m.ratio.floor
        .ok (if negative then -n else n)
  | d => .error (if realsToo then .numberWanted letter d.kind else .wholeWanted letter d.kind)

def realOf (d : Document) : Except Fault Float :=
  let ofWhole (n : Int) : Except Fault Float :=
    let x := Decimal.ofInt n
    if x.isInf then .error .tooLarge else .ok x
  match d with
  | .real x => .ok x
  | .int n => ofWhole n
  | .bool b => ofWhole (if b then 1 else 0)
  | d => .error (.realWanted d.kind)

def characterOf (d : Document) : Except Fault Char :=
  let ofCode (n : Int) : Except Fault Char :=
    if n < 0 ∨ 0x110000 ≤ n then .error .characterRange else .ok (Char.ofNat n.toNat)
  match d with
  | .int n => ofCode n
  | .bool b => ofCode (if b then 1 else 0)
  | .text s => match s.toList with
    | [c] => .ok c
    | _ => .error .characterWanted
  | _ => .error .characterWanted

def write (flags : Flags) (precision : Option Nat) (letter : Char) (position : Nat)
    (d : Document) : Except Fault Written :=
  let base (n : Nat) (mark : List Char) : Except Fault Written :=
    (wholeOf letter false d).map fun i => (Written.ofWhole flags precision n mark i).upper letter
  if letter = 's' then .ok (.ofText precision d.display)
  else if letter = 'r' then .ok (.ofText precision d.literal)
  else if letter = 'a' then
    .ok (.ofText precision (String.ofList (Template.asciiOnly d.literal.toList)))
  else if letter = 'c' then
    (characterOf d).map fun c => ⟨false, false, [], [c]⟩
  else if letter = 'd' ∨ letter = 'i' ∨ letter = 'u' then
    (wholeOf letter true d).map fun i =>
      { Written.ofWhole flags precision 10 [] i with mark := [] }
  else if letter = 'o' then base 8 ['0', 'o']
  else if letter = 'x' ∨ letter = 'X' then base 16 ['0', 'x']
  else if ['e', 'E', 'f', 'F', 'g', 'G'].contains letter then
    (realOf d).map fun x => (Written.ofReal flags precision letter x).upper letter
  else .error (.unknownLetter letter position)

def Written.layOut (w : Written) (flags : Flags) (width : Int) : List Char :=
  let left := flags.left || width < 0
  let sign :=
    if !w.numeric then []
    else if w.negative then ['-']
    else if flags.sign then ['+']
    else if flags.blank then [' ']
    else []
  let front := sign ++ w.mark
  let room := width.natAbs - (front.length + w.body.length)
  if left then front ++ w.body ++ List.replicate room ' '
  else if flags.zero && w.numeric then front ++ List.replicate room '0' ++ w.body
  else List.replicate room ' ' ++ front ++ w.body

/-- The arguments of a place that may begin with the name of a member. -/
def selected (cs : List Char) (args : Arguments) : Except Fault (List Char × Arguments) :=
  match cs with
  | '(' :: rest =>
    match args with
    | .list _ => .error .notARecord
    | .record all _ => do
      let (name, rest) ← keyName [] 0 rest
      match all.member? name with
      | some d => return (rest, .record all (some d))
      | none => throw (.unknownKey name)
  | cs => .ok (cs, args)

def skipSize (cs : List Char) : List Char :=
  match cs with
  | c :: rest => if c = 'h' ∨ c = 'l' ∨ c = 'L' then rest else cs
  | [] => []

/-- The text of a place after its percent sign, `total` characters being in the message, with the
rest of the message and the arguments left. -/
def place (total : Nat) (cs : List Char) (args : Arguments) :
    Except Fault (List Char × List Char × Arguments) := do
  let (cs, args) ← selected cs args
  let flags := Flags.ofChars (cs.takeWhile isFlag)
  let (width, cs, args) ← widthOf (cs.dropWhile isFlag) args
  let (precision, cs, args) ← precisionOf cs args
  match skipSize cs with
  | [] => throw .incompletePlace
  | letter :: rest => do
    let (d, args) ← args.next
    let w ← write flags precision letter (total - rest.length - 1) d
    return (w.layOut flags width, rest, args)

def fillFrom (total : Nat) : (fuel : Nat) → List Char → Arguments →
    Except Fault (List Char × Arguments)
  | 0, _, args => .ok ([], args)
  | _ + 1, [], args => .ok ([], args)
  | fuel + 1, c :: rest, args =>
    if c = '%' ∧ rest.head? = some '%' then do
      let (more, args) ← fillFrom total fuel (rest.drop 1) args
      return ('%' :: more, args)
    else if c = '%' then do
      let (text, rest, args) ← place total rest args
      let (more, args) ← fillFrom total fuel rest args
      return (text ++ more, args)
    else do
      let (more, args) ← fillFrom total fuel rest args
      return (c :: more, args)

/-- The text of a message with its arguments; without arguments it is the text as it stands. -/
def fill (message : String) (args : List Document) : Except Fault String :=
  if args.isEmpty then .ok message
  else do
    let cs := message.toList
    let (text, left) ← fillFrom cs.length (cs.length + 1) cs (.ofList args)
    match left with
    | .list (_ :: _) => throw .tooMany
    | _ => return String.ofList text

end PlayerLookup.LogMessage
