import PlayerLookup.Document

/-! Writing documents as text, ASCII only: compact on one line, or indented with one item a line. -/

set_option autoImplicit false

namespace PlayerLookup.Document

/-- A code in a text of the format: sixteen bits to an escape, two escapes beyond. -/
def codeEscape (code : Nat) : List Char :=
  if code < 0x10000 then '\\' :: 'u' :: Text.hexPadded 4 code
  else
    let offset := code - 0x10000
    ('\\' :: 'u' :: Text.hexPadded 4 (0xd800 + offset / 0x400))
      ++ ('\\' :: 'u' :: Text.hexPadded 4 (0xdc00 + offset % 0x400))

def writtenChar (c : Char) : List Char :=
  if c = '\x22' ∨ c = '\\' then ['\\', c]
  else if c = '\n' then ['\\', 'n']
  else if c = '\r' then ['\\', 'r']
  else if c = '\t' then ['\\', 't']
  else if c = '\x08' then ['\\', 'b']
  else if c = '\x0c' then ['\\', 'f']
  else if 0x20 ≤ c.toNat ∧ c.toNat < 0x7f then [c]
  else codeEscape c.toNat

def writtenText (s : String) : String :=
  String.ofList ('\x22' :: s.toList.flatMap writtenChar ++ ['\x22'])

/-- A double of the format; the words differ from the plain form of infinities and non-numbers. -/
def writtenReal (x : Float) : String :=
  if x.isNaN then "NaN"
  else if x.isInf then (if x < 0 then "-Infinity" else "Infinity")
  else Decimal.plainText x

mutual

def compact : Document → String
  | .null => "null"
  | .bool true => "true"
  | .bool false => "false"
  | .int n => toString n
  | .real x => writtenReal x
  | .text s => writtenText s
  | .list items => "[" ++ ", ".intercalate (compactItems items) ++ "]"
  | .record members => "\x7b" ++ ", ".intercalate (compactMembers members) ++ "\x7d"

def compactItems : List Document → List String
  | [] => []
  | d :: rest => compact d :: compactItems rest

def compactMembers : List (String × Document) → List String
  | [] => []
  | (name, d) :: rest => (writtenText name ++ ": " ++ compact d) :: compactMembers rest

end

/-- Lines of a bracketed group, one level deeper than the brackets. -/
def indentedGroup (opening closing : String) (level : Nat) (lines : List String) : String :=
  match lines with
  | [] => opening ++ closing
  | lines =>
    let margin (n : Nat) := "\n" ++ String.ofList (List.replicate (2 * n) ' ')
    opening ++ ",".intercalate (lines.map (margin (level + 1) ++ ·)) ++ margin level ++ closing

mutual

/-- The document with one item or member a line, two spaces deeper on each level. -/
def indented (level : Nat) : Document → String
  | .null => "null"
  | .bool true => "true"
  | .bool false => "false"
  | .int n => toString n
  | .real x => writtenReal x
  | .text s => writtenText s
  | .list items => indentedGroup "[" "]" level (indentedItems (level + 1) items)
  | .record members => indentedGroup "\x7b" "\x7d" level (indentedMembers (level + 1) members)

def indentedItems (level : Nat) : List Document → List String
  | [] => []
  | d :: rest => indented level d :: indentedItems level rest

def indentedMembers (level : Nat) : List (String × Document) → List String
  | [] => []
  | (name, d) :: rest =>
    (writtenText name ++ ": " ++ indented level d) :: indentedMembers level rest

end

end PlayerLookup.Document
