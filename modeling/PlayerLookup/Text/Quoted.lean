import PlayerLookup.Text.Digit
import PlayerLookup.Text.Printable

/-! Quoted text: the form in which messages show a text exactly. Single quotes enclose it, or
double quotes when it holds a single quote and no double one. Inside, the enclosing quote and the
backslash are escaped, three controls have a letter of their own, and a character that cannot be
shown has its code in hexadecimal. -/

set_option autoImplicit false

namespace PlayerLookup.Text

def enclosingQuote (cs : List Char) : Char :=
  if cs.contains '\x27' && !cs.contains '\x22' then '\x22' else '\x27'

def escapeCode (code : Nat) : List Char :=
  if code < 0x100 then '\\' :: 'x' :: hexPadded 2 code
  else if code < 0x10000 then '\\' :: 'u' :: hexPadded 4 code
  else '\\' :: 'U' :: hexPadded 8 code

def quotedChar (quote c : Char) : List Char :=
  if c = quote ∨ c = '\\' then ['\\', c]
  else if c = '\n' then ['\\', 'n']
  else if c = '\r' then ['\\', 'r']
  else if c = '\t' then ['\\', 't']
  else if isPrintable c then [c]
  else escapeCode c.toNat

def quoted (s : String) : String :=
  let q := enclosingQuote s.toList
  String.ofList (q :: s.toList.flatMap (quotedChar q) ++ [q])

def quotedByte (quote : Char) (b : UInt8) : List Char :=
  if b.toNat < 0x7f then quotedChar quote (Char.ofNat b.toNat) else escapeCode b.toNat

/-- The quoted form of bytes: a quoted text after the letter b, all beyond ASCII by code. -/
def quotedBytes (bytes : List UInt8) : String :=
  let q := enclosingQuote (bytes.map fun b => Char.ofNat b.toNat)
  String.ofList ('b' :: q :: bytes.flatMap (quotedByte q) ++ [q])

end PlayerLookup.Text
