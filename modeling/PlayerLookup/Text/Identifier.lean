import PlayerLookup.Text.IdentifierTable
import PlayerLookup.Text.Printable

/-! Identifiers: a letter or underscore, then letters, digits, marks and underscores, in any
script. -/

set_option autoImplicit false

namespace PlayerLookup.Text

def startsIdentifier (c : Char) : Bool :=
  if c.toNat < 128 then c.isAlpha || c == '_' else inRanges identifierStartRanges c.toNat

def continuesIdentifier (c : Char) : Bool :=
  startsIdentifier c
    || (if c.toNat < 128 then c.isDigit else inRanges identifierPartRanges c.toNat)

def isIdentifier (s : String) : Bool :=
  match s.toList with
  | [] => false
  | c :: rest => startsIdentifier c && rest.all continuesIdentifier

end PlayerLookup.Text
