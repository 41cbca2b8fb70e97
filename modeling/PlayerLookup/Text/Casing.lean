import PlayerLookup.Text.FoldTable
import PlayerLookup.Text.UpperTable

/-! Case folding and upper case of text, by the full mappings of the Unicode standard. Two names
are the same name without regard to case when their foldings are equal. -/

set_option autoImplicit false

namespace PlayerLookup.Text

def foldChar (c : Char) : List Char :=
  if c.toNat < 128 then [c.toLower] else mapCase foldRuns foldExpansions c

def upperChar (c : Char) : List Char :=
  if c.toNat < 128 then [c.toUpper] else mapCase upperRuns upperExpansions c

/-- Full case folding: the form in which texts are compared without regard to case. -/
def fold (s : String) : String := String.ofList (s.toList.flatMap foldChar)

def upper (s : String) : String := String.ofList (s.toList.flatMap upperChar)

end PlayerLookup.Text
