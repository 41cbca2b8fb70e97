import PlayerLookup.Text.PrintableTable

/-! Which characters can be shown as themselves inside a quoted text. -/

set_option autoImplicit false

namespace PlayerLookup.Text

def inRanges (ranges : List (Nat × Nat)) (code : Nat) : Bool :=
  ranges.any fun (lo, hi) => lo ≤ code && code ≤ hi

/-- Controls, format characters, unassigned characters and all separators but the plain space
cannot be shown as themselves. -/
def isPrintable (c : Char) : Bool :=
  if c.toNat < 0x7f then 0x20 ≤ c.toNat else inRanges printableRanges c.toNat

end PlayerLookup.Text
