/-! Stretches of characters that a case mapping moves by one common distance: the compact form in
which the case tables are written. -/

set_option autoImplicit false

namespace PlayerLookup.Text

/-- The characters `first`, `first + step`, …, `last`, mapped to `target`, `target + step`, … -/
structure CaseRun where
  first : Nat
  last : Nat
  step : Nat
  target : Nat

def CaseRun.codeOf? (run : CaseRun) (code : Nat) : Option Nat :=
  if run.first ≤ code ∧ code ≤ run.last ∧ (code - run.first) % run.step = 0 then
    some (run.target + (code - run.first))
  else none

/-- Maps one character: expansions first, then runs; a character in neither stays itself. -/
def mapCase (runs : List CaseRun) (expansions : List (Nat × List Nat)) (c : Char) : List Char :=
  match expansions.lookup c.toNat with
  | some codes => codes.map Char.ofNat
  | none =>
    match runs.findSome? (·.codeOf? c.toNat) with
    | some code => [Char.ofNat code]
    | none => [c]

end PlayerLookup.Text
