import PlayerLookup.Amount
import PlayerLookup.Failure

/-! What lies outside of lookups and has a say in them: which delays a clock refuses, which paths
cannot be handed on, and what parts a text has for a template. None of it is decided here. A machine
counts a delay in nanoseconds, in a signed word of 64 bits, and refuses one that does not fit. -/

set_option autoImplicit false

namespace PlayerLookup

/-- The failures of what lies outside; nothing means that there is none. -/
structure Platform where
  /-- The failure to sleep for a delay. -/
  sleeping : Amount → Option Failure
  /-- The failure to wait as long for a cancelling that has not come yet. -/
  waiting : Amount → Option Failure
  /-- The failure to hand a path on. -/
  path : String → Option Failure
  parts : Template.Parts

/-- Whether an amount is a fraction or more; what is no number is not. -/
def Amount.atLeast (a : Amount) (r : Decimal.Ratio) : Bool :=
  match a with
  | .whole n => decide (0 ≤ n) && r.le ⟨n.toNat, 1⟩
  | .flag b => r.le ⟨(ofFlag b).toNat, 1⟩
  | .real x =>
    match Decimal.Binary64.ofFloat x with
    | .infinite negative => !negative
    | .finite negative m => !negative && r.le m.ratio
    | .notNumber => false

namespace Platform

/-- The first number of seconds that a machine cannot count in nanoseconds. -/
def secondsLimit : Decimal.Ratio := ⟨Nat.pow 2 63, Nat.pow 10 9⟩

def tooLong : Failure :=
  .foreign .ordinary "OverflowError" "timestamp too large to convert to C _PyTime_t"

def isNotNumber : Amount → Bool
  | .real x =>
    match Decimal.Binary64.ofFloat x with
    | .notNumber => true
    | _ => false
  | _ => false

/-- The failure to hand on a path with a zero in it. -/
def zeroInPath? (path : String) : Option Failure :=
  if path.toList.contains '\x00' then some .zeroInPath else none

/-- A machine, for delays that are not negative. Sleeping for what is no number fails, and waiting
for it ends at once. -/
def machine (parts : Template.Parts) : Platform where
  sleeping a :=
    if isNotNumber a then some (.foreign .badValue "ValueError" "Invalid value NaN (not a number)")
    else if a.atLeast secondsLimit then some tooLong
    else none
  waiting a := if a.atLeast secondsLimit then some tooLong else none
  path := zeroInPath?
  parts := parts

/-- A machine that has all the time. -/
def patient (parts : Template.Parts) : Platform :=
  { machine parts with sleeping := fun _ => none, waiting := fun _ => none }

end Platform

end PlayerLookup
