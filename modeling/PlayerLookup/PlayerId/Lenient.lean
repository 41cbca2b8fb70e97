import PlayerLookup.PlayerId
import PlayerLookup.Text.Blank

/-! The lenient reading of ids, for text that was stored by others: a scheme in front and braces
around are dropped, and the 32 characters that remain are a hexadecimal number, which may have
blanks around it, a plus sign, the usual marker of hexadecimal, single underscores between digits,
and digits of any script. -/

set_option autoImplicit false

namespace PlayerLookup.PlayerId

def withoutWord (word : List Char) (cs : List Char) : List Char :=
  match cs with
  | [] => []
  | c :: rest =>
    if word ≠ [] ∧ word.isPrefixOf (c :: rest) then
      withoutWord word (rest.drop (word.length - 1))
    else c :: withoutWord word rest
termination_by cs.length
decreasing_by all_goals simp only [List.length_drop, List.length_cons]; omega

def lenientDigit? (c : Char) : Option Nat := (Text.hexValue? c).or (Text.decimalValue? c)

/-- Digits of base sixteen, a single underscore allowed before each but the first. -/
def lenientNumber? (value : Nat) : (afterDigit : Bool) → List Char → Option Nat
  | true, [] => some value
  | false, [] => none
  | afterDigit, c :: rest =>
    if c = '_' then if afterDigit then lenientNumber? value false rest else none
    else match lenientDigit? c with
      | some d => lenientNumber? (16 * value + d) true rest
      | none => none

/-- A hexadecimal number with blanks, a sign or a marker around it. -/
def lenientHex? (cs : List Char) : Option Nat :=
  let cs := Text.trimWhile Text.isSpace cs
  let cs := match cs with
    | '+' :: rest => rest
    | cs => cs
  match cs with
  | '0' :: c :: rest =>
    if c = 'x' ∨ c = 'X' then
      lenientNumber? 0 false (match rest with | '_' :: more => more | more => more)
    else lenientNumber? 0 false cs
  | cs => lenientNumber? 0 false cs

def read? (s : String) : Option PlayerId :=
  let cs := withoutWord "uuid:".toList (withoutWord "urn:".toList s.toList)
  let cs := withoutDashes (Text.trimWhile (fun c => c = '\x7b' ∨ c = '\x7d') cs)
  if cs.length = digitCount then
    (lenientHex? cs).map fun n => ⟨BitVec.ofNat 128 n⟩
  else none

end PlayerLookup.PlayerId
