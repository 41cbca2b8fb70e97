import PlayerLookup.Document

/-! Complaints about settings: which setting, what is wrong with it, and the value it was given. All
settings are checked, and the complaints are shown together. -/

set_option autoImplicit false

namespace PlayerLookup

/-- What can be wrong with a setting. -/
inductive SettingFlaw where
  | wholeText
  | wholeTooLong
  | wholeKind
  | wholeFraction
  | notFinite
  | atLeast (bound : Nat)
  | realText
  | realKind
  | above (bound : Nat)
  | flagText
  | flagKind
  | textKind
  | pathKind
  | refused (reason : String)
  deriving DecidableEq

def SettingFlaw.type : SettingFlaw → String
  | .wholeText => "int_parsing"
  | .wholeTooLong => "int_parsing_size"
  | .wholeKind => "int_type"
  | .wholeFraction => "int_from_float"
  | .notFinite => "finite_number"
  | .atLeast _ => "greater_than_equal"
  | .realText => "float_parsing"
  | .realKind => "float_type"
  | .above _ => "greater_than"
  | .flagText => "bool_parsing"
  | .flagKind => "bool_type"
  | .textKind => "string_type"
  | .pathKind => "path_type"
  | .refused _ => "value_error"

def SettingFlaw.message : SettingFlaw → String
  | .wholeText => "Input should be a valid integer, unable to parse string as an integer"
  | .wholeTooLong => "Unable to parse input string as an integer, exceeded maximum size"
  | .wholeKind => "Input should be a valid integer"
  | .wholeFraction => "Input should be a valid integer, got a number with a fractional part"
  | .notFinite => "Input should be a finite number"
  | .atLeast bound => "Input should be greater than or equal to " ++ toString bound
  | .realText => "Input should be a valid number, unable to parse string as a number"
  | .realKind => "Input should be a valid number"
  | .above bound => "Input should be greater than " ++ toString bound
  | .flagText => "Input should be a valid boolean, unable to interpret input"
  | .flagKind => "Input should be a valid boolean"
  | .textKind => "Input should be a valid string"
  | .pathKind => "Input is not a valid path for <class 'pathlib.Path'>"
  | .refused reason => "Value error, " ++ reason

/-- A complaint about one setting. -/
structure Complaint where
  setting : String
  flaw : SettingFlaw
  given : Document

namespace Complaint

/-- How many characters from the front fit into a number of bytes. -/
def fitting (room : Nat) : List Char → Nat
  | [] => 0
  | c :: rest =>
    if c.utf8Size ≤ room then fitting (room - c.utf8Size) rest + 1 else 0

/-- At most fifty bytes of a text: the first 25 and the last 24 if it has more. -/
def shortened (s : String) : String :=
  if s.utf8ByteSize ≤ 50 then s
  else
    let cs := s.toList
    String.ofList (cs.take (fitting 25 cs)) ++ "..."
      ++ String.ofList (cs.drop (cs.length - fitting 24 cs.reverse))

def lines (c : Complaint) : List String :=
  [c.setting,
    "  " ++ c.flaw.message ++ " [type=" ++ c.flaw.type ++ ", input_value="
      ++ shortened c.given.literal ++ ", input_type=" ++ c.given.kind ++ "]"]

def report (complaints : List Complaint) : String :=
  let n := complaints.length
  let head := toString n ++ " validation error" ++ (if n = 1 then "" else "s") ++ " for Settings"
  "\n".intercalate (head :: complaints.flatMap lines)

end Complaint

end PlayerLookup
