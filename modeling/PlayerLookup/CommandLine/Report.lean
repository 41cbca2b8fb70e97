import PlayerLookup.CommandLine.Arguments
import PlayerLookup.Document.Printer
import PlayerLookup.Source.Combined

/-! What the command line prints: the profiles that were found, in the order of their folded names,
as lines or as a list of records, and the keys that no profile answered. -/

set_option autoImplicit false

namespace PlayerLookup.CommandLine

/-- Profiles in the order of their names without regard to case. -/
def inOrder (ps : List Profile) : List Profile :=
  ps.mergeSort fun a b => !(Text.fold b.name.text < Text.fold a.name.text)

def recordOf (p : Profile) : Document :=
  .record [("id", .text p.id.text), ("name", .text p.name.text)]

def formatProfiles (ps : List Profile) (json : Bool) : String :=
  let ordered := inOrder ps
  if json then (Document.list (ordered.map recordOf)).indented 0
  else "\n".intercalate (ordered.map Profile.text)

def unresolvedNames (keys : List String) (ps : List Profile) (caseSensitive : Bool) :
    List String :=
  let found := ps.map fun p => matchingForm caseSensitive p.name.text
  keys.filter fun key => !found.contains (matchingForm caseSensitive key)

def unresolvedIds (keys : List PlayerId) (ps : List Profile) : List PlayerId :=
  keys.filter fun key => !(ps.map Profile.id).contains key

def unresolved (keys : Keys) (ps : List Profile) (caseSensitive : Bool) : List String :=
  match keys with
  | .names keys => unresolvedNames keys ps caseSensitive
  | .ids keys => (unresolvedIds keys ps).map PlayerId.text

/-- The line that names keys without an answer, if there are any. -/
def unresolvedLine (missing : List String) : String :=
  if missing.isEmpty then ""
  else "Could not resolve " ++ toString missing.length ++ " keys: " ++ ", ".intercalate missing
    ++ "\n"

def printed (ps : List Profile) (json : Bool) : String :=
  if !ps.isEmpty then formatProfiles ps json ++ "\n"
  else if json then "[]\n"
  else ""

end PlayerLookup.CommandLine
