import PlayerLookup.Lookup
import PlayerLookup.Profile

/-! Records of the remote service. A profile record has an id and a name; a name history is a list
of records with names, the latest last. Records that cannot be used are logged and skipped. -/

set_option autoImplicit false

namespace PlayerLookup.Remote

/-- Why a record cannot be used. -/
inductive Unusable where
  | notARecord (entry : Document)
  | incomplete (entry : Document)
  | invalid (entry : Document) (cause : Failure)
  | notAHistory (id : PlayerId) (entries : Document)
  | nameless (id : PlayerId) (entry : Document)
  | badName (id : PlayerId) (entry : Document) (cause : Failure)

def Unusable.message : Unusable → String
  | .notARecord entry => "Got invalid value from profile lookup service: " ++ entry.literal
  | .incomplete entry => "Skipping profile record without id or name: " ++ entry.literal
  | .invalid entry cause =>
    "Got invalid value from profile lookup service: " ++ entry.literal
      ++ " (" ++ cause.message ++ ")"
  | .notAHistory id entries =>
    "Got invalid name history for " ++ id.text ++ ": " ++ entries.literal
  | .nameless id entry =>
    "Skipping name history record without name for " ++ id.text ++ ": " ++ entry.literal
  | .badName id entry cause =>
    "Got invalid value from name history service for " ++ id.text ++ ": " ++ entry.literal
      ++ " (" ++ cause.message ++ ")"

/-- The member of a record, where null counts as missing. -/
def present? (entry : Document) (name : String) : Option Document :=
  match entry.member? name with
  | some .null => none
  | m => m

def profileOf (entry : Document) : Except Unusable Profile :=
  match entry with
  | .record _ =>
    match present? entry "id", present? entry "name" with
    | some id, some name =>
      match (PlayerId.parse id.display).bind (Profile.make · name.display) with
      | .ok p => .ok p
      | .error cause => .error (.invalid entry cause)
    | _, _ => .error (.incomplete entry)
  | _ => .error (.notARecord entry)

def profileAt (id : PlayerId) (entry : Document) : Except Unusable Profile :=
  match present? entry "name" with
  | none => .error (.nameless id entry)
  | some name =>
    match Profile.make id name.display with
    | .ok p => .ok p
    | .error cause => .error (.badName id entry cause)

variable {σ : Type}

def skip (u : Unusable) : Lookup σ Unit := Lookup.log .warning .remoteSource u.message none

def usable? (r : Except Unusable Profile) : Lookup σ (Option Profile) :=
  match r with
  | .ok p => return some p
  | .error u => do
    skip u
    return none

def decodeProfile (entry : Document) : Lookup σ (Option Profile) := usable? (profileOf entry)

def decodeProfiles (entries : List Document) : Lookup σ (List Profile) := do
  let found ← Lookup.forEach entries decodeProfile
  return found.filterMap id

/-- The profile of the last record of a history that can be used. -/
def decodeHistory (id : PlayerId) (entries : Document) : Lookup σ (Option Profile) :=
  match entries with
  | .list items => do
    let found ← Lookup.forEach items fun entry => usable? (profileAt id entry)
    return (found.filterMap fun p => p).getLast?
  | other => do
    skip (.notAHistory id other)
    return none

end PlayerLookup.Remote
