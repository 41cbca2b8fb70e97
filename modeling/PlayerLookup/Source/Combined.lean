import PlayerLookup.Progress
import PlayerLookup.Source
import PlayerLookup.Text.Casing

/-! Sources combined in order of priority. Each is asked only for the keys that those before it
left missing, and none once every key is found. Names are matched exactly or without regard to
case. -/

set_option autoImplicit false

namespace PlayerLookup

variable {σ K κ : Type}

namespace Queries

def firstOf (members : List (Queries σ K)) (key : K) : Lookup σ (Option Profile) :=
  match members with
  | [] => return none
  | q :: rest => do
    match ← q.one key with
    | some p => return some p
    | none => firstOf rest key

/-- The profiles that the members find in turn for the keys still missing. -/
def collectMembers [DecidableEq κ] (normal : K → κ) (keyOf : Profile → K)
    (members : List (String × Queries σ K)) (pr : Progress K κ) : Lookup σ (List Profile) :=
  match members with
  | [] => return []
  | (label, q) :: rest =>
    if pr.isComplete then return []
    else do
      let found ← q.all pr.missing
      let accepted := pr.accept normal keyOf found
      Lookup.log .debug .combinedSource (label ++ " resolved " ++ toString found.length ++ "/"
        ++ toString pr.missing.length ++ " keys") none
      let more ← collectMembers normal keyOf rest accepted.2
      return accepted.1 ++ more

/-- The deliveries of the members in turn for the keys still missing. -/
def visitMembers [DecidableEq κ] (normal : K → κ) (keyOf : Profile → K)
    (members : List (Queries σ K)) (pr : Progress K κ) : Delivery σ Unit :=
  match members with
  | [] => return
  | q :: rest =>
    if pr.isComplete || pr.stopRequested then return
    else do
      let r ← pr.forward normal keyOf (q.visit pr.missing)
      visitMembers normal keyOf rest r.2

def combined [DecidableEq κ] (normal : K → κ) (keyOf : Profile → K)
    (members : List (String × Queries σ K)) : Queries σ K where
  one := firstOf (members.map Prod.snd)
  all keys := collectMembers normal keyOf members (Progress.ofKeys normal keys)
  visit keys := visitMembers normal keyOf (members.map Prod.snd) (Progress.ofKeys normal keys)

end Queries

def matchingForm (caseSensitive : Bool) (name : String) : String :=
  if caseSensitive then name else Text.fold name

def smallestLimit (sources : List (Source σ)) : Int :=
  match sources with
  | [] => unlimited
  | s :: rest => rest.foldl (fun least t => min least t.limit) s.limit

def Source.combined (caseSensitive : Bool) (members : List (Source σ)) : Source σ where
  label := "CombinedProfileService"
  limit := smallestLimit members
  byName := Queries.combined (matchingForm caseSensitive) (·.name.text)
    (members.map fun s => (s.label, s.byName))
  byId := Queries.combined id Profile.id (members.map fun s => (s.label, s.byId))

end PlayerLookup
