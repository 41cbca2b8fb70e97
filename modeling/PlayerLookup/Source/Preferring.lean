import PlayerLookup.Source.Cached
import PlayerLookup.Source.Forwarding

/-! The source that prefers live answers, then cached ones, and asks another source only for what
is left. Live and looked-up profiles are stored. Deliveries come from the other source alone. -/

set_option autoImplicit false

namespace PlayerLookup

variable {σ K : Type}

namespace Queries

def liveOne (c : Cache σ) (preferred : Option (Queries σ K)) (key : K) :
    Lookup σ (Option Profile) :=
  match preferred with
  | some q => (q.keeping c).one key
  | none => return none

/-- One key: the preferred source, then the cache, then the resolver. -/
def preferOne (c : Cache σ) (preferred : Option (Queries σ K)) (cached resolver : Queries σ K)
    (key : K) : Lookup σ (Option Profile) := do
  match ← liveOne c preferred key with
  | some p => return some p
  | none => do
    match ← cached.one key with
    | some p => return some p
    | none => (resolver.keeping c).one key

def unanswered [DecidableEq K] (keyOf : Profile → K) (found : List Profile) (keys : List K) :
    List K :=
  keys.filter fun k => !(found.map keyOf).contains k

def askIfAny (ask : List K → Lookup σ (List Profile)) (keys : List K) : Lookup σ (List Profile) :=
  if keys.isEmpty then return [] else ask keys

def liveAll (c : Cache σ) (preferred : Option (Queries σ K)) (keys : List K) :
    Lookup σ (List Profile) :=
  match preferred with
  | some q => askIfAny (q.keeping c).all keys
  | none => return []

/-- Several keys: what one leaves unanswered goes to the next. -/
def preferAll [DecidableEq K] (keyOf : Profile → K) (c : Cache σ)
    (preferred : Option (Queries σ K)) (cached resolver : Queries σ K) (keys : List K) :
    Lookup σ (List Profile) := do
  let missing := Batch.unique keys
  let live ← liveAll c preferred missing
  let missing := unanswered keyOf live missing
  let known ← askIfAny cached.all missing
  let missing := unanswered keyOf known missing
  let looked ← askIfAny (resolver.keeping c).all missing
  let missing := unanswered keyOf looked missing
  let results := live ++ known ++ looked
  Lookup.log .debug .preferringSource ("Resolved " ++ toString results.length ++ " profiles, "
    ++ toString missing.length ++ " keys not found") none
  return Profile.distinct results

def preferring [DecidableEq K] (keyOf : Profile → K) (c : Cache σ)
    (preferred : Option (Queries σ K)) (cached resolver : Queries σ K) : Queries σ K where
  one := preferOne c preferred cached resolver
  all := preferAll keyOf c preferred cached resolver
  visit := (resolver.keeping c).visit

end Queries

/-- The source that prefers live and cached answers to those of the resolver. -/
def Source.preferring (c : Cache σ) (preferred : Option (Source σ)) (resolver : Source σ) :
    Source σ where
  label := "PreferredCachedService"
  limit := resolver.limit
  byName := Queries.preferring (·.name.text) c (preferred.map Source.byName) c.nameQueries
    resolver.byName
  byId := Queries.preferring Profile.id c (preferred.map Source.byId) c.idQueries resolver.byId

end PlayerLookup
