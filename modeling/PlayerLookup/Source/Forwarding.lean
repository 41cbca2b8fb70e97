import PlayerLookup.Cache
import PlayerLookup.Source

/-! The source that stores in a cache every profile that another source finds, before it passes the
profile on. A cache that fails is logged and changes nothing else. -/

set_option autoImplicit false

namespace PlayerLookup

variable {σ K α : Type}

def Cache.keep (c : Cache σ) (ps : List Profile) : Lookup σ Unit :=
  if ps.isEmpty then return
  else (c.putAll ps).rescue fun f =>
    Lookup.log .warning .forwardingSource ("Failed to add " ++ toString ps.length
      ++ " resolved profiles to the cache: " ++ f.message) (some f)

/-- A delivery whose profiles are stored before the visitor gets them. -/
def Delivery.keeping (c : Cache σ) (d : Delivery σ α) : Delivery σ α :=
  match d with
  | .done result => .done result
  | .read next => .read fun s => (next s).keeping c
  | .write events t next => .write events t (next.keeping c)
  | .give p next =>
    .read fun s =>
      let r := c.keep [p] s
      .write r.events r.state
        (match r.result with
          | .ok _ => .give p fun answer => (next answer).keeping c
          | .error f => (next (.error f)).keeping c)

def Queries.keeping (c : Cache σ) (q : Queries σ K) : Queries σ K where
  one key := do
    let found ← q.one key
    c.keep found.toList
    return found
  all keys := do
    let found ← q.all keys
    c.keep found
    return found
  visit keys := (q.visit keys).keeping c

def Source.forwarding (c : Cache σ) (s : Source σ) : Source σ where
  label := "CacheForwardingService"
  limit := s.limit
  byName := s.byName.keeping c
  byId := s.byId.keeping c

end PlayerLookup
