import PlayerLookup.Cache

/-! Sequences of calls to a cache, of whatever kind it is. -/

set_option autoImplicit false

namespace PlayerLookup

variable {σ : Type}

/-- The two ways to store. -/
inductive Write where
  | one (p : Profile)
  | all (ps : List Profile)

namespace Write

def profiles : Write → List Profile
  | .one p => [p]
  | .all ps => ps

/-- The profiles that several calls store, in order. -/
def history (ws : List Write) : List Profile := ws.flatMap profiles

end Write

namespace Cache

def write (c : Cache σ) : Write → Lookup σ Unit
  | .one p => c.put p
  | .all ps => c.putAll ps

/-- Makes several calls that store, one after the other. -/
def writeEach (c : Cache σ) : List Write → Lookup σ Unit
  | [] => return
  | w :: rest => do
    c.write w
    c.writeEach rest

/-- The profiles that hold several names, of which a cache without an index knows none. -/
def getAllByName (c : Cache σ) (names : List String) : Lookup σ (List Profile) :=
  match c.getAllByName? with
  | some getAll => getAll names
  | none => return []

theorem write_eq (c : Cache σ) (w : Write) : c.write w = c.putAll w.profiles := by
  cases w <;> rfl

/-! ## Calls of every kind, closing and reopening -/

end Cache

/-- What a cache can be asked to do. -/
inductive CacheCall where
  | store (w : Write)
  | get (id : PlayerId)
  | getAll (ids : List PlayerId)
  | getByName (name : String)
  | getAllByName (names : List String)

/-- What can happen to a cache that is kept in a file. -/
inductive CacheStep where
  | call (k : CacheCall)
  | close
  | reopen

namespace Cache

def answer (c : Cache σ) : CacheCall → Lookup σ (List Profile)
  | .store w => do
    c.write w
    return []
  | .get id => return (← c.get id).toList
  | .getAll ids => c.getAll ids
  | .getByName name => return (← oneByName c.getAllByName name).toList
  | .getAllByName names => c.getAllByName names

/-- Takes steps one after the other and gives what each finds. A cache that is reopened is closed
first, and the steps after it go to the one that opening gives. -/
def replay (reopen : Lookup σ (Cache σ)) (c : Cache σ) :
    List CacheStep → Lookup σ (List (List Profile))
  | [] => return []
  | .call k :: rest => do
    let found ← c.answer k
    let more ← replay reopen c rest
    return found :: more
  | .close :: rest => do
    c.close
    let more ← replay reopen c rest
    return [] :: more
  | .reopen :: rest => do
    c.close
    let c ← reopen
    let more ← replay reopen c rest
    return [] :: more

end Cache

end PlayerLookup
