import PlayerLookup.Lookup
import PlayerLookup.Profile

/-! Caches: stores of the profiles last seen, by id. A cache may also have an index by name. What a
cache gives back for several keys is a map, listed without repeats of a key. -/

set_option autoImplicit false

namespace PlayerLookup

variable {σ : Type}

/-- A store of profiles. -/
structure Cache (σ : Type) where
  label : String
  putAll : List Profile → Lookup σ Unit
  getAll : List PlayerId → Lookup σ (List Profile)
  getAllByName? : Option (List String → Lookup σ (List Profile))
  close : Lookup σ Unit := return

namespace Cache

def put (c : Cache σ) (p : Profile) : Lookup σ Unit := c.putAll [p]

def get (c : Cache σ) (id : PlayerId) : Lookup σ (Option Profile) := do
  let found ← c.getAll [id]
  return found.find? (·.id == id)

def hasNames (c : Cache σ) : Bool := c.getAllByName?.isSome

def oneByName (getAll : List String → Lookup σ (List Profile)) (name : String) :
    Lookup σ (Option Profile) := do
  let found ← getAll [name]
  return found.find? (·.name.text == name)

end Cache

end PlayerLookup
