import PlayerLookup.Source

/-! The source of the players that a host application knows. Its registry may spell a name in its
own way; where it gives no spelling the name stays as it was asked for. -/

set_option autoImplicit false

namespace PlayerLookup

/-- What a host application tells about its players. -/
structure Registry (σ : Type) where
  idOf : String → Lookup σ (Option PlayerId)
  nameOf : PlayerId → Lookup σ (Option String)

namespace Registry

variable {σ : Type}

def fixed (idOf : String → Option PlayerId) (nameOf : PlayerId → Option String) : Registry σ where
  idOf name := return idOf name
  nameOf id := return nameOf id

def orElse (text : Option String) (other : String) : String :=
  match text with
  | some t => if t = "" then other else t
  | none => other

def findName (r : Registry σ) (name : String) : Lookup σ (Option Profile) := do
  match ← r.idOf name with
  | none => return none
  | some id => do
    let current ← r.nameOf id
    let p ← Lookup.ofExcept (Profile.make id (orElse current name))
    return some p

def findId (r : Registry σ) (id : PlayerId) : Lookup σ (Option Profile) := do
  match ← r.nameOf id with
  | none => return none
  | some name => do
    let p ← Lookup.ofExcept (Profile.make id name)
    return some p

end Registry

def Source.host {σ : Type} (r : Registry σ) : Source σ where
  label := "HostPlayerService"
  limit := unlimited
  byName := Queries.ofOne r.findName
  byId := Queries.ofOne r.findId

end PlayerLookup
