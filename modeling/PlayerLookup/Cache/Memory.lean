import PlayerLookup.Cache
import PlayerLookup.Cell
import PlayerLookup.Dictionary

/-! The cache in memory: a dictionary of names by id and one of ids by name. A player has one
current name and a name one current holder, so storing a profile forgets the old name of the
player and the old holder of the name. -/

set_option autoImplicit false

namespace PlayerLookup

/-- The two dictionaries. -/
structure Memory where
  names : Dictionary PlayerId Name
  ids : Dictionary Name PlayerId

namespace Memory

def empty : Memory := ⟨[], []⟩

def size (m : Memory) : Nat := m.names.length

def forgetName (ids : Dictionary Name PlayerId) (n : Name) :
    Except Failure (Dictionary Name PlayerId) :=
  match ids.remove? n with
  | some rest => .ok rest
  | none => .error (.lostEntry (Text.quoted n.text))

def forgetHolder (names : Dictionary PlayerId Name) (id : PlayerId) :
    Except Failure (Dictionary PlayerId Name) :=
  match names.remove? id with
  | some rest => .ok rest
  | none => .error (.lostEntry ("UUID('" ++ id.text ++ "')"))

/-- The ids by name without the name that a profile's player had before. -/
def withoutOldName (m : Memory) (p : Profile) : Except Failure (Dictionary Name PlayerId) :=
  match m.names.get? p.id with
  | some old => if old = p.name then .ok m.ids else forgetName m.ids old
  | none => .ok m.ids

/-- The names by id without the player who held a profile's name before. -/
def withoutOldHolder (names : Dictionary PlayerId Name) (ids : Dictionary Name PlayerId)
    (p : Profile) : Except Failure (Dictionary PlayerId Name) :=
  match ids.get? p.name with
  | some holder => if holder = p.id then .ok names else forgetHolder names holder
  | none => .ok names

def store (m : Memory) (p : Profile) : Except Failure Memory := do
  let ids ← m.withoutOldName p
  let names ← withoutOldHolder m.names ids p
  return ⟨names.set p.id p.name, ids.set p.name p.id⟩

def profile? (m : Memory) (id : PlayerId) : Option Profile :=
  (m.names.get? id).map fun n => ⟨id, n⟩

def holder? (m : Memory) (name : String) : Option Profile := do
  let n ← Name.ofText? name
  let id ← m.ids.get? n
  return ⟨id, n⟩

def profiles (m : Memory) (ids : List PlayerId) : List Profile :=
  (Batch.unique ids).filterMap m.profile?

def holders (m : Memory) (names : List String) : List Profile :=
  (Batch.unique names).filterMap m.holder?

end Memory

namespace Cache

variable {σ : Type}

def storeInMemory (cell : Cell σ Memory) (ps : List Profile) : Lookup σ Unit :=
  match ps with
  | [] => return
  | p :: rest => do
    let m ← cell.read
    match m.store p with
    | .ok m' => do
      cell.write m'
      storeInMemory cell rest
    | .error f => Lookup.fail f

def memory (cell : Cell σ Memory) : Cache σ where
  label := "HashMapCache"
  putAll := storeInMemory cell
  getAll ids := return (← cell.read).profiles ids
  getAllByName? := some fun names => return (← cell.read).holders names

end Cache

end PlayerLookup
