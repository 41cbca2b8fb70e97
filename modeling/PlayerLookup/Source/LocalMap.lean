import PlayerLookup.Cell
import PlayerLookup.Dictionary
import PlayerLookup.Source

/-! The source of pinned profiles: two dictionaries that are filled by hand. The last profile of a
name answers the name and the last profile of an id answers the id. -/

set_option autoImplicit false

namespace PlayerLookup

/-- Pinned names and ids. -/
structure LocalMap where
  ids : Dictionary Name PlayerId
  names : Dictionary PlayerId Name

namespace LocalMap

def empty : LocalMap := ⟨[], []⟩

def put (m : LocalMap) (p : Profile) : LocalMap :=
  ⟨m.ids.set p.name p.id, m.names.set p.id p.name⟩

def putAll (m : LocalMap) (ps : List Profile) : LocalMap := ps.foldl put m

def byName? (m : LocalMap) (name : String) : Option Profile := do
  let n ← Name.ofText? name
  let id ← m.ids.get? n
  return ⟨id, n⟩

def byId? (m : LocalMap) (id : PlayerId) : Option Profile :=
  (m.names.get? id).map fun n => ⟨id, n⟩

end LocalMap

def Source.localMap {σ : Type} (cell : Cell σ LocalMap) : Source σ where
  label := "HashMapService"
  limit := unlimited
  byName := Queries.ofOne fun name => return (← cell.read).byName? name
  byId := Queries.ofOne fun id => return (← cell.read).byId? id

end PlayerLookup
