import PlayerLookup.Cache
import PlayerLookup.Source

/-! The source that answers from a cache. Without an index by name it knows no name, so that the
sources after it are asked. -/

set_option autoImplicit false

namespace PlayerLookup

variable {σ : Type}

def Cache.nameQueries (c : Cache σ) : Queries σ String :=
  match c.getAllByName? with
  | none =>
    { one := fun _ => return none
      all := fun _ => return []
      visit := fun _ => return }
  | some getAll =>
    { Queries.ofOne (Cache.oneByName getAll) with
      all := fun names => getAll (Batch.unique names) }

def Cache.idQueries (c : Cache σ) : Queries σ PlayerId :=
  { Queries.ofOne c.get with
    all := fun ids => c.getAll (Batch.unique ids) }

def Source.cached (c : Cache σ) : Source σ where
  label := "CacheLookupService"
  limit := unlimited
  byName := c.nameQueries
  byId := c.idQueries

/-- What the making of the source is logged as, if its cache has no names. -/
def Cache.noNamesRecord? (c : Cache σ) : Option LogRecord :=
  if c.hasNames then none
  else some
    { level := .debug
      component := .cachedSource
      message := c.label ++ " has no name index; name lookups will fall through" }

end PlayerLookup
