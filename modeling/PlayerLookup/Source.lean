import PlayerLookup.Delivery
import PlayerLookup.Word

/-! Sources of profiles. A source answers by name and by id, each in three ways: one key, a batch
of keys, and a batch whose profiles are given to a visitor one by one. A source that can answer
one key answers batches by asking for the distinct keys in order. -/

set_option autoImplicit false

namespace PlayerLookup

variable {σ K : Type}

/-- The three ways to ask for keys of one kind. -/
structure Queries (σ K : Type) where
  one : K → Lookup σ (Option Profile)
  all : List K → Lookup σ (List Profile)
  visit : List K → Delivery σ Unit

/-- A source of profiles. `limit` is how many keys it answers well at a time. -/
structure Source (σ : Type) where
  label : String
  limit : Int
  byName : Queries σ String
  byId : Queries σ PlayerId

/-- The limit of sources for which the size of a batch makes no difference. -/
def unlimited : Int := Word.largest

namespace Queries

def collect (one : K → Lookup σ (Option Profile)) (keys : List K) : Lookup σ (List Profile) :=
  match keys with
  | [] => return []
  | k :: rest => do
    let found ← one k
    let more ← collect one rest
    return found.toList ++ more

/-- The profiles found for keys asked one by one, each given before the next key is asked for. -/
def visitEach (one : K → Lookup σ (Option Profile)) (keys : List K) : Delivery σ Unit :=
  match keys with
  | [] => return
  | k :: rest => do
    match ← Delivery.ofLookup (one k) with
    | none => visitEach one rest
    | some p =>
      let answer ← Delivery.ask p
      if answer.stops then return else visitEach one rest

def ofOne [DecidableEq K] (one : K → Lookup σ (Option Profile)) : Queries σ K where
  one := one
  all keys := collect one (Batch.unique keys)
  visit keys := visitEach one (Batch.unique keys)

end Queries

end PlayerLookup
