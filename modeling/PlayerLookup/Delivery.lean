import PlayerLookup.Lookup
import PlayerLookup.Profile

/-! Deliveries: lookups that give profiles to a visitor one by one while they run. A delivery is a
tree of what it does next, which depends on the state and on the visitor's answers, so that a
source can wrap the deliveries of another source and see every profile and every answer. -/

set_option autoImplicit false

namespace PlayerLookup

variable {σ α β : Type}

/-- What a delivery does next. The visitor may fail, and the delivery sees that too. -/
inductive Delivery (σ α : Type) where
  | done (result : Except Failure α)
  | read (next : σ → Delivery σ α)
  | write (events : List Event) (state : σ) (next : Delivery σ α)
  | give (profile : Profile) (next : Except Failure Document → Delivery σ α)

namespace Delivery

def andThen (d : Delivery σ α) (after : α → Delivery σ β) : Delivery σ β :=
  match d with
  | .done (.ok a) => after a
  | .done (.error f) => .done (.error f)
  | .read next => .read fun s => (next s).andThen after
  | .write events t next => .write events t (next.andThen after)
  | .give p next => .give p fun answer => (next answer).andThen after

instance : Monad (Delivery σ) where
  pure a := .done (.ok a)
  bind := andThen

def ofLookup (m : Lookup σ α) : Delivery σ α :=
  .read fun s =>
    let r := m s
    .write r.events r.state (.done r.result)

def attempt (d : Delivery σ α) : Delivery σ (Except Failure α) :=
  match d with
  | .done result => .done (.ok result)
  | .read next => .read fun s => (next s).attempt
  | .write events t next => .write events t next.attempt
  | .give p next => .give p fun answer => (next answer).attempt

def ask (p : Profile) : Delivery σ Document := .give p .done

def run (visitor : Profile → Lookup σ Document) (d : Delivery σ α) : Lookup σ α :=
  match d with
  | .done result => Lookup.ofExcept result
  | .read next => fun s => (next s).run visitor s
  | .write events t next => fun _ =>
    let r := next.run visitor t
    ⟨events ++ r.events, r.state, r.result⟩
  | .give p next => fun s =>
    let a := visitor p s
    let r := (next a.result).run visitor a.state
    ⟨a.events ++ r.events, r.state, r.result⟩

/-- Gives profiles in order, up to the first that the visitor stops at; tells whether it did. -/
def giveAll (ps : List Profile) : Delivery σ Bool :=
  match ps with
  | [] => return false
  | p :: rest => do
    let answer ← ask p
    if answer.stops then return true else giveAll rest

end Delivery

end PlayerLookup
