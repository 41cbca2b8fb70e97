import PlayerLookup.Remote.Exchange
import PlayerLookup.Remote.Record
import PlayerLookup.Source

/-! The source that asks the remote service: names in batches of up to a hundred, ids one by one
through the history of their names. -/

set_option autoImplicit false

namespace PlayerLookup

namespace Remote

variable {σ : Type}

def namesPerRequest : Nat := 100

def logRequest (message : String) : Lookup σ Unit := Lookup.log .trace .remoteSource message none

def queryNames (r : Remote σ) (names : List String) : Lookup σ (List Profile) :=
  if names.isEmpty then return []
  else do
    let url := r.settings.profilesUrl
    logRequest ("POST " ++ url ++ " names=" ++ (Document.list (names.map .text)).literal)
    match ← r.exchange (.profiles url names) "profile lookup service" with
    | .list entries => do
      let profiles ← decodeProfiles entries
      Lookup.log .debug .remoteSource ("Resolved " ++ toString profiles.length ++ "/"
        ++ toString names.length ++ " names from " ++ url) none
      return profiles
    | other => do
      Lookup.log .warning .remoteSource
        ("Unexpected response from profile lookup service: " ++ other.kind) none
      return []

def historyUrl (r : Remote σ) (id : PlayerId) : Except Failure String :=
  match Template.fillIn r.platform.parts r.settings.historyUrl [("uuid", id.digits)] with
  | .ok url => .ok url
  | .error fault => .error (.template fault)

def queryId (r : Remote σ) (id : PlayerId) : Lookup σ (Option Profile) := do
  let url ← Lookup.ofExcept (r.historyUrl id)
  logRequest ("GET " ++ url)
  let history ← r.exchange (.history url) "name history service"
  decodeHistory id history

def bodies (names : List String) : List (List String) :=
  Batch.chunks namesPerRequest (Batch.unique names)

def queryBodies (r : Remote σ) (bodies : List (List String)) : Lookup σ (List Profile) :=
  match bodies with
  | [] => return []
  | names :: rest => do
    let found ← r.queryNames names
    let more ← r.queryBodies rest
    return found ++ more

def findNames (r : Remote σ) (names : List String) : Lookup σ (List Profile) := do
  return Profile.distinct (← r.queryBodies (bodies names))

/-- The profiles of all bodies in turn, each body's before the next is sent. -/
def visitBodies (r : Remote σ) (bodies : List (List String)) : Delivery σ Unit :=
  match bodies with
  | [] => return
  | names :: rest => do
    let found ← Delivery.ofLookup (r.queryNames names)
    let stopped ← Delivery.giveAll found
    if stopped then return else r.visitBodies rest

end Remote

def Source.remote {σ : Type} (r : Remote σ) : Source σ where
  label := "HttpRepositoryService"
  limit := Remote.namesPerRequest
  byName :=
    { one := fun name => return (← r.findNames [name]).head?
      all := r.findNames
      visit := fun names => r.visitBodies (Remote.bodies names) }
  byId := Queries.ofOne r.queryId

end PlayerLookup
