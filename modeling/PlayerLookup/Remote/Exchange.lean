import PlayerLookup.Lookup
import PlayerLookup.Platform
import PlayerLookup.Text.Search

/-! Requests to the remote service. A request that fails on the way is sent again after a delay
that doubles each time, as often as the settings allow; other failures end it at once. -/

set_option autoImplicit false

namespace PlayerLookup

/-- An answer of the remote service, as it is seen once it has come in: its status, the failure that
the status tells of, whether there is anything in it, and the document in it, or the failure to read
one. -/
structure Response where
  status : Nat
  refusal : Option Failure
  hasContent : Bool
  content : Except Failure Document

/-- The document of an answer: none of its own means an empty list. -/
def Response.document (r : Response) : Except Failure Document :=
  match r.refusal with
  | some f => .error f
  | none => if r.status = 204 ∨ r.hasContent = false then .ok (.list []) else r.content

/-- An answer that tells of no failure, with a document. -/
def Response.holding (d : Document) : Response := ⟨200, none, true, .ok d⟩

/-- How the remote service is asked. -/
structure RemoteSettings where
  agent : String
  profilesUrl : String
  historyUrl : String
  retries : Nat
  retryDelay : Amount
  timeout : Option Amount

namespace RemoteSettings

def defaultAgent : String := "minecraft"

def defaultProfilesUrl (agent : String) : String := "https://api.mojang.com/profiles/" ++ agent

def defaultHistoryUrl : String := "https://api.mojang.com/user/profiles/\x7buuid\x7d/names"

/-- Where the id of a player stands in the address of a history. -/
def idField : String := "\x7buuid\x7d"

def checkRetries (given : Int) : Except Failure Nat :=
  if given < 0 then .error (.misuse (.retries given)) else .ok given.toNat

def checkDelay (given : Amount) : Except Failure Amount :=
  if given.isNegative then .error (.misuse (.retryDelay given)) else .ok given

def checkTimeout (given : Option Amount) : Except Failure (Option Amount) :=
  match given with
  | none => .ok none
  | some t => if t.isNotPositive then .error (.misuse (.timeout t)) else .ok (some t)

/-- Settings from what is given; an empty address stands for the usual one. -/
def make (agent profilesUrl historyUrl : String) (retries : Int) (retryDelay : Amount)
    (timeout : Option Amount) : Except Failure RemoteSettings := do
  if agent = "" then throw (.misuse .noAgent)
  let profilesUrl := if profilesUrl = "" then defaultProfilesUrl agent else profilesUrl
  let historyUrl := if historyUrl = "" then defaultHistoryUrl else historyUrl
  if !Text.contains historyUrl idField then throw (.misuse (.templateWithoutId historyUrl))
  let retries ← checkRetries retries
  let retryDelay ← checkDelay retryDelay
  let timeout ← checkTimeout timeout
  return ⟨agent, profilesUrl, historyUrl, retries, retryDelay, timeout⟩

end RemoteSettings

/-- The remote service: its settings, the way to it, how to ask whether waiting for it has been
cancelled, and the platform that it is asked from. -/
structure Remote (σ : Type) where
  settings : RemoteSettings
  send : Request → Lookup σ Response
  cancelled? : Option (Lookup σ Bool)
  platform : Platform

namespace Remote

variable {σ : Type}

def sendOnce (r : Remote σ) (request : Request) : Lookup σ Document := do
  Lookup.emit (.request request r.settings.timeout)
  let response ← r.send request
  Lookup.ofExcept response.document

/-- Lets a delay pass. A cancelling that has come already counts before anything that is wrong with
the delay. -/
def pause (r : Remote σ) (delay : Amount) : Lookup σ Unit :=
  match r.cancelled? with
  | none =>
    match r.platform.sleeping delay with
    | some f => Lookup.fail f
    | none => Lookup.emit (.pause delay)
  | some ask => do
    Lookup.emit (.wait delay)
    let cancelled ← ask
    if cancelled then Lookup.fail .backoffCancelled
    else match r.platform.waiting delay with
      | some f => Lookup.fail f
      | none => return

def logGivenUp (r : Remote σ) (service : String) (f : Failure) : Lookup σ Unit :=
  Lookup.log .error .remoteSource ("Failed to query " ++ service ++ " after "
    ++ toString r.settings.retries ++ " retries: " ++ f.message) none

def logRetry (service : String) (delay : Amount) (left : Nat) (f : Failure) : Lookup σ Unit :=
  match delay.threePlaces? with
  | none => Lookup.fail .delayTooLarge
  | some seconds =>
    Lookup.log .warning .remoteSource ("Failed to query " ++ service ++ " -- retrying in "
      ++ seconds ++ "s (" ++ toString left ++ " retries left)") (some f)

/-- Sends a request until it succeeds, with a number of retries left and the next delay. -/
def exchangeFrom (r : Remote σ) (request : Request) (service : String) :
    (left : Nat) → (delay : Amount) → Lookup σ Document
  | left, delay => do
    match ← (r.sendOnce request).attempt with
    | .ok d => return d
    | .error f =>
      if f.isIn .request then
        match left with
        | 0 => do
          r.logGivenUp service f
          Lookup.fail f
        | n + 1 => do
          logRetry service delay (n + 1) f
          r.pause delay
          r.exchangeFrom request service n delay.twice
      else Lookup.fail f

def exchange (r : Remote σ) (request : Request) (service : String) : Lookup σ Document :=
  r.exchangeFrom request service r.settings.retries r.settings.retryDelay

end Remote

end PlayerLookup
