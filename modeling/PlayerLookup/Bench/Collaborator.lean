import PlayerLookup.Bench.World
import PlayerLookup.Document.Printer
import PlayerLookup.Packages.Reader

/-! Scripted collaborators: the way to the remote service, the question whether to cancel, a source
with given answers, a cache without names, and a visitor. -/

set_option autoImplicit false

namespace PlayerLookup.Bench

def bytesOf (s : String) : List UInt8 := s.toUTF8.toList

def echoRecords (first : Nat) : List String → List Document
  | [] => []
  | name :: rest =>
    .record [("id", .text (PlayerId.dashless ⟨BitVec.ofNat 128 first⟩)), ("name", .text name)]
      :: echoRecords (first + 1) rest

def namesOf : Request → List String
  | .profiles _ names => names
  | .history _ => []

def Body.bytesFor (request : Request) : Body → List UInt8
  | .bytes content => content
  | .echo first => bytesOf (Document.list (echoRecords first (namesOf request))).compact

/-- The word for the class of a status that tells of a failure. -/
def statusClass? (status : Nat) : Option String :=
  if 400 ≤ status ∧ status < 500 then some "Client"
  else if 500 ≤ status ∧ status < 600 then some "Server"
  else none

def refusalOf (status : Nat) (reason : Option String) (url : String) : Option Failure :=
  (statusClass? status).map fun word => .foreign .request "requests.HTTPError"
    (toString status ++ " " ++ word ++ " Error: " ++ reason.getD "None" ++ " for url: " ++ url)

/-- The failure that a fault in the text of an answer comes to. -/
def contentFailure (l : Document.Reader.Located) : Failure :=
  match l.fault with
  | .tooManyDigits _ => .foreign .badValue "ValueError" l.fault.wording
  | .tooDeep _ => .foreign .ordinary "RecursionError" l.fault.wording
  | .halfCharacter => .foreign .ordinary "NotImplementedError" l.fault.wording
  | _ => .foreign .request "requests.JSONDecodeError" l.message

def contentOf (bytes : List UInt8) : Except Failure Document :=
  match Document.ofBytes bytes with
  | .ok d => .ok d
  | .error l => .error (contentFailure l)

def responseOf (status : Nat) (reason : Option String) (url : String) (bytes : List UInt8) :
    Response :=
  ⟨status, refusalOf status reason url, !bytes.isEmpty, contentOf bytes⟩

def sendScripted (n : Nat) (request : Request) : Lookup World Response := do
  match ← (replyCell n).read with
  | [] => Lookup.fail (.foreign .ordinary "RuntimeError" "no scripted response left")
  | reply :: rest => do
    (replyCell n).write rest
    match reply with
    | .fails f => Lookup.fail f
    | .answers status reason body =>
      return responseOf status reason request.url (body.bytesFor request)

/-- Whether to cancel: not for a number of questions, and ever after. -/
def askCancelled (n : Nat) : Lookup World Bool := do
  match ← (questionCell n).read with
  | 0 => return true
  | left + 1 => do
    (questionCell n).write left
    return false

/-- The first rule that applies to keys, and the rules after it was applied. -/
def applyRules (keys : List String) : List Rule → Option Failure × List Rule
  | [] => (none, [])
  | rule :: rest =>
    let concerned : Bool := match rule.keys with
      | some chosen => keys.any chosen.contains
      | none => true
    if concerned && rule.times != some 0 then
      (some rule.failure, { rule with times := rule.times.map (· - 1) } :: rest)
    else
      let (f, rest) := applyRules keys rest
      (f, rule :: rest)

def obeyRules (n : Nat) (keys : List String) : Lookup World Unit := do
  let rules ← (ruleCell n).read
  let (f, rules) := applyRules keys rules
  (ruleCell n).write rules
  match f with
  | some f => Lookup.fail f
  | none => return

/-! ## The source with given answers -/

/-- Given answers of a source. -/
structure Stub where
  id : String
  byName : List (String × Profile)
  byId : List (PlayerId × Profile)
  extra : List Profile
  limit : Int
  ignoresStop : Bool

def Stub.ask (stub : Stub) (n : Nat) (question : String) (keys : List String) :
    Lookup World Unit := do
  Lookup.emit (.asked stub.id question keys)
  obeyRules n keys

def giveEvery : List Profile → Delivery World Unit
  | [] => return
  | p :: rest => do
    let _ ← Delivery.ask p
    giveEvery rest

def Stub.queries {K : Type} [DecidableEq K] (stub : Stub) (n : Nat) (suffix : String)
    (text : K → String) (table : List (K × Profile)) : Queries World K where
  one key := do
    stub.ask n ("find_by_" ++ suffix) [text key]
    return List.lookup key table
  all keys := do
    stub.ask n ("find_all_by_" ++ suffix) (keys.map text)
    return stub.extra ++ (Batch.unique keys).filterMap fun key => List.lookup key table
  visit keys := do
    Delivery.ofLookup (stub.ask n ("visit_all_by_" ++ suffix) (keys.map text))
    let found := stub.extra ++ (Batch.unique keys).filterMap fun key => List.lookup key table
    if stub.ignoresStop then giveEvery found
    else do
      let _ ← Delivery.giveAll found

def Stub.source (stub : Stub) (n : Nat) : Source World where
  label := "StubService"
  limit := stub.limit
  byName := stub.queries n "name" (fun name => name) stub.byName
  byId := stub.queries n "uuid" PlayerId.text stub.byId

/-! ## The registry with given answers -/

/-- A registry of two tables, of which the last entry of a key counts. -/
def tabled (foldsCase : Bool) (ids : List (String × Option PlayerId))
    (names : List (PlayerId × Option String)) : Registry World :=
  let ids := ids.map fun (name, id) => (matchingForm (!foldsCase) name, id)
  .fixed (fun name => (ids.reverse.lookup (matchingForm (!foldsCase) name)).join)
    (fun id => (names.reverse.lookup id).join)

/-! ## The cache without names -/

def idTable (n : Nat) (label : String) : Cache World where
  label := label
  putAll ps := do
    obeyRules n (ps.map (·.id.text))
    (idTableCell n).modify fun t => ps.foldl (fun t p => t.set p.id p) t
  getAll ids := return (Batch.unique ids).filterMap (← (idTableCell n).read).get?
  getAllByName? := none

/-! ## The visitor -/

/-- The visitor notes each profile, then fails or answers as the script says. -/
def visit (p : Profile) : Lookup World Document := do
  let v ← visitorCell.read
  visitorCell.write { v with answers := v.answers.drop 1, visited := v.visited ++ [p] }
  match v.failure with
  | some (place, f) =>
    if v.visited.length + 1 = place then Lookup.fail f else return v.answers.head?.getD .null
  | none => return v.answers.head?.getD .null

/-- Runs a delivery with a new visitor, and gives the profiles it got. -/
def visiting {α : Type} (answers : List Document) (failure : Option (Nat × Failure))
    (d : Delivery World α) : Lookup World (Except Failure α × List Profile) := do
  visitorCell.write ⟨answers, failure, []⟩
  let outcome ← (d.run visit).attempt
  let v ← visitorCell.read
  return (outcome, v.visited)

end PlayerLookup.Bench
