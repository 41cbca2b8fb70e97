import PlayerLookup.Bench.Fixture

/-! Questions that are put to fixtures, and their answers. A fixture has no answer to a question
that is not for its kind. -/

set_option autoImplicit false

namespace PlayerLookup.Bench

/-- What a fixture can be asked to show of itself. -/
inductive Property where
  | limit
  | knowsNames
  | stopRequested
  | jobSize
  | effectiveJobSize
  | agent
  | profilesUrl
  | historyUrl
  | retries
  | retryDelay
  | timeout
  | caseSensitive

/-- What can be set on a fixture. -/
inductive Change where
  | jobSize (size : Int)
  | agent (text : String)
  | profilesUrl (text : String)
  | historyUrl (text : String)
  | retries (count : Int)
  | retryDelay (delay : Amount)
  | timeout (time : Option Amount)

/-- What a visitor is told to answer, and where to fail. -/
structure VisitorScript where
  answers : List Document
  failure : Option (Nat × Failure)

/-- A question to a fixture. -/
inductive Question where
  | name (key : String)
  | id (key : PlayerId)
  | names (keys : List String)
  | ids (keys : List PlayerId)
  | visitNames (keys : List String) (visitor : VisitorScript)
  | visitIds (keys : List PlayerId) (visitor : VisitorScript)
  | body (names : List String)
  | store (ps : List Profile)
  | storedId (key : PlayerId)
  | storedName (key : String)
  | storedIds (keys : List PlayerId)
  | storedNames (keys : List String)
  | size
  | hasNames
  | missing
  | isComplete
  | requestStop
  | markFound (key : Document)
  | forward (byId : Bool) (ps : List Profile) (visitor : VisitorScript)
  | property (p : Property)
  | change (c : Change)
  | push (replies : List Reply)
  | canRelease
  | release
  | describe

/-- An answer of a fixture. -/
inductive Answer where
  | done
  | profile (found : Option Profile)
  | profiles (found : List Profile)
  | table (found : List Profile)
  | visited (given : List Profile)
  | answered (answers : List Document) (given : List Profile)
  | flag (b : Bool)
  | number (n : Int)
  | text (s : String)
  | keys (missing : List Document)
  | amount (a : Option Amount)
  | description (d : Description)

def askEach : List Profile → Delivery World (List Document)
  | [] => return []
  | p :: rest => do
    let answer ← Delivery.ask p
    let more ← askEach rest
    return answer :: more

namespace Fixture

def visited (d : Delivery World Unit) (v : VisitorScript) : Lookup World Answer := do
  let (outcome, given) ← visiting v.answers v.failure d
  Lookup.ofExcept outcome
  return .visited given

/-- Passes profiles on through the progress of a lookup. What was found before a failure stays
found. -/
def forwarded (n : Nat) (foldsCase byId : Bool) (ps : List Profile) (v : VisitorScript) :
    Lookup World Answer := do
  let pr ← (progressCell n).read
  let keyOf (p : Profile) : Document := .text (if byId then p.id.text else p.name.text)
  let d := pr.forward (normalKey foldsCase) keyOf (askEach ps).attempt
  let (outcome, given) ← visiting v.answers v.failure d
  let (answers, pr) ← Lookup.ofExcept outcome
  (progressCell n).write pr
  let answers ← Lookup.ofExcept answers
  return .answered answers given

def onProgress (n : Nat) (foldsCase : Bool) : Question → Option (Lookup World Answer)
  | .missing => some do return .keys (← (progressCell n).read).missing
  | .isComplete => some do return .flag (← (progressCell n).read).isComplete
  | .requestStop => some do
    (progressCell n).modify Progress.requestStop
    return .done
  | .markFound key => some do
    let (first, pr) := (← (progressCell n).read).markFound (normalKey foldsCase) key
    (progressCell n).write pr
    return .flag first
  | .forward byId ps v => some (forwarded n foldsCase byId ps v)
  | .property .stopRequested => some do return .flag (← (progressCell n).read).stopRequested
  | _ => none

def remoteProperty? (s : RemoteSettings) : Property → Option Answer
  | .agent => some (.text s.agent)
  | .profilesUrl => some (.text s.profilesUrl)
  | .historyUrl => some (.text s.historyUrl)
  | .retries => some (.number s.retries)
  | .retryDelay => some (.amount (some s.retryDelay))
  | .timeout => some (.amount s.timeout)
  | _ => none

/-- The settings of a remote service after a change. The addresses and the timeout are taken as
they are. -/
def changedRemote (s : RemoteSettings) : Change → Except Failure RemoteSettings
  | .retries count => do return { s with retries := ← RemoteSettings.checkRetries count }
  | .retryDelay delay => do return { s with retryDelay := ← RemoteSettings.checkDelay delay }
  | .timeout time => .ok { s with timeout := time }
  | .agent text => .ok { s with agent := text }
  | .profilesUrl text => .ok { s with profilesUrl := text }
  | .historyUrl text => .ok { s with historyUrl := text }
  | .jobSize _ => .ok s

def onRemote (n : Nat) (cancelled? : Option (Lookup World Bool)) :
    Question → Option (Lookup World Answer)
  | .body names => some do
    let r ← remoteNow n cancelled?
    return .profiles (← r.queryNames names)
  | .push replies => some do
    (replyCell n).modify (· ++ replies)
    return .done
  | .change c => some do
    let s ← Lookup.ofExcept (changedRemote (← (remoteCell n).read) c)
    (remoteCell n).write s
    return .done
  | .property p =>
    match remoteProperty? ⟨"", "", "", 0, .whole 0, none⟩ p with
    | none => none
    | some _ => some do return (remoteProperty? (← (remoteCell n).read) p).getD .done
  | _ => none

def onWorkers (n : Nat) (limit : Int) : Question → Option (Lookup World Answer)
  | .property .jobSize => some do return .number (← (crewCell n).read).jobSize
  | .property .effectiveJobSize => some do
    return .number (min (← (crewCell n).read).jobSize limit)
  | .change (.jobSize size) => some do
    let size ← Lookup.ofExcept (Workers.checkJobSize size)
    (crewCell n).modify fun crew => { crew with jobSize := size }
    return .done
  | _ => none

def onSource (s : Source World) : Question → Option (Lookup World Answer)
  | .name key => some do return .profile (← s.byName.one key)
  | .id key => some do return .profile (← s.byId.one key)
  | .names keys => some do return .profiles (← s.byName.all keys)
  | .ids keys => some do return .profiles (← s.byId.all keys)
  | .visitNames keys v => some (visited (s.byName.visit keys) v)
  | .visitIds keys v => some (visited (s.byId.visit keys) v)
  | .property .limit => some (return .number s.limit)
  | _ => none

def onCache (c : Cache World) : Question → Option (Lookup World Answer)
  | .store ps => some do
    c.putAll ps
    return .done
  | .storedId key => some do return .profile (← c.get key)
  | .storedIds keys => some do return .table (← c.getAll keys)
  | .storedName key => c.getAllByName?.map fun getAll => do
    return .profile (← Cache.oneByName getAll key)
  | .storedNames keys => c.getAllByName?.map fun getAll => do return .table (← getAll keys)
  | .hasNames => some (return .flag c.hasNames)
  | _ => none

def onAccess (f : Fixture) (q : Question) : Option (Lookup World Answer) :=
  match f.access, q with
  | .memory n, .size => some do return .number (← (memoryCell n).read).size
  | .pins n, .store ps => some do
    (pinCell n).modify (·.putAll ps)
    return .done
  | .names known, .property .knowsNames => some (return .flag known)
  | .combination caseSensitive, .property .caseSensitive => some (return .flag caseSensitive)
  | .remote n cancelled?, q => onRemote n cancelled? q
  | .workers n, q => onWorkers n ((f.source?.map Source.limit).getD unlimited) q
  | .progress n foldsCase, q => onProgress n foldsCase q
  | _, _ => none

def onWhole (f : Fixture) : Question → Option (Lookup World Answer)
  | .describe => some do return .description (← f.description)
  | .canRelease => f.release?.map fun _ => return .flag true
  | .release => f.release?.map fun release => do
    release
    return .done
  | .hasNames => some (return .flag false)
  | _ => none

/-- The answer of a fixture to a question, if the question is for its kind. -/
def answer? (f : Fixture) (q : Question) : Option (Lookup World Answer) :=
  (((f.source?.bind (onSource · q)).or (f.cache?.bind (onCache · q))).or (f.onAccess q)).or
    (f.onWhole q)

end Fixture

end PlayerLookup.Bench
