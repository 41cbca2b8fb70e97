import PlayerLookup.Bench.Collaborator

/-! Fixtures: the sources and caches that stand on the bench. What can be changed on a fixture is
kept in the state, and read again for each question, so that a change is seen by every fixture
that has it as a part. -/

set_option autoImplicit false

namespace PlayerLookup.Bench

/-- What a fixture is, with its parts. -/
inductive Description where
  | nothing
  | plain (label : String)
  | overCache (label : String) (cache : Description)
  | remote (label : String) (settings : RemoteSettings)
  | combined (label : String) (caseSensitive : Bool) (members : List Description)
  | storing (label : String) (resolver cache : Description) (preferred : Option Description)
  | sharing (label : String) (jobSize effective : Int) (resolver : Description)

/-- What can be read and changed on a fixture besides its lookups; the numbers are those of its
state. -/
inductive Access where
  | nothing
  | memory (n : Nat)
  | pins (n : Nat)
  | names (known : Bool)
  | combination (caseSensitive : Bool)
  | remote (n : Nat) (cancelled? : Option (Lookup World Bool))
  | workers (n : Nat)
  | progress (n : Nat) (foldsCase : Bool)

/-- Something that stands on the bench. -/
structure Fixture where
  label : String
  source? : Option (Source World) := none
  cache? : Option (Cache World) := none
  access : Access := .nothing
  release? : Option (Lookup World Unit) := none
  description : Lookup World Description

/-! ## Sources that change -/

def renewedQueries {K : Type} (now : Lookup World (Queries World K)) : Queries World K where
  one key := do (← now).one key
  all keys := do (← now).all keys
  visit keys := do (← Delivery.ofLookup now).visit keys

/-- A source that is looked up for each question; its label and limit stay. -/
def renewed (label : String) (limit : Int) (now : Lookup World (Source World)) :
    Source World where
  label := label
  limit := limit
  byName := renewedQueries do return (← now).byName
  byId := renewedQueries do return (← now).byId

namespace Fixture

/-! ## Nothing, caches and single sources -/

def nothing : Fixture where
  label := "NoneType"
  description := return .nothing

def plain (label : String) : Lookup World Description := return .plain label

def refuse {α : Type} (cause : Misuse) : Lookup World α := Lookup.fail (.misuse cause)

def ofCache (cache : Cache World) (access : Access) (release? : Option (Lookup World Unit)) :
    Fixture where
  label := cache.label
  cache? := some cache
  access := access
  release? := release?
  description := plain cache.label

def ofSource (source : Source World) (access : Access) : Fixture where
  label := source.label
  source? := some source
  access := access
  description := plain source.label

def memory (n : Nat) : Fixture := ofCache (Cache.memory (memoryCell n)) (.memory n) none

/-- Nobody waits on the bench, and texts have no parts there. -/
def platform : Platform := .patient Template.noParts

/-- Jobs are run one after the other and seen to be complete together, the last first. -/
def schedule : Schedule where
  running n := List.range n
  polls n := if n = 0 then [] else [(List.range n).reverse]

def resources (n : Nat) (modules : HostModules World) : Resources World where
  memory := memoryCell n
  pinned := pinCell n
  files := filesShelf
  hidden := hiddenCell n
  opened := openedCell n
  send := sendScripted n
  modules := modules
  schedule := schedule
  platform := platform

def stored (n : Nat) (path title : String) : Lookup World Fixture := do
  let connection ← (resources n []).openCache path title
  let cache := Cache.stored connection
  return ofCache cache .nothing (some cache.close)

def idOnly (n : Nat) (label : String) (rules : List Rule) : Lookup World Fixture := do
  (ruleCell n).write rules
  return ofCache (idTable n label) .nothing none

def localMap (n : Nat) (pinned : List (String × PlayerId)) : Lookup World Fixture := do
  let ps ← Lookup.forEach pinned fun (name, id) => Lookup.ofExcept (Profile.make id name)
  (pinCell n).write (LocalMap.empty.putAll ps)
  return ofSource (Source.localMap (pinCell n)) (.pins n)

def cached (cache : Fixture) : Lookup World Fixture := do
  match cache.cache? with
  | none => refuse .noCache
  | some c => do
    Lookup.logIfAny c.noNamesRecord?
    let source := Source.cached c
    return { ofSource source (.names c.hasNames) with
      description := do return .overCache source.label (← cache.description) }

def host (registry : Registry World) : Fixture := ofSource (Source.host registry) .nothing

def detected (modules : HostModules World) (path : Option String) : Lookup World Fixture := do
  match ← modules.detect path with
  | some registry => return host registry
  | none => return nothing

def stub (n : Nat) (stub : Stub) (rules : List Rule) : Lookup World Fixture := do
  (ruleCell n).write rules
  return ofSource (stub.source n) .nothing

def normalKey (foldsCase : Bool) (d : Document) : Document.Key :=
  (d.keyFor? foldsCase).getD .null

/-- The progress of a lookup of keys, which all have normal forms. -/
def progress (n : Nat) (foldsCase : Bool) (keys : List Document) : Lookup World Fixture := do
  (progressCell n).write (Progress.ofKeys (normalKey foldsCase) keys)
  return {
    label := "LookupProgress"
    access := .progress n foldsCase
    description := plain "LookupProgress" }

/-! ## The remote service -/

/-- How to ask whether to cancel, if there is a number of questions after which to. -/
def asking (n : Nat) (cancel : Option Nat) : Lookup World (Option (Lookup World Bool)) := do
  match cancel with
  | none => return none
  | some questions => do
    (questionCell n).write questions
    return some (askCancelled n)

def remoteNow (n : Nat) (cancelled? : Option (Lookup World Bool)) :
    Lookup World (Remote World) := do
  return ⟨← (remoteCell n).read, sendScripted n, cancelled?, platform⟩

def ofRemote (n : Nat) (r : Remote World) : Fixture :=
  let source := Source.remote r
  let now : Lookup World (Source World) := do return Source.remote (← remoteNow n r.cancelled?)
  { ofSource (renewed source.label source.limit now) (.remote n r.cancelled?) with
    description := do return .remote source.label (← (remoteCell n).read) }

def remote (n : Nat) (settings : Except Failure RemoteSettings) (replies : List Reply)
    (cancel : Option Nat) : Lookup World Fixture := do
  let settings ← Lookup.ofExcept settings
  (remoteCell n).write settings
  (replyCell n).write replies
  let cancelled? ← asking n cancel
  return ofRemote n ⟨settings, sendScripted n, cancelled?, platform⟩

/-! ## Sources over others -/

/-- What is given as a member of a combination: a fixture, or a document, which is no source. -/
inductive Member where
  | fixture (f : Fixture)
  | document (d : Document)

/-- The members of a combination. One sequence alone stands for its items. -/
def Member.unpacked : List Member → List Member
  | [.document (.text s)] => s.toList.map fun c => .document (.text (String.singleton c))
  | [.document (.list items)] => items.map .document
  | members => members

def Member.source : Member → Except Failure (Source World)
  | .document d => .error (.misuse (.notASource d.kind))
  | .fixture f =>
    match f.source? with
    | some s => .ok s
    | none => .error (.misuse (.notASource f.label))

/-- The description of a member; that of a document is empty. -/
def Member.description : Member → Lookup World Description
  | .document _ => return .nothing
  | .fixture f => f.description

def combined (caseSensitive : Bool) (members : List Member) : Lookup World Fixture := do
  let sources ← Lookup.forEach members fun m => Lookup.ofExcept m.source
  let source := Source.combined caseSensitive sources
  return { ofSource source (.combination caseSensitive) with
    description := do
      return .combined source.label caseSensitive
        (← Lookup.forEach members Member.description) }

/-- The source and the cache of a source that stores what it finds. -/
def resolverAndCache (resolver cache : Fixture) : Lookup World (Source World × Cache World) := do
  match resolver.source?, cache.cache? with
  | none, _ => refuse .noResolver
  | _, none => refuse .noCache
  | some s, some c => return (s, c)

def forwarding (resolver cache : Fixture) : Lookup World Fixture := do
  let (s, c) ← resolverAndCache resolver cache
  let source := Source.forwarding c s
  return { ofSource source .nothing with
    description := do
      return .storing source.label (← resolver.description) (← cache.description) none }

def preferring (resolver cache preferred : Fixture) : Lookup World Fixture := do
  let (s, c) ← resolverAndCache resolver cache
  Lookup.logIfAny c.noNamesRecord?
  let source := Source.preferring c preferred.source? s
  return { ofSource source .nothing with
    description := do
      let live ← preferred.description
      return .storing source.label (← resolver.description) (← cache.description)
        (if preferred.source?.isSome then some live else none) }

/-! ## Workers -/

/-- Who runs jobs: nobody, somebody else, or threads of one's own. -/
inductive Runner where
  | nobody
  | other
  | threads (count : Amount)

def Runner.check : Runner → Except Failure Unit
  | .nobody => .error (.misuse .noExecutor)
  | .other => .ok ()
  | .threads count => Workers.checkThreads count

def Runner.stop (n : Nat) : Runner → Lookup World Unit
  | .threads _ => (crewCell n).modify fun crew => { crew with stopped := true }
  | _ => return

def sharingFixture (n : Nat) (resolver : Fixture) (source : Source World)
    (now : Lookup World (Source World)) (release : Lookup World Unit) : Fixture :=
  { ofSource (renewed source.label source.limit now) (.workers n) with
    release? := some release
    description := do
      let crew ← (crewCell n).read
      return .sharing source.label crew.jobSize (min crew.jobSize source.limit)
        (← resolver.description) }

/-- A source that shares out batches among workers. Workers of its own stop when it is given up. -/
def parallel (n : Nat) (resolver : Fixture) (runner : Runner) (jobSize : Int)
    (cancel : Option Nat) : Lookup World Fixture := do
  match resolver.source? with
  | none => refuse .noResolver
  | some s => do
    Lookup.ofExcept runner.check
    let jobSize ← Lookup.ofExcept (Workers.checkJobSize jobSize)
    (crewCell n).write ⟨jobSize, false⟩
    let cancelled? ← asking n cancel
    let sourceOf (crew : Crew) : Source World :=
      Source.parallel ⟨crew.jobSize, schedule, crew.stopped, cancelled?⟩ s
    return sharingFixture n resolver (sourceOf ⟨jobSize, false⟩)
      (do return sourceOf (← (crewCell n).read)) (runner.stop n)

/-! ## Pipelines -/

/-- The parts of a pipeline. -/
structure PipelineParts where
  whole : Fixture
  service : Fixture
  cache : Fixture
  pinned : Fixture
  remote : Fixture
  host : Fixture

def chainNow (n : Nat) (p : Pipeline World) : Lookup World (Source World) := do
  let remote ← remoteNow n none
  let crew ← (crewCell n).read
  return Pipeline.chain p.host p.cache p.pinned remote p.caseSensitive
    { p.workers with jobSize := crew.jobSize }

def describeChain (p : Pipeline World) (cache pinned remote host : Fixture) :
    Lookup World Description := do
  let cacheDescription ← cache.description
  let known : Fixture :=
    { ofSource (Source.cached p.cache) .nothing with
      description := return .overCache (Source.cached p.cache).label cacheDescription }
  let parts := (if p.host.isSome then [host] else []) ++ [known, pinned, remote]
  let combined := Source.combined p.caseSensitive
    (Pipeline.members p.host p.cache p.pinned p.remote)
  return .storing (Source.forwarding p.cache combined).label
    (.combined combined.label p.caseSensitive (← Lookup.forEach parts Fixture.description))
    cacheDescription none

/-- A pipeline from settings, over a given cache or one that the settings ask for. -/
def pipeline (n : Nat) (modules : HostModules World) (settings : Settings)
    (given : Option Fixture) (replies : List Reply) (prepare : Pipeline World → Lookup World Unit) :
    Lookup World PipelineParts := do
  (replyCell n).write replies
  let r := { resources n modules with prepare := prepare }
  let p ← Pipeline.ofSettings r settings (given.bind Fixture.cache?)
  (remoteCell n).write p.remote.settings
  (crewCell n).write ⟨p.workers.jobSize, false⟩
  let own := if settings.cachePath.any (· != "") then ofCache p.cache .nothing (some p.cache.close)
    else memory n
  let cache := given.getD own
  let pinned := ofSource (Source.localMap p.pinned) (.pins n)
  let remote := ofRemote n p.remote
  let host := (p.host.map host).getD nothing
  let below : Fixture :=
    { nothing with description := describeChain p cache pinned remote host }
  let service := sharingFixture n below p.service (chainNow n p) (return)
  let whole : Fixture :=
    { label := "ProfilePipeline"
      release? := some p.close
      description := do return .overCache "ProfilePipeline" (← cache.description) }
  return ⟨whole, service, cache, pinned, remote, host⟩

end Fixture

end PlayerLookup.Bench
