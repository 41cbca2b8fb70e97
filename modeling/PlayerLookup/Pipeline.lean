import PlayerLookup.Cache.Memory
import PlayerLookup.Cache.Stored
import PlayerLookup.Remote.Client
import PlayerLookup.Settings
import PlayerLookup.Source.Combined
import PlayerLookup.Source.Detection
import PlayerLookup.Source.LocalMap
import PlayerLookup.Source.Parallel
import PlayerLookup.Source.Preferring

/-! The usual chain of sources, set up from settings: workers share out batches to a source that
stores what it finds, over the combination of the host's registry, the cache, the pinned profiles
and the remote service, in this order. -/

set_option autoImplicit false

namespace PlayerLookup

variable {σ : Type}

/-- The source with its parts. -/
structure Pipeline (σ : Type) where
  workers : Workers σ
  service : Source σ
  cache : Cache σ
  pinned : Cell σ LocalMap
  remote : Remote σ
  host : Option (Registry σ)
  caseSensitive : Bool

/-- The parts of a state, and the ways out of it, that a pipeline is set up with. -/
structure Resources (σ : Type) where
  memory : Cell σ Memory
  pinned : Cell σ LocalMap
  files : Cell σ Storage.Files
  hidden : Cell σ Storage.Content
  opened : Cell σ Bool
  send : Request → Lookup σ Response
  modules : HostModules σ
  schedule : Schedule
  platform : Platform
  /-- What is done to a new pipeline before its first question. -/
  prepare : Pipeline σ → Lookup σ Unit := fun _ => return

def Storage.Files.entryCell (place : Storage.Place) : Cell Storage.Files Storage.Content where
  get files := files.content place
  set files content := files.set place content
  get_set files content := files.content_set place content

namespace Resources

def contentCell (r : Resources σ) (location : Storage.Location) : Cell σ Storage.Content :=
  match location with
  | .hidden => r.hidden
  | .file place => r.files.within (Storage.Files.entryCell place)

def connection (r : Resources σ) (path title : String) (location : Storage.Location) :
    Connection σ where
  path := path
  title := title
  opened := r.opened
  content := r.contentCell location

def openCache (r : Resources σ) (path title : String) : Lookup σ (Connection σ) := do
  let files ← r.files.read
  let (location, db) ← Lookup.ofExcept (Cache.openFile r.platform.path files path title)
  let c := r.connection path title location
  c.content.write (.database db)
  r.opened.write true
  Lookup.emit (.log (Cache.openedRecord path))
  return c

/-- The cache that settings ask for: in memory unless they name a file. -/
def cacheFor (r : Resources σ) (path : Option String) : Lookup σ (Cache σ) :=
  match path with
  | none => return Cache.memory r.memory
  | some path =>
    if path = "" then return Cache.memory r.memory
    else do
      let c ← r.openCache path defaultTitle
      return Cache.stored c

end Resources

def Lookup.logIfAny (record : Option LogRecord) : Lookup σ Unit :=
  match record with
  | some record => Lookup.emit (.log record)
  | none => return

namespace Pipeline

def members (host : Option (Registry σ)) (cache : Cache σ) (pinned : Cell σ LocalMap)
    (remote : Remote σ) : List (Source σ) :=
  (host.map Source.host).toList
    ++ [Source.cached cache, Source.localMap pinned, Source.remote remote]

def chain (host : Option (Registry σ)) (cache : Cache σ) (pinned : Cell σ LocalMap)
    (remote : Remote σ) (caseSensitive : Bool) (workers : Workers σ) : Source σ :=
  Source.parallel workers
    (Source.forwarding cache
      (Source.combined caseSensitive (members host cache pinned remote)))

def workersFor (schedule : Schedule) (settings : Settings) : Except Failure (Workers σ) := do
  Workers.checkThreads (.whole settings.threads)
  let jobSize ← Workers.checkJobSize settings.jobSize
  return ⟨jobSize, schedule, false, none⟩

def remoteSettings (settings : Settings) : Except Failure RemoteSettings := do
  let delay ← settings.retryDelay
  RemoteSettings.make RemoteSettings.defaultAgent settings.profilesUrl settings.historyUrl
    settings.retries delay settings.timeout

/-- Sets up a pipeline over a cache that was opened for it, or is given. -/
def assemble (r : Resources σ) (settings : Settings) (remote : Remote σ)
    (host : Option (Registry σ)) (cache : Cache σ) : Lookup σ (Pipeline σ) := do
  Lookup.logIfAny cache.noNamesRecord?
  let workers ← Lookup.ofExcept (workersFor r.schedule settings)
  let count := (members host cache r.pinned remote).length
  Lookup.log .debug .pipeline ("Built profile pipeline with " ++ toString count ++ " sources, "
    ++ toString settings.threads ++ " threads, cache=" ++ cache.label) none
  return ⟨workers, chain host cache r.pinned remote settings.caseSensitive workers, cache,
    r.pinned, remote, host, settings.caseSensitive⟩

/-- Sets up a pipeline that has not been prepared. A cache that was opened for one that cannot be
set up is closed again. -/
def unprepared (r : Resources σ) (settings : Settings) (given : Option (Cache σ)) :
    Lookup σ (Pipeline σ) := do
  let remoteSettings ← Lookup.ofExcept (remoteSettings settings)
  let remote : Remote σ := ⟨remoteSettings, r.send, none, r.platform⟩
  let host ← r.modules.detect settings.registry
  match given with
  | some cache => assemble r settings remote host cache
  | none => do
    let cache ← r.cacheFor settings.cachePath
    (assemble r settings remote host cache).rescue fun f => do
      cache.close
      Lookup.fail f

def ofSettings (r : Resources σ) (settings : Settings) (given : Option (Cache σ)) :
    Lookup σ (Pipeline σ) := do
  let p ← unprepared r settings given
  r.prepare p
  return p

/-- Puts profiles into the pinned ones and the cache of a pipeline. -/
def fill (pinned cached : List Profile) (p : Pipeline σ) : Lookup σ Unit := do
  p.pinned.modify (·.putAll pinned)
  p.cache.putAll cached

def close (p : Pipeline σ) : Lookup σ Unit := p.cache.close

end Pipeline

end PlayerLookup
