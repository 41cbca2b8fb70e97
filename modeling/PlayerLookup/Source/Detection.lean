import PlayerLookup.Source.Host

/-! Finding the registry of a host application. A path names a module and perhaps a part of it; a
part that is no registry but can be called is called for one. A host that is not there is no
failure: lookups go on without it. -/

set_option autoImplicit false

namespace PlayerLookup

variable {σ : Type}

/-- What a part of a module is. -/
inductive HostPart (σ : Type) where
  | registry (r : Registry σ)
  | other
  /-- Something to be called, with what the call gives; nothing if that is no registry. -/
  | maker (call : Except Failure (Option (Registry σ)))

/-- A module: its parts, and what it is itself. -/
structure HostModule (σ : Type) where
  parts : List (String × HostPart σ)
  whole : HostPart σ

/-- The modules that can be found, or fail when they are loaded, by name. -/
abbrev HostModules (σ : Type) := List (String × Except Failure (HostModule σ))

namespace HostModules

/-- The steps of a dotted name, as the names of all modules on the way, outermost first. -/
def namesOnTheWay (name : String) : List String :=
  let steps := name.splitOn "."
  (List.range steps.length).map fun i => ".".intercalate (steps.take (i + 1))

def loadFrom (modules : HostModules σ) (parent : Option String) :
    List String → Except Failure (HostModule σ)
  | [] => .error (.hostModule .unnamed)
  | name :: rest =>
    match modules.lookup name, parent with
    | some loaded, _ => do
      let found ← loaded
      if rest.isEmpty then return found else loadFrom modules (some name) rest
    | none, some parent => .error (.hostModule (.notAPackage name parent))
    | none, none => .error (.hostModule (.missing name))

def load (modules : HostModules σ) (name : String) : Except Failure (HostModule σ) :=
  if name.toList.head? = some '.' then .error (.hostModule (.relative name))
  else if name = "" then .error (.hostModule .unnamed)
  else loadFrom modules none (namesOnTheWay name)

def splitPath (path : String) : String × String :=
  let cs := path.toList
  (String.ofList (cs.takeWhile (· != ':')), String.ofList ((cs.dropWhile (· != ':')).drop 1))

def part (modules : HostModules σ) (path : String) : Except Failure (HostPart σ) := do
  let (name, part) := splitPath path
  let found ← modules.load name
  if part = "" then return found.whole
  else match found.parts.lookup part with
    | some p => return p
    | none => throw (.hostModule (.noPart name part))

def logHost (level : LogLevel) (message : String) (attached : Option Failure) : Lookup σ Unit :=
  Lookup.log level .hostSource message attached

def accept (path : String) (r : Option (Registry σ)) : Lookup σ (Option (Registry σ)) :=
  match r with
  | some r => do
    logHost .info ("Using host player registry from " ++ path) none
    return some r
  | none => do
    logHost .warning (path ++ " does not provide a player registry; ignoring it") none
    return none

def registryOf (path : String) (part : HostPart σ) : Lookup σ (Option (Registry σ)) :=
  match part with
  | .registry r => accept path (some r)
  | .other => accept path none
  | .maker (.ok r) => accept path r
  | .maker (.error f) =>
    if f.isOrdinary then do
      logHost .warning ("Host player registry " ++ path ++ " could not be created: " ++ f.message)
        (some f)
      return none
    else Lookup.fail f

/-- The registry at a path, if there is a path and a registry. -/
def detect (modules : HostModules σ) (path : Option String) : Lookup σ (Option (Registry σ)) :=
  match path with
  | none => return none
  | some path =>
    if path = "" then return none
    else match modules.part path with
      | .ok part => registryOf path part
      | .error f =>
        if f.isIn .missingPart then do
          logHost .debug ("Host player registry " ++ path ++ " not available: " ++ f.message) none
          return none
        else if f.isOrdinary then do
          logHost .warning ("Failed to load host player registry " ++ path ++ ": " ++ f.message)
            (some f)
          return none
        else Lookup.fail f

end HostModules

end PlayerLookup
