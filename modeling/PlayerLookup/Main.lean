import PlayerLookup.Log.Clock
import PlayerLookup.Packages.EnvFile
import PlayerLookup.Session
import Std.Time.DateTime.Timestamp

/-! The program. It takes settings from the environment and the environment file, keeps its cache
for the length of the run, and has no way to the remote service: names and ids are answered from
pinned and cached profiles alone. -/

set_option autoImplicit false

namespace PlayerLookup

def settingVariables : List String :=
  ["PROFILES_URL", "NAME_HISTORY_URL", "MAX_RETRIES", "RETRY_DELAY_MS", "REQUEST_TIMEOUT",
    "PARALLEL_THREADS", "PROFILES_PER_JOB", "CACHE_PATH", "CASE_SENSITIVE_NAMES",
    "PLAYER_REGISTRY", "LOG_LEVEL"].map (Text.upper Settings.variableStart ++ ·)

def environment : List String → IO (List (String × String))
  | [] => return []
  | name :: rest => do
    let value ← IO.getEnv name
    let more ← environment rest
    return (value.map fun v => (name, v)).toList ++ more

def fileText? (path : String) : IO (Option String) :=
  try
    let text ← IO.FS.readFile path
    return some text
  catch _ => return none

def Moment.now : IO Moment := do
  let t ← Std.Time.Timestamp.now
  return .ofSeconds t.toSecondsSinceUnixEpoch.val.toNat

def unreachable (_ : Request) : Lookup Session Response :=
  Lookup.fail (.foreign .request "unreachable" "the remote service cannot be reached")

end PlayerLookup

open PlayerLookup in
def main (args : List String) : IO UInt32 := do
  let around := EnvFile.surroundings (← environment settingVariables) (← fileText? ".env")
    (← Moment.now) Failure.message
  let r := CommandLine.run (Session.resources unreachable []) around args Session.new
  match r.result with
  | .ok finish => do
    IO.print finish.output
    IO.eprint finish.errors
    match finish.uncaught with
    | some f => do
      IO.eprintln f.message
      return 1
    | none => return finish.status.toUInt32
  | .error f => do
    IO.eprintln f.message
    return 1
