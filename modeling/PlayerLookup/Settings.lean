import PlayerLookup.Batch
import PlayerLookup.Remote.Exchange
import PlayerLookup.Settings.Value
import PlayerLookup.Text.Casing

/-! Settings. Each has a default, which a line of an environment file, a variable of the environment
or a given argument replaces, the later the stronger. All settings are read before the first
complaint is made. -/

set_option autoImplicit false

namespace PlayerLookup

/-- What lookups are set up from. -/
structure Settings where
  profilesUrl : String
  historyUrl : String
  retries : Int
  retryDelayMs : Int
  timeout : Option Amount
  threads : Int
  jobSize : Int
  cachePath : Option String
  caseSensitive : Bool
  registry : Option String
  logLevel : String

namespace Settings

def variableStart : String := "profile_resolver_"

def levelNames : List String := ["TRACE", "DEBUG", "INFO", "WARNING", "ERROR"]

def historyUrlOf (d : Document) : Except SettingFlaw String := do
  let s ← SettingValue.text d
  if Text.contains s RemoteSettings.idField then return s
  else throw (.refused ("Invalid NAME_HISTORY_URL: " ++ s
    ++ ". Must contain '" ++ RemoteSettings.idField ++ "'"))

def logLevelOf (d : Document) : Except SettingFlaw String := do
  let s ← SettingValue.text d
  let level := Text.upper s
  if levelNames.contains level then return level
  else throw (.refused ("Invalid LOG_LEVEL: " ++ level))

abbrev Given := List (String × Document)

/-- A setting, or its default where nothing was given, with the complaints about it. -/
def setting {α : Type} (given : Given) (name : String) (usual : α)
    (read : Document → Except SettingFlaw α) : α × List Complaint :=
  match given.lookup name with
  | none => (usual, [])
  | some d => match read d with
    | .ok a => (a, [])
    | .error flaw => (usual, [⟨name, flaw, d⟩])

/-- Settings from what was given, or all complaints in the order of the settings. -/
def ofGiven (given : Given) : Except (List Complaint) Settings :=
  let (profilesUrl, c₁) := setting given "profiles_url"
    (RemoteSettings.defaultProfilesUrl RemoteSettings.defaultAgent) SettingValue.text
  let (historyUrl, c₂) := setting given "name_history_url" RemoteSettings.defaultHistoryUrl
    historyUrlOf
  let (retries, c₃) := setting given "max_retries" 5 (SettingValue.whole 0)
  let (retryDelayMs, c₄) := setting given "retry_delay_ms" 50 (SettingValue.whole 0)
  let (timeout, c₅) := setting given "request_timeout" 10.0 SettingValue.positive
  let (threads, c₆) := setting given "parallel_threads" 4 (SettingValue.whole 1)
  let (jobSize, c₇) := setting given "profiles_per_job" 100 (SettingValue.whole 1)
  let (cachePath, c₈) := setting given "cache_path" none SettingValue.pathOrNone
  let (caseSensitive, c₉) := setting given "case_sensitive_names" false SettingValue.flag
  let (registry, c₁₀) := setting given "player_registry" none SettingValue.textOrNone
  let (logLevel, c₁₁) := setting given "log_level" "INFO" logLevelOf
  match c₁ ++ c₂ ++ c₃ ++ c₄ ++ c₅ ++ c₆ ++ c₇ ++ c₈ ++ c₉ ++ c₁₀ ++ c₁₁ with
  | [] =>
    .ok ⟨profilesUrl, historyUrl, retries, retryDelayMs, some (.real timeout), threads, jobSize,
      cachePath, caseSensitive, registry, logLevel⟩
  | complaints => .error complaints

/-- The name of the setting that a variable stands for, of either case. -/
def settingOf? (name : String) : Option String :=
  let cs := (name.map Char.toLower).toList
  let start := variableStart.toList
  if start.isPrefixOf cs then some (String.ofList (cs.drop start.length)) else none

/-- What variables give for settings. The last of a name counts, and of names that differ in case
the last; variables without a value give nothing. -/
def givenBy (named : List (String × Option String)) : Given :=
  let latest := Batch.latestBy Prod.fst named
  (Batch.latestBy (fun v => settingOf? v.1) latest).filterMap fun (name, value) => do
    let s ← settingOf? name
    let v ← value
    return (s, .text v)

/-- Settings from arguments, the environment and the assignments of an environment file. -/
def load (arguments : Given) (environment : List (String × String))
    (assignments : List (String × Option String)) : Except (List Complaint) Settings :=
  ofGiven (arguments ++ givenBy (environment.map fun (n, v) => (n, some v))
    ++ givenBy assignments)

/-- The delay in seconds; one too large for a double cannot be given in seconds. -/
def retryDelay (s : Settings) : Except Failure Amount :=
  let seconds := (Decimal.Ratio.mk s.retryDelayMs.natAbs 1000).nearest (s.retryDelayMs < 0)
  if seconds.isInf then .error .delayOverflow else .ok (.real seconds)

end Settings

end PlayerLookup
