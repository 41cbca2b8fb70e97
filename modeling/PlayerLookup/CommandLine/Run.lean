import PlayerLookup.CommandLine.Report
import PlayerLookup.Log
import PlayerLookup.Pipeline

/-! A run of the command line: arguments and settings are read, the keys are looked up through a
pipeline, and the profiles are printed. Failures of input and output and the library's own
failures are logged and end the run with status one; others end it by themselves. What comes of the
environment file and whether a text can be printed lies outside of a run. -/

set_option autoImplicit false

namespace PlayerLookup.CommandLine

variable {σ : Type}

abbrev Environment := List (String × String)

/-- What comes of reading an environment file: what is said about it, and what it gives. -/
structure FileReading (α : Type) where
  warnings : String
  result : Except Failure α

/-- What surrounds a run: the environment and the file beside it, the places to print to, the time,
and the form in which failures attached to log records are shown. -/
structure Surroundings where
  environment : Environment
  /-- The environment once the file is loaded into it. -/
  load : Environment → FileReading Environment
  /-- What the file assigns to names, in an environment. -/
  assign : Environment → FileReading (List (String × Option String))
  /-- The failure to print a text. -/
  output : String → Option Failure
  /-- The failure to print a message. -/
  errors : String → Option Failure
  now : Moment
  shown : Failure → String

/-- How a run ended. A failure that nothing caught is kept as it is. -/
structure Finish where
  status : Nat
  output : String
  errors : String
  uncaught : Option Failure := none

/-- The end of a run with a status, unless there is a failure that nothing caught. -/
def ending (status : Nat) (output errors : String) (uncaught : Option Failure) : Finish :=
  ⟨if uncaught.isSome then 0 else status, output, errors, uncaught⟩

/-- What is seen of a text that is printed, and the failure to print it. Of a text that cannot be
printed nothing is seen, and without any text nothing is printed. -/
def put (refused : String → Option Failure) (text : String) : String × Option Failure :=
  if text = "" then ("", none)
  else match refused text with
    | none => (text, none)
    | some f => ("", some f)

/-- Whether a failure to print the usage is passed over, as there is nowhere to print it to. -/
def isPassedOver (f : Failure) : Bool := f.isIn .inputOutput || f.isIn .missingPart

def logged (around : Surroundings) (setup : Log.Setup) (r : LogRecord) : String :=
  if setup.level ≤ r.level then
    Log.format around.now setup.source r.level r.message (r.attached.map around.shown) ++ "\n"
  else ""

def logOf (around : Surroundings) (setup : Log.Setup) (events : List Event) : String :=
  String.join (events.map fun e =>
    match e with
    | .log r => logged around setup r
    | _ => "")

/-- The profiles for the keys, through a pipeline that is closed in any case. -/
def lookUp (r : Resources σ) (settings : Settings) (keys : Keys) : Lookup σ (List Profile) := do
  let p ← Pipeline.ofSettings r settings none
  let found ← (match keys with
    | .names names => p.service.byName.all names
    | .ids ids => p.service.byId.all ids).attempt
  p.close
  Lookup.ofExcept found

def failureRecord? (f : Failure) : Option LogRecord :=
  let record (text : String) : LogRecord :=
    { level := .error, component := .commandLine, message := text ++ f.message }
  if f.isIn .inputOutput then some (record "Lookup failed: ")
  else if f.isIn .lookup then some (record "Fatal error: ")
  else none

/-- The end of a run with a failure: logged, or let out as it is. -/
def finishFailed (around : Surroundings) (setup : Log.Setup) (log : String) (f : Failure) :
    Finish :=
  match failureRecord? f with
  | some record => ⟨1, "", log ++ logged around setup record, none⟩
  | none => ⟨0, "", log, some f⟩

/-- Failing to print the profiles is like failing to find them, failing to list the other keys is
not. -/
def finishLookup (around : Surroundings) (setup : Log.Setup) (invocation : Invocation)
    (caseSensitive : Bool) (log : String) (found : Except Failure (List Profile)) : Finish :=
  match found with
  | .error f => finishFailed around setup log f
  | .ok ps =>
    match put around.output (printed ps invocation.json) with
    | (_, some f) => finishFailed around setup log f
    | (seen, none) =>
      let (listed, refused) :=
        put around.errors (unresolvedLine (unresolved invocation.keys ps caseSensitive))
      ending 0 seen (log ++ listed) refused

def settingsFor (settings : Settings) (invocation : Invocation) : Settings :=
  match invocation.cache with
  | some path => { settings with cachePath := some path }
  | none => settings

def setupFor (settings : Settings) (invocation : Invocation) : Log.Setup :=
  ⟨"cli", Log.resolveLevel (some settings.logLevel) invocation.debug none⟩

def carryOut (r : Resources σ) (around : Surroundings) (settings : Settings)
    (invocation : Invocation) (warnings : String) : Lookup σ Finish := fun s =>
  let setup := setupFor settings invocation
  let settings := settingsFor settings invocation
  let went := lookUp r settings invocation.keys s
  let log := warnings ++ logOf around setup went.events
  ⟨went.events, went.state,
    .ok (finishLookup around setup invocation settings.caseSensitive log went.result)⟩

def complaintText (complaints : List Complaint) : String :=
  "Invalid configuration: " ++ Complaint.report complaints ++ "\n"

/-- A run whose arguments are in order, once the environment file was loaded. -/
def configure (r : Resources σ) (around : Surroundings) (environment : Environment)
    (invocation : Invocation) (warnings : String) : Lookup σ Finish :=
  let assigned := around.assign environment
  let warnings := warnings ++ assigned.warnings
  match assigned.result with
  | .error f => return ending 0 "" warnings (some f)
  | .ok assignments =>
    match Settings.load [] environment assignments with
    | .error complaints =>
      let (seen, refused) := put around.errors (complaintText complaints)
      return ending 1 "" (warnings ++ seen) refused
    | .ok settings => carryOut r around settings invocation warnings

def run (r : Resources σ) (around : Surroundings) (args : List String) : Lookup σ Finish :=
  match parse args with
  | .error (.help text) =>
    let (seen, refused) := put around.output text
    return ending 0 seen "" (refused.filter (!isPassedOver ·))
  | .error (.refused text) =>
    let (seen, refused) := put around.errors text
    return ending 2 "" seen (refused.filter (!isPassedOver ·))
  | .ok invocation =>
    let loaded := around.load around.environment
    match loaded.result with
    | .error f => return ending 0 "" loaded.warnings (some f)
    | .ok environment => configure r around environment invocation loaded.warnings

end PlayerLookup.CommandLine
