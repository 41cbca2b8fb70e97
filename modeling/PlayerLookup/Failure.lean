import PlayerLookup.Amount
import PlayerLookup.Settings.Complaint
import PlayerLookup.Storage.Database
import PlayerLookup.Template.Fill

/-! Failures of a lookup, by cause. Each belongs to a category, and categories to wider ones; what
is tried again, wrapped, logged or passed on is decided by category alone. -/

set_option autoImplicit false

namespace PlayerLookup

/-- Categories of failures. `ordinary` failures are all but requests to end the program. -/
inductive Category where
  | any
  | ordinary
  | badValue
  | inputOutput
  | request
  | missingPart
  | lookup
  | configuration
  | cancellation
  | job
  | cacheStorage
  deriving DecidableEq

/-- A category with all wider ones, narrowest first. -/
def Category.lineage : Category → List Category
  | .any => [.any]
  | .ordinary => [.ordinary, .any]
  | .badValue => [.badValue, .ordinary, .any]
  | .inputOutput => [.inputOutput, .ordinary, .any]
  | .request => [.request, .inputOutput, .ordinary, .any]
  | .missingPart => [.missingPart, .ordinary, .any]
  | .lookup => [.lookup, .ordinary, .any]
  | .configuration => [.configuration, .lookup, .badValue, .ordinary, .any]
  | .cancellation => [.cancellation, .lookup, .ordinary, .any]
  | .job => [.job, .lookup, .ordinary, .any]
  | .cacheStorage => [.cacheStorage, .lookup, .ordinary, .any]

/-- An argument that a source, cache or profile cannot be made with. -/
inductive Misuse where
  | partSize (size : Int)
  | idKind (kind : String)
  | emptyName
  | noResolver
  | noCache
  | noExecutor
  | noAgent
  | notARegistry (label : String)
  | notASource (label : String)
  | templateWithoutId (template : String)
  | timeout (given : Amount)
  | retries (given : Int)
  | retryDelay (given : Amount)
  | threads (given : Amount)
  | jobSize (given : Int)

def Misuse.message : Misuse → String
  | .partSize size => "partition size must be >= 1, got " ++ toString size
  | .idKind kind => "unique_id must be a UUID, got " ++ kind
  | .emptyName => "name must be a non-empty string"
  | .noResolver => "resolver is required"
  | .noCache => "cache is required"
  | .noExecutor => "executor is required"
  | .noAgent => "agent is required"
  | .notARegistry label => label ++ " does not implement PlayerRegistry"
  | .notASource label => label ++ " is not a ProfileService"
  | .templateWithoutId template =>
    "name_history_url must contain '\x7buuid\x7d': " ++ template
  | .timeout given => "timeout must be > 0, got " ++ given.text
  | .retries given => "max_retries must be >= 0, got " ++ toString given
  | .retryDelay given => "retry_delay must be >= 0, got " ++ given.text
  | .threads given => "number of threads must be >= 1, got " ++ given.text
  | .jobSize given => "profiles_per_job must be >= 1, got " ++ toString given

/-- A cache that cannot be opened. -/
inductive CacheFault where
  | badTitle (title : String)
  | cannotConnect (path : String)
  | cannotCreate (path : String)
  deriving DecidableEq

def CacheFault.message : CacheFault → String
  | .badTitle title => "Invalid cache table name: " ++ Text.quoted title
  | .cannotConnect path => "Failed to connect to cache file " ++ path
  | .cannotCreate path => "Failed to create cache table in " ++ path

/-- A module of a host application that cannot be loaded, or lacks a part. -/
inductive ModuleFault where
  | missing (name : String)
  | notAPackage (name parent : String)
  | noPart (name part : String)
  | unnamed
  | relative (name : String)
  deriving DecidableEq

def ModuleFault.message : ModuleFault → String
  | .missing name => "No module named " ++ Text.quoted name
  | .notAPackage name parent =>
    "No module named " ++ Text.quoted name ++ "; " ++ Text.quoted parent ++ " is not a package"
  | .noPart name part => "module '" ++ name ++ "' has no attribute '" ++ part ++ "'"
  | .unnamed => "Empty module name"
  | .relative name =>
    "the 'package' argument is required to perform a relative import for " ++ Text.quoted name

/-- Why a lookup, or the making of a source, failed. -/
inductive Failure where
  | invalidId (text : String)
  | misuse (cause : Misuse)
  | cache (cause : CacheFault)
  | backoffCancelled
  | jobsCancelled
  /-- A job failed for a reason that is neither input and output nor the library's own. -/
  | jobFailed (cause : Failure)
  | template (fault : Template.Fault)
  | hostModule (fault : ModuleFault)
  | database (fault : Storage.Fault)
  | settings (complaints : List Complaint)
  /-- A delay that is too large to be written. -/
  | delayTooLarge
  /-- A delay of the settings that is too large to be given in seconds. -/
  | delayOverflow
  /-- A part size that is too large for a machine word. -/
  | partTooLarge
  /-- A path that cannot be handed on because of a zero in it. -/
  | zeroInPath
  | workersStopped
  /-- A name or id that a table should hold and does not. -/
  | lostEntry (key : String)
  /-- A failure of a collaborator, with its own name for its kind. -/
  | foreign (category : Category) (kind message : String)

namespace Failure

def category : Failure → Category
  | .invalidId _ => .badValue
  | .misuse _ => .configuration
  | .cache _ => .cacheStorage
  | .backoffCancelled => .cancellation
  | .jobsCancelled => .cancellation
  | .jobFailed _ => .job
  | .template fault =>
    match fault with
    | .position _ | .unknownName _ | .outOfRange | .textIndex | .part .. => .ordinary
    | .noPart _ => .missingPart
    | _ => .badValue
  | .hostModule fault =>
    match fault with
    | .missing _ | .notAPackage .. | .noPart .. => .missingPart
    | .unnamed => .badValue
    | .relative _ => .ordinary
  | .database _ => .ordinary
  | .settings _ => .badValue
  | .delayTooLarge => .ordinary
  | .delayOverflow => .ordinary
  | .partTooLarge => .badValue
  | .zeroInPath => .badValue
  | .workersStopped => .ordinary
  | .lostEntry _ => .ordinary
  | .foreign category _ _ => category

/-- Whether a failure is in a category or a narrower one. -/
def isIn (f : Failure) (c : Category) : Bool := f.category.lineage.contains c

/-- Whether a failure is one that may be caught, not a request to end the program. -/
def isOrdinary (f : Failure) : Bool := f.isIn .ordinary

def message : Failure → String
  | .invalidId text => "Invalid UUID format: " ++ Text.quoted text
  | .misuse cause => cause.message
  | .cache cause => cause.message
  | .backoffCancelled => "Lookup cancelled while waiting to retry"
  | .jobsCancelled => "Lookup cancelled while waiting for parallel jobs"
  | .jobFailed _ => "Error occurred during the parallel lookup"
  | .template fault => fault.message
  | .hostModule fault => fault.message
  | .database fault => fault.message
  | .settings complaints => Complaint.report complaints
  | .delayTooLarge => "int too large to convert to float"
  | .delayOverflow => "integer division result too large for a float"
  | .partTooLarge =>
    "Stop argument for islice() must be None or an integer: 0 <= x <= sys.maxsize."
  | .zeroInPath => "embedded null byte"
  | .workersStopped => "cannot schedule new futures after shutdown"
  | .lostEntry key => key
  | .foreign _ _ message => message

end Failure

end PlayerLookup
