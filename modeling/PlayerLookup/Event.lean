import PlayerLookup.Failure

/-! Events: what a lookup does that can be seen from outside, in order. Each log record says which
component wrote it and on which level. -/

set_option autoImplicit false

namespace PlayerLookup

/-- The components that write log records. -/
inductive Component where
  | databaseCache
  | cachedSource
  | hostSource
  | remoteSource
  | combinedSource
  | forwardingSource
  | preferringSource
  | parallelSource
  | pipeline
  | commandLine
  deriving DecidableEq

abbrev LogLevel := Int

namespace LogLevel

def trace : LogLevel := 5

def debug : LogLevel := 10

def info : LogLevel := 20

def warning : LogLevel := 30

def error : LogLevel := 40

def critical : LogLevel := 50

def names : List (String × LogLevel) :=
  [("NOTSET", 0), ("TRACE", trace), ("DEBUG", debug), ("INFO", info), ("WARNING", warning),
    ("ERROR", error), ("CRITICAL", critical)]

def text (level : LogLevel) : String :=
  match names.find? fun (_, n) => n == level with
  | some (name, _) => name
  | none => "Level " ++ toString level

end LogLevel

/-- A log record; a failure may be attached to it. -/
structure LogRecord where
  level : LogLevel
  component : Component
  message : String
  attached : Option Failure := none

/-- The two kinds of request to the remote service. -/
inductive Request where
  | profiles (url : String) (names : List String)
  | history (url : String)
  deriving DecidableEq

def Request.url : Request → String
  | .profiles url _ => url
  | .history url => url

/-- Something that a lookup does. -/
inductive Event where
  | log (record : LogRecord)
  | request (r : Request) (timeout : Option Amount)
  /-- A pause between attempts that nothing can cancel. -/
  | pause (delay : Amount)
  /-- A pause between attempts that can be cancelled. -/
  | wait (delay : Amount)
  | asked (source question : String) (keys : List String)

end PlayerLookup
