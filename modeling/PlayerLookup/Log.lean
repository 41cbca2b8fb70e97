import PlayerLookup.Decimal.Ratio
import PlayerLookup.Event
import PlayerLookup.Text.Casing

/-! The log: which level is set by which words, which records pass it, and the form in which they
are written, one line for a record and a line of its own for an attached failure. -/

set_option autoImplicit false

namespace PlayerLookup

/-- A moment, in universal time. -/
structure Moment where
  year : Nat
  month : Nat
  day : Nat
  hour : Nat
  minute : Nat
  second : Nat

def Moment.text (t : Moment) : String :=
  let two (n : Nat) := Decimal.padded 2 n
  toString t.year ++ "-" ++ two t.month ++ "-" ++ two t.day ++ "T" ++ two t.hour ++ ":"
    ++ two t.minute ++ ":" ++ two t.second ++ "Z"

namespace Log

/-- The level that a word or, without one, the environment asks for. A wish for debugging counts
less than the word for tracing and more than any other. -/
def resolveLevel (word : Option String) (debug : Bool) (environment : Option String) : LogLevel :=
  let chosen := match word with
    | some w => if w = "" then environment.getD "" else w
    | none => environment.getD ""
  let name := Text.upper chosen
  if name = "TRACE" then .trace
  else if name = "DEBUG" ∨ debug = true then .debug
  else if name = "WARNING" then .warning
  else if name = "ERROR" then .error
  else if name = "CRITICAL" then .critical
  else .info

/-- A record as it is written; an attached failure is given in the form it has to be shown in. -/
def format (now : Moment) (source : String) (level : LogLevel) (message : String)
    (attached : Option String) : String :=
  let message := match attached with
    | some shown => message ++ "\n" ++ shown
    | none => message
  now.text ++ " [" ++ source ++ "] " ++ level.text ++ " " ++ message

/-- A log that has been set up: the source it names, and the lowest level it writes. -/
structure Setup where
  source : String
  level : LogLevel

/-- The channels of the libraries for requests, which write less than the others. -/
def quietChannels : List String := ["urllib3", "requests"]

def quietLevel : LogLevel := .warning

/-- Whether a channel is one of another, or below it. -/
def isBelow (channel parent : String) : Bool :=
  channel == parent || (parent ++ ".").toList.isPrefixOf channel.toList

def Setup.levelOf (s : Setup) (channel : String) : LogLevel :=
  if quietChannels.any (isBelow channel) then quietLevel else s.level

def Setup.writes (s : Setup) (channel : String) (level : LogLevel) : Bool :=
  decide (0 < level) && decide (s.levelOf channel ≤ level) && decide (s.level ≤ level)

end Log

end PlayerLookup
