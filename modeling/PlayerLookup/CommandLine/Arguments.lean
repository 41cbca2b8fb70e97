import PlayerLookup.PlayerId
import PlayerLookup.Profile
import PlayerLookup.Settings.Value
import PlayerLookup.Text.Digit

/-! The arguments of the command line. The first that is no option names a command, the command's
own arguments follow. Options may be shortened as long as they stay unambiguous, a double dash ends
them, and a text that looks like a negative number or has a space in it is no option. -/

set_option autoImplicit false

namespace PlayerLookup.CommandLine

/-- What keys are. -/
inductive Command where
  | names
  | uuids
  deriving DecidableEq

def Command.word : Command → String
  | .names => "names"
  | .uuids => "uuids"

/-- The keys of a command. -/
inductive Keys where
  | names (keys : List String)
  | ids (keys : List PlayerId)

def Keys.command : Keys → Command
  | .names _ => .names
  | .ids _ => .uuids

def Keys.texts : Keys → List String
  | .names keys => keys
  | .ids keys => keys.map PlayerId.text

/-- What is asked for. -/
structure Invocation where
  keys : Keys
  json : Bool
  cache : Option String
  debug : Bool

/-- Arguments that ask for nothing: for help, which is shown, or wrongly. -/
inductive Ending where
  | help (text : String)
  | refused (text : String)

/-! ## Options -/

/-- What an option does. -/
inductive Switch where
  | help
  | json
  | cache
  | debug
  deriving DecidableEq

def Switch.hasValue : Switch → Bool
  | .cache => true
  | _ => false

def Switch.title : Switch → String
  | .help => "-h/--help"
  | .json => "--json"
  | .cache => "--cache"
  | .debug => "--debug"

/-- The place where arguments stand: the program itself, or one of its commands. -/
inductive Form where
  | program
  | command (c : Command)

def Form.options : Form → List (String × Switch)
  | .program => [("-h", .help), ("--help", .help)]
  | .command _ =>
    [("-h", .help), ("--help", .help), ("--json", .json), ("--cache", .cache),
      ("--debug", .debug)]

def programName : String := "profile-resolver"

def Form.title : Form → String
  | .program => programName
  | .command c => programName ++ " " ++ c.word

def Command.placeholder : Command → String
  | .names => "NAME"
  | .uuids => "UUID"

def Command.keyHelp : Command → String
  | .names => "Player names"
  | .uuids => "Player UUIDs, with or without dashes"

def Form.usage : Form → String
  | .program => "usage: profile-resolver [-h] \x7bnames,uuids\x7d ...\n"
  | .command c =>
    "usage: " ++ (Form.command c).title ++ " [-h] [--json] [--cache CACHE] [--debug]\n"
      ++ "                              " ++ c.placeholder ++ " [" ++ c.placeholder ++ " ...]\n"

def Form.help : Form → String
  | .program =>
    Form.program.usage
      ++ "\nResolve player names to UUIDs and UUIDs to current names\n"
      ++ "\npositional arguments:\n  \x7bnames,uuids\x7d\n"
      ++ "    names        Resolve names to profiles\n"
      ++ "    uuids        Resolve UUIDs to profiles\n"
      ++ "\noptions:\n  -h, --help     show this help message and exit\n"
  | .command c =>
    (Form.command c).usage
      ++ "\npositional arguments:\n  " ++ c.placeholder ++ "           " ++ c.keyHelp ++ "\n"
      ++ "\noptions:\n  -h, --help     show this help message and exit\n"
      ++ "  --json         Print results as a JSON list\n"
      ++ "  --cache CACHE  SQLite cache file (overrides PROFILE_RESOLVER_CACHE_PATH)\n"
      ++ "  --debug        Enable debug logging\n"

def Form.refuse (form : Form) (message : String) : Ending :=
  .refused (form.usage ++ form.title ++ ": error: " ++ message ++ "\n")

def Form.refuseArgument (form : Form) (title message : String) : Ending :=
  form.refuse ("argument " ++ title ++ ": " ++ message)

/-! ## Reading arguments -/

/-- An option as it was found: its spelling, and a value in the same argument, joined to it by an
equals sign or not at all. -/
structure Found where
  option : Switch
  spelling : String
  joined : Bool
  value : Option String

/-- What an argument is. -/
inductive Item where
  | plain (text : String)
  | divider
  | option (text : String) (found : Option Found)

def areDigits (cs : List Char) : Bool :=
  !cs.isEmpty && cs.all fun c => (Text.decimalValue? c).isSome

/-- Whether a text looks like a negative number: a dash, and digits with at most one point. -/
def isNegativeNumber (s : String) : Bool :=
  match s.toList with
  | '-' :: cs =>
    let cs := if cs.getLast? = some '\n' then cs.dropLast else cs
    let whole := cs.takeWhile (· != '.')
    match cs.dropWhile (· != '.') with
    | [] => areDigits whole
    | _ :: places => (whole.isEmpty || areDigits whole) && areDigits places
  | _ => false

def splitValue (s : String) : String × Option String :=
  let cs := s.toList
  match cs.dropWhile (· != '=') with
  | [] => (s, none)
  | _ :: value => (String.ofList (cs.takeWhile (· != '=')), some (String.ofList value))

def Form.candidates (form : Form) (s : String) : List Found :=
  match s.toList with
  | '-' :: '-' :: _ =>
    let (start, value) := splitValue s
    form.options.filterMap fun (spelling, option) =>
      if start.toList.isPrefixOf spelling.toList then some ⟨option, spelling, false, value⟩
      else none
  | a :: b :: rest =>
    form.options.filterMap fun (spelling, option) =>
      if spelling = String.ofList [a, b] then
        some ⟨option, spelling, true, some (String.ofList rest)⟩
      else if s.toList.isPrefixOf spelling.toList then some ⟨option, spelling, false, none⟩
      else none
  | _ => []

def Form.classify (form : Form) (s : String) : Except Ending Item :=
  match s.toList with
  | [] => .ok (.plain s)
  | c :: rest =>
    if c ≠ '-' then .ok (.plain s)
    else match form.options.lookup s with
      | some option => .ok (.option s (some ⟨option, s, false, none⟩))
      | none =>
        if rest.isEmpty then .ok (.plain s)
        else
          let (start, value) := splitValue s
          match value, form.options.lookup start with
          | some value, some option => .ok (.option s (some ⟨option, start, false, some value⟩))
          | _, _ =>
            match form.candidates s with
            | [found] => .ok (.option s (some found))
            | [] =>
              if isNegativeNumber s || s.toList.contains ' ' then .ok (.plain s)
              else .ok (.option s none)
            | several =>
              .error (form.refuse ("ambiguous option: " ++ s ++ " could match "
                ++ ", ".intercalate (several.map (·.spelling))))

/-- All arguments; after the first divider there are no options. -/
def Form.items (form : Form) : List String → Except Ending (List Item)
  | [] => .ok []
  | s :: rest =>
    if s = "--" then .ok (.divider :: rest.map .plain)
    else do
      let item ← form.classify s
      let more ← form.items rest
      return item :: more

/-- What has been taken from an option and what follows it: options with their values, arguments
that are left over, and the items after them. -/
structure Taken where
  options : List (Switch × String)
  extra : List String
  rest : List Item

def Form.takeJoined (form : Form) (rest : List Item) :
    (fuel : Nat) → (option : Switch) → (byEquals : Bool) → (value : List Char) →
    Except Ending Taken
  | 0, _, _, _ => .ok ⟨[], [], rest⟩
  | fuel + 1, option, byEquals, value =>
    let ignored := form.refuseArgument option.title
      ("ignored explicit argument " ++ Text.quoted (String.ofList value))
    match value with
    | [] => .error ignored
    | c :: more =>
      if byEquals ∨ c = '-' then .error ignored
      else match form.options.lookup (String.ofList ['-', c]) with
        | none => .ok ⟨[(option, "")], [String.ofList ('-' :: value)], rest⟩
        | some next => do
          let taken ← match more with
            | [] => .ok ⟨[(next, "")], [], rest⟩
            | '=' :: after => form.takeJoined rest fuel next true after
            | _ => form.takeJoined rest fuel next false more
          return { taken with options := (option, "") :: taken.options }

def Form.take (form : Form) (found : Found) (rest : List Item) : Except Ending Taken :=
  let option := found.option
  match found.value with
  | some value =>
    if option.hasValue then .ok ⟨[(option, value)], [], rest⟩
    else if "--".toList.isPrefixOf found.spelling.toList then
      .error (form.refuseArgument option.title ("ignored explicit argument " ++ Text.quoted value))
    else form.takeJoined rest (value.length + 1) option (!found.joined) value.toList
  | none =>
    if option.hasValue then
      match rest with
      | .plain value :: rest => .ok ⟨[(option, value)], [], rest⟩
      | _ => .error (form.refuseArgument option.title "expected one argument")
    else .ok ⟨[(option, "")], [], rest⟩

def Item.text : Item → String
  | .plain s => s
  | .divider => "--"
  | .option s _ => s

def Item.isOption : Item → Bool
  | .option .. => true
  | _ => false

def Item.isPlain : Item → Bool
  | .plain _ => true
  | _ => false

/-! ## A command -/

/-- What has been read of a command. -/
structure Reading where
  keys : Option Keys
  json : Bool
  cache : Option String
  debug : Bool
  extra : List String

def Form.ids (form : Form) (c : Command) : List String → Except Ending (List PlayerId)
  | [] => .ok []
  | s :: rest => do
    let id ← match PlayerId.parse? s with
      | some id => .ok id
      | none => .error (form.refuseArgument c.placeholder
          ("invalid parse_uuid value: " ++ Text.quoted s))
    let more ← form.ids c rest
    return id :: more

/-- The keys in a run of arguments, the first divider apart. -/
def Command.keysOf (c : Command) (run : List Item) : Except Ending Keys :=
  let texts := (run.map Item.text).erase "--"
  match c with
  | .names => .ok (.names texts)
  | .uuids => ((Form.command c).ids c texts).map .ids

def Reading.follow (form : Form) (r : Reading) : List (Switch × String) → Except Ending Reading
  | [] => .ok r
  | (.help, _) :: _ => .error (.help form.help)
  | (.json, _) :: rest => Reading.follow form { r with json := true } rest
  | (.cache, value) :: rest =>
    Reading.follow form { r with cache := some (SettingValue.plainPath value) } rest
  | (.debug, _) :: rest => Reading.follow form { r with debug := true } rest

/-- Reads the items of a command: the first run of plain arguments holds its keys. -/
def Command.read (c : Command) : (fuel : Nat) → Reading → List Item → Except Ending Reading
  | 0, r, _ => .ok r
  | _ + 1, r, [] => .ok r
  | fuel + 1, r, .option s none :: rest => c.read fuel { r with extra := r.extra ++ [s] } rest
  | fuel + 1, r, .option _ (some found) :: rest => do
    let taken ← (Form.command c).take found rest
    let r ← Reading.follow (.command c) r taken.options
    c.read fuel { r with extra := r.extra ++ taken.extra } taken.rest
  | fuel + 1, r, items => do
    let run := items.takeWhile fun i => !i.isOption
    let rest := items.dropWhile fun i => !i.isOption
    if r.keys.isNone ∧ run.any Item.isPlain then
      let keys ← c.keysOf run
      c.read fuel { r with keys := some keys } rest
    else c.read fuel { r with extra := r.extra ++ run.map Item.text } rest

/-- The invocation that the arguments of a command ask for, and arguments left over. -/
def Command.invocation (c : Command) (args : List String) :
    Except Ending (Invocation × List String) := do
  let form := Form.command c
  let items ← form.items args
  let r ← c.read (items.length + 1) ⟨none, false, none, false, []⟩ items
  match r.keys with
  | some keys => return (⟨keys, r.json, r.cache, r.debug⟩, r.extra)
  | none => throw (form.refuse ("the following arguments are required: " ++ c.placeholder))

/-! ## The program -/

def commandOf? (s : String) : Option Command :=
  if s = "names" then some .names else if s = "uuids" then some .uuids else none

def checkExtra (invocation : Invocation) (extra : List String) : Except Ending Invocation :=
  if extra.isEmpty then .ok invocation
  else .error (Form.program.refuse ("unrecognized arguments: " ++ " ".intercalate extra))

/-- Reads the items of the program: options, then the command with all that follows. -/
def readProgram : (fuel : Nat) → (extra : List String) → List Item → Except Ending Invocation
  | 0, _, _ => .error (Form.program.refuse "the following arguments are required: command")
  | _ + 1, _, [] => .error (Form.program.refuse "the following arguments are required: command")
  | fuel + 1, extra, .option s none :: rest => readProgram fuel (extra ++ [s]) rest
  | fuel + 1, extra, .option _ (some found) :: rest => do
    let taken ← Form.program.take found rest
    let _ ← Reading.follow .program ⟨none, false, none, false, []⟩ taken.options
    readProgram fuel (extra ++ taken.extra) taken.rest
  | fuel + 1, extra, items =>
    let run := items.takeWhile fun i => !i.isOption
    if run.any Item.isPlain then
      match items.map Item.text with
      | [] => .error (Form.program.refuse "the following arguments are required: command")
      | word :: args =>
        match commandOf? word with
        | none =>
          .error (Form.program.refuseArgument "command" ("invalid choice: " ++ Text.quoted word
            ++ " (choose from 'names', 'uuids')"))
        | some c => do
          let (invocation, more) ← c.invocation args
          checkExtra invocation (extra ++ more)
    else readProgram fuel (extra ++ run.map Item.text) (items.dropWhile fun i => !i.isOption)

def parse (args : List String) : Except Ending Invocation := do
  let items ← Form.program.items args
  readProgram (items.length + 1) [] items

end PlayerLookup.CommandLine
