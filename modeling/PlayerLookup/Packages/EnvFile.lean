import PlayerLookup.CommandLine.Run
import PlayerLookup.Text.Blank
import PlayerLookup.Text.Search

/-! Environment files, as the package reads them that settings are loaded with: lines that assign
values to variables. A value may be quoted, then it may run over several lines and holds escapes;
otherwise it ends at a comment or at the end of its line. A name alone, without an equals sign, has
no value. A line that cannot be read is skipped. Values may refer to variables in braces after a
dollar sign. The settings do not depend on this reader: they are loaded from assignments. -/

set_option autoImplicit false

namespace PlayerLookup.EnvFile

/-- A line, or the lines of a quoted value. -/
inductive Entry where
  | empty
  | variable (name : List Char) (value : Option (List Char))
  | unreadable

def isLineEnd (c : Char) : Bool := c == '\n' || c == '\r'

def isGap (c : Char) : Bool := Text.isBlank c && !isLineEnd c

def skipGap (cs : List Char) : List Char := cs.dropWhile isGap

/-- The word that may stand before a name, with the gap after it. -/
def skipExport (cs : List Char) : List Char :=
  if "export".toList.isPrefixOf cs then
    let rest := cs.drop 6
    if (rest.head?.map isGap).getD false then skipGap rest else cs
  else cs

def lineEnd? (cs : List Char) : Option (List Char) :=
  match skipGap cs with
  | [] => some []
  | '\r' :: '\n' :: rest => some rest
  | c :: rest => if isLineEnd c then some rest else none

def skipComment (cs : List Char) : List Char :=
  match skipGap cs with
  | '#' :: rest => rest.dropWhile fun c => !isLineEnd c
  | _ => cs

def skipLine (cs : List Char) : List Char :=
  match cs.dropWhile fun c => !isLineEnd c with
  | [] => []
  | _ :: rest => rest

def name? (cs : List Char) : Option (Option (List Char) × List Char) :=
  match cs with
  | '#' :: _ => some (none, cs)
  | '\x27' :: rest =>
    match rest.takeWhile (· != '\x27'), rest.dropWhile (· != '\x27') with
    | [], _ => none
    | _, [] => none
    | name, _ :: more => some (some name, more)
  | _ =>
    let inName (c : Char) : Bool := !(c == '=' || c == '#' || Text.isBlank c)
    match cs.takeWhile inName with
    | [] => none
    | name => some (some name, cs.dropWhile inName)

/-- The text up to a quote that no backslash stands before. -/
def upToQuote (quote : Char) (done : List Char) : List Char → Option (List Char × List Char)
  | [] => none
  | '\\' :: c :: rest =>
    if c = quote then upToQuote quote (c :: '\\' :: done) rest
    else upToQuote quote ('\\' :: done) (c :: rest)
  | c :: rest =>
    if c = quote then some (done.reverse, rest) else upToQuote quote (c :: done) rest

def upToLastQuote (quote : Char) (cs : List Char) : Option (List Char × List Char) :=
  match cs.reverse.dropWhile (· != quote) with
  | [] => none
  | _ :: before =>
    let text := before.reverse
    some (text, cs.drop (text.length + 1))

def quoted? (quote : Char) (cs : List Char) : Option (List Char × List Char) :=
  (upToQuote quote [] cs).or (upToLastQuote quote cs)

def escapes : List (Char × Char) :=
  [('\\', '\\'), ('\x27', '\x27'), ('\x22', '\x22'), ('a', '\x07'), ('b', '\x08'), ('f', '\x0c'),
    ('n', '\n'), ('r', '\r'), ('t', '\t'), ('v', '\x0b')]

def unescape (table : List (Char × Char)) : List Char → List Char
  | '\\' :: c :: rest =>
    match table.lookup c with
    | some x => x :: unescape table rest
    | none => '\\' :: unescape table (c :: rest)
  | c :: rest => c :: unescape table rest
  | [] => []

def beforeComment : List Char → List Char
  | [] => []
  | c :: rest =>
    if Text.isBlank c && ((c :: rest).dropWhile Text.isBlank).head? == some '#' then []
    else c :: beforeComment rest

def value? (cs : List Char) : Option (List Char × List Char) :=
  match cs with
  | [] => some ([], [])
  | '\x27' :: rest =>
    (quoted? '\x27' rest).map fun (v, more) => (unescape (escapes.take 2) v, more)
  | '\x22' :: rest => (quoted? '\x22' rest).map fun (v, more) => (unescape escapes v, more)
  | cs =>
    let line := cs.takeWhile fun c => !isLineEnd c
    some (Text.dropEndWhile Text.isBlank (beforeComment line), cs.drop line.length)

/-- The end of an entry; anything else in its place makes it unreadable. -/
def finish (entry : Entry) (cs : List Char) : Entry × List Char :=
  match lineEnd? (skipComment cs) with
  | some rest => (entry, rest)
  | none => (.unreadable, skipLine (skipComment cs))

def entry (cs : List Char) : Entry × List Char :=
  match cs.dropWhile Text.isBlank with
  | [] => (.empty, [])
  | cs =>
    let cs := skipExport cs
    match name? cs with
    | none => (.unreadable, skipLine cs)
    | some (name, rest) =>
      let made (v : Option (List Char)) : Entry :=
        match name with
        | some n => .variable n v
        | none => .empty
      match skipGap rest with
      | '=' :: more =>
        let more := skipGap more
        match value? more with
        | some (v, after) => finish (made (some v)) after
        | none => (.unreadable, skipLine more)
      | more => finish (made none) more

def lineEnds : List Char → Nat
  | '\r' :: '\n' :: rest => lineEnds rest + 1
  | c :: rest => if isLineEnd c then lineEnds rest + 1 else lineEnds rest
  | [] => 0

/-- All entries, each with the number of the line where it begins. -/
def entriesFrom : (fuel : Nat) → (line : Nat) → List Char → List (Nat × Entry)
  | 0, _, _ => []
  | _ + 1, _, [] => []
  | fuel + 1, line, cs =>
    let (e, rest) := entry cs
    (line, e) :: entriesFrom fuel (line + lineEnds (cs.take (cs.length - rest.length))) rest

def plainLines : List Char → List Char
  | '\r' :: '\n' :: rest => '\n' :: plainLines rest
  | '\r' :: rest => '\n' :: plainLines rest
  | c :: rest => c :: plainLines rest
  | [] => []

/-- The entries of a file, each with the number of the line where it begins. -/
def entries (text : String) : List (Nat × Entry) :=
  let cs := plainLines text.toList
  entriesFrom (cs.length + 1) 1 cs

def unreadableLines (text : String) : List Nat :=
  (entries text).filterMap fun (line, e) =>
    match e with
    | .unreadable => some line
    | _ => none

/-- A reference to a variable after its opening brace: the name, what stands in its place where it
has no value, and the rest. -/
def reference? (cs : List Char) : Option (List Char × Option (List Char) × List Char) :=
  let inName (c : Char) : Bool := !(c == '\x7d' || c == ':')
  let name := cs.takeWhile inName
  match cs.dropWhile inName with
  | '\x7d' :: rest => some (name, none, rest)
  | ':' :: '-' :: rest =>
    match rest.dropWhile (· != '\x7d') with
    | [] => none
    | _ :: more => some (name, some (rest.takeWhile (· != '\x7d')), more)
  | _ => none

def expand (valueOf : String → Option String) : (fuel : Nat) → List Char → List Char
  | 0, cs => cs
  | _ + 1, [] => []
  | fuel + 1, c :: rest =>
    match c, rest with
    | '$', '\x7b' :: more =>
      match reference? more with
      | some (name, instead, after) =>
        let text := match valueOf (String.ofList name) with
          | some v => v.toList
          | none => instead.getD []
        text ++ expand valueOf fuel after
      | none => c :: expand valueOf fuel rest
    | _, _ => c :: expand valueOf fuel rest

/-- What a variable is replaced by: its value in the file so far, which may be none, or that of
the environment. -/
def valueOf (environment : List (String × String)) (done : List (String × Option String))
    (name : String) : Option String :=
  match done.find? fun v => v.1 == name with
  | some (_, v) => some (v.getD "")
  | none => (environment.find? fun v => v.1 == name).map Prod.snd

def assign (environment : List (String × String)) (done : List (String × Option String))
    (e : Nat × Entry) : List (String × Option String) :=
  match e.2 with
  | .variable name value =>
    let v := value.map fun v =>
      String.ofList (expand (valueOf environment done) (v.length + 1) v)
    (String.ofList name, v) :: done
  | _ => done

def assignments (environment : List (String × String)) (text : String) :
    List (String × Option String) :=
  ((entries text).foldl (assign environment) []).reverse

/-- What is said about the lines of a file that cannot be read. -/
def warnings (text : String) : String :=
  String.join ((unreadableLines text).map fun n =>
    "python-dotenv could not parse statement starting at line " ++ toString n ++ "\n")

def reading (file : Option String) (environment : CommandLine.Environment) :
    CommandLine.FileReading (List (String × Option String)) :=
  ⟨(file.map warnings).getD "", .ok ((file.map (assignments environment)).getD [])⟩

/-- Surroundings with the text of a file, which nothing loads into the environment, and where
everything can be printed. -/
def surroundings (environment : CommandLine.Environment) (file : Option String) (now : Moment)
    (shown : Failure → String) : CommandLine.Surroundings where
  environment := environment
  load environment := ⟨"", .ok environment⟩
  assign := reading file
  output _ := none
  errors _ := none
  now := now
  shown := shown

end PlayerLookup.EnvFile
