import PlayerLookup.Storage.Database

/-! Files of a working directory, and the databases that connections to them see. A path is taken
apart at its slashes; a step up undoes the step before it, whether or not that directory exists.
An empty path and the memory path name a private database that only its connection sees. -/

set_option autoImplicit false

namespace PlayerLookup.Storage

/-- A place below (or, by steps up, beside) the working directory. -/
abbrev Place := List String

def Place.walk (done : List String) : List String → Place
  | [] => done.reverse
  | step :: rest =>
    if step = "" ∨ step = "." then Place.walk done rest
    else if step = ".." then
      match done with
      | [] => Place.walk [".."] rest
      | last :: before =>
        if last = ".." then Place.walk (".." :: done) rest else Place.walk before rest
    else Place.walk (step :: done) rest

/-- The place that a relative path names; absolute paths name none here. -/
def place? (path : String) : Option Place :=
  if path.toList.head? = some '/' then none
  else some (Place.walk [] ((path.toList.splitOn '/').map String.ofList))

/-- The files there are, by their places. -/
structure Files where
  entries : List (Place × Content) := []

namespace Files

def find? (files : Files) (place : Place) : Option Content := files.entries.lookup place

/-- Gives a file its content, creating it where there is none. -/
def setEntry (place : Place) (content : Content) :
    List (Place × Content) → List (Place × Content)
  | [] => [(place, content)]
  | (p, old) :: rest =>
    if p = place then (p, content) :: rest else (p, old) :: setEntry place content rest

def set (files : Files) (place : Place) (content : Content) : Files :=
  ⟨setEntry place content files.entries⟩

/-- Whether a directory is there: the working directory, those above it, and those on the way to
a file. -/
def hasDirectory (files : Files) (place : Place) : Bool :=
  place.all (· == "..") || files.entries.any fun (p, _) =>
    place.isPrefixOf p && place.length < p.length

/-- The content of a file as it is, where no file counts as an empty database. -/
def content (files : Files) (place : Place) : Content :=
  (files.find? place).getD (.database [])

theorem lookup_setEntry (place : Place) (content : Content) (entries : List (Place × Content)) :
    (setEntry place content entries).lookup place = some content := by
  induction entries with
  | nil => simp [setEntry]
  | cons e rest ih =>
    obtain ⟨p, old⟩ := e
    by_cases h : p = place
    · simp [setEntry, h]
    · have h' : (place == p) = false := beq_false_of_ne (Ne.symm h)
      simp [setEntry, h, List.lookup_cons, h', ih]

theorem content_set (files : Files) (place : Place) (content : Content) :
    (files.set place content).content place = content := by
  simp [Files.content, find?, set, lookup_setEntry]

end Files

def isPrivatePath (path : String) : Bool := path == "" || path == ":memory:"

/-- Where a connection finds its database. -/
inductive Location where
  | hidden
  | file (place : Place)
  deriving DecidableEq

/-- Where a connection to a path finds its database, if it can be opened: not where a directory
is, and only in a directory that is there. -/
def Files.open? (files : Files) (path : String) : Except Fault Location :=
  if isPrivatePath path then .ok .hidden
  else match place? path with
    | none => .error .cannotOpen
    | some place =>
      if files.hasDirectory place || !files.hasDirectory place.dropLast then .error .cannotOpen
      else .ok (.file place)

end PlayerLookup.Storage
