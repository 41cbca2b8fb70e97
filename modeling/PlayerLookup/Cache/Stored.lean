import PlayerLookup.Cache
import PlayerLookup.Cell
import PlayerLookup.PlayerId.Lenient
import PlayerLookup.Storage.Files
import PlayerLookup.Text.Identifier

/-! The cache in a database: one row for each player, names being unique, so that writing a row
removes the others with its id or its name. Many keys are selected in several queries. Faults of
the database are logged and never end a lookup, and rows that hold no profile are skipped. -/

set_option autoImplicit false

namespace PlayerLookup

open Storage (Column Row Content)

variable {σ : Type}

/-- A connection of a cache: where its rows are, and whether it is still open. -/
structure Connection (σ : Type) where
  path : String
  title : String
  opened : Cell σ Bool
  content : Cell σ Content

def defaultTitle : String := "uuid_cache"

def keysPerQuery : Nat := 500

namespace Connection

def profileOfRow? (row : Row) : Option Profile :=
  match row.uuid, row.name with
  | .text id, .text name => do
    let id ← PlayerId.read? id
    let name ← Name.ofText? name
    return ⟨id, name⟩
  | _, _ => none

def rowOfProfile (p : Profile) : Row := ⟨.text p.id.text, .text p.name.text⟩

def database (c : Connection σ) : Lookup σ (Except Storage.Fault Storage.Database) := fun s =>
  ⟨[], s, .ok (if c.opened.get s then (c.content.get s).tables else .error .closed)⟩

def warn (message : String) (attached : Option Failure) : Lookup σ Unit :=
  Lookup.log .warning .databaseCache message attached

def warnFault (c : Connection σ) (attempted : String) (fault : Storage.Fault) : Lookup σ Unit :=
  warn ("Failed to " ++ attempted ++ " " ++ c.path ++ ": " ++ fault.message)
    (some (.database fault))

def putAll (c : Connection σ) (ps : List Profile) : Lookup σ Unit :=
  if ps = [] then return
  else do
    let db ← c.database
    match db.bind (Storage.Database.writeRows · c.title (ps.map rowOfProfile)) with
    | .ok db => c.content.write (.database db)
    | .error fault => c.warnFault "write profiles to" fault

def decode (c : Connection σ) (rows : List Row) : Lookup σ (List Profile) :=
  match rows with
  | [] => return []
  | row :: rest =>
    match profileOfRow? row with
    | some p => do
      let more ← c.decode rest
      return p :: more
    | none => do
      warn ("Skipping malformed cache row in " ++ c.path ++ ": uuid=" ++ row.uuid.literal
        ++ " name=" ++ row.name.literal) none
      c.decode rest

/-- The profiles in the rows with one of the keys, part by part, up to the first fault. -/
def selectParts (c : Connection σ) (column : Column) (parts : List (List String)) :
    Lookup σ (Except Storage.Fault (List Profile)) :=
  match parts with
  | [] => return .ok []
  | keys :: rest => do
    let db ← c.database
    match db.bind (Storage.Database.select · c.title column keys) with
    | .error fault => return .error fault
    | .ok rows => do
      let found ← c.decode rows
      match ← c.selectParts column rest with
      | .error fault => return .error fault
      | .ok more => return .ok (found ++ more)

/-- The profiles in the rows with one of the keys, the last for each player. -/
def select (c : Connection σ) (column : Column) (attempted : String) (keys : List String) :
    Lookup σ (List Profile) := do
  match ← c.selectParts column (Batch.chunks keysPerQuery (Batch.unique keys)) with
  | .ok found => return Batch.latestBy Profile.id found
  | .error fault => do
    c.warnFault attempted fault
    return []

def getAll (c : Connection σ) (ids : List PlayerId) : Lookup σ (List Profile) :=
  c.select .uuid "read profiles from" (ids.map PlayerId.text)

def getAllByName (c : Connection σ) (names : List String) : Lookup σ (List Profile) := do
  let found ← c.select .name "read profiles by name from" names
  return Batch.latestBy (·.name.text) found

end Connection

namespace Cache

def stored (c : Connection σ) : Cache σ where
  label := "SQLiteCache"
  putAll := c.putAll
  getAll := c.getAll
  getAllByName? := some c.getAllByName
  close := c.opened.write false

/-- Opens the cache in a file: the title must be an identifier, the path one that is not refused,
the file one that can be opened, and the table is created where it is missing. Gives where the
database is and what it then holds. -/
def openFile (refused : String → Option Failure) (files : Storage.Files) (path title : String) :
    Except Failure (Storage.Location × Storage.Database) :=
  if !Text.isIdentifier title then .error (.cache (.badTitle title))
  else match refused path with
    | some f => .error f
    | none => match files.open? path with
      | .error _ => .error (.cache (.cannotConnect path))
      | .ok location =>
        let content := match location with
          | .hidden => Content.database []
          | .file place => files.content place
        match content.tables.bind (Storage.Database.prepare · title) with
        | .error _ => .error (.cache (.cannotCreate path))
        | .ok db => .ok (location, db)

def openedRecord (path : String) : LogRecord where
  level := .debug
  component := .databaseCache
  message := "Opened SQLite profile cache at " ++ path

end Cache

end PlayerLookup
