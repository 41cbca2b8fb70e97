import PlayerLookup.Storage.Value

/-! Databases of tables that pair an id with a name, as far as a cache can tell: creating the table
and its index of names, writing rows that replace those in conflict with them, and selecting rows
by a column. Names of tables and columns are the same when they differ only in ASCII case. -/

set_option autoImplicit false

namespace PlayerLookup.Storage

/-- What a database can refuse. -/
inductive Fault where
  | closed
  | cannotOpen
  | notADatabase
  | reservedName (name : String)
  | noTable (name : String)
  | tableExists (name : String)
  | noColumn (name : String)
  | lacksColumn (table column : String)
  | required (table column : String)
  | repeated (table column : String)
  deriving DecidableEq

def Fault.message : Fault → String
  | .closed => "Cannot operate on a closed database."
  | .cannotOpen => "unable to open database file"
  | .notADatabase => "file is not a database"
  | .reservedName name => "near \x22" ++ name ++ "\x22: syntax error"
  | .noTable name => "no such table: " ++ name
  | .tableExists name => "table " ++ name ++ " already exists"
  | .noColumn name => "no such column: " ++ name
  | .lacksColumn table column => "table " ++ table ++ " has no column named " ++ column
  | .required table column => "NOT NULL constraint failed: " ++ table ++ "." ++ column
  | .repeated table column => "UNIQUE constraint failed: " ++ table ++ "." ++ column

/-- The two columns that a cache uses. -/
inductive Column where
  | uuid
  | name
  deriving DecidableEq

def Column.text : Column → String
  | .uuid => "uuid"
  | .name => "name"

/-- How a column of a table was declared. -/
structure Declaration where
  textual : Bool
  unique : Bool
  required : Bool

/-- A row, as far as the two columns go. -/
structure Row where
  uuid : Value
  name : Value

def Row.at (row : Row) : Column → Value
  | .uuid => row.uuid
  | .name => row.name

/-- A table with the columns it has of the two, and its rows in order of writing. -/
structure Table where
  title : String
  uuid? : Option Declaration
  name? : Option Declaration
  nameIndexed : Bool
  rows : List Row

namespace Table

def declaration? (t : Table) : Column → Option Declaration
  | .uuid => t.uuid?
  | .name => t.name?

/-- The table as a cache creates it, without rows. -/
def forCache (title : String) : Table :=
  ⟨title, some ⟨true, true, true⟩, some ⟨true, false, true⟩, true, []⟩

/-- Whether no two rows may have one value in a column. -/
def isUnique (t : Table) (c : Column) : Bool :=
  let declared := match t.declaration? c with
    | some d => d.unique
    | none => false
  declared || (c == .name && t.nameIndexed)

def stored (t : Table) (c : Column) (v : Value) : Value :=
  match t.declaration? c with
  | some d => if d.textual then v.inTextColumn else v
  | none => v

/-- Whether a column refuses the value because it must have one. -/
def refusesNull (t : Table) (c : Column) (v : Value) : Bool :=
  match t.declaration? c, v with
  | some d, .null => d.required
  | _, _ => false

def givesWay (t : Table) (new old : Row) : Bool :=
  (t.isUnique .uuid && new.uuid.conflicts old.uuid)
    || (t.isUnique .name && new.name.conflicts old.name)

/-- Writes a row in place of all rows that it is in conflict with. -/
def replaceRow (t : Table) (row : Row) : Table :=
  { t with rows := (t.rows.filter fun old => !t.givesWay row old) ++ [row] }

/-- Writes a row, if the table has the columns and the row their values. -/
def write (t : Table) (row : Row) : Except Fault Table :=
  if t.uuid?.isNone then .error (.lacksColumn t.title "uuid")
  else if t.name?.isNone then .error (.lacksColumn t.title "name")
  else
    let row : Row := ⟨t.stored .uuid row.uuid, t.stored .name row.name⟩
    if t.refusesNull .uuid row.uuid then .error (.required t.title "uuid")
    else if t.refusesNull .name row.name then .error (.required t.title "name")
    else .ok (t.replaceRow row)

/-- The texts in a column, with their rows, in the order of the texts. -/
def sortedBy (c : Column) (rows : List Row) : List Row :=
  let key (row : Row) : String := match row.at c with
    | .text s => s
    | _ => ""
  rows.mergeSort fun a b => !(key b < key a)

/-- The rows that have one of the keys in a column, in the order of the keys if the column is
indexed and of writing otherwise. -/
def select (t : Table) (c : Column) (keys : List String) : Except Fault (List Row) :=
  if t.uuid?.isNone then .error (.noColumn "uuid")
  else if t.name?.isNone then .error (.noColumn "name")
  else
    let found := t.rows.filter fun row => keys.any fun key => (row.at c).isText key
    .ok (if t.isUnique c then sortedBy c found else found)

def repeats (c : Column) : List Row → Bool
  | [] => false
  | row :: rest => (rest.any fun other => (row.at c).conflicts (other.at c)) || repeats c rest

/-- Makes the names unique, if no two rows share one. -/
def indexNames (t : Table) : Except Fault Table :=
  if t.nameIndexed then .ok t
  else if t.name?.isNone then .error (.noColumn "name")
  else if repeats .name t.rows then .error (.repeated t.title "name")
  else .ok { t with nameIndexed := true }

end Table

abbrev Database := List Table

namespace Database

def sameTitle (a b : String) : Bool := a.map Char.toLower == b.map Char.toLower

def find? (db : Database) (title : String) : Option Table :=
  List.find? (fun t => sameTitle t.title title) db

/-- Puts a table in the place of the one of its title, or after the others. -/
def setTable (table : Table) : Database → Database
  | [] => [table]
  | t :: rest =>
    if sameTitle t.title table.title then table :: rest else t :: setTable table rest

def reservedWords : List String :=
  ["add", "all", "alter", "and", "as", "autoincrement", "between", "case", "check", "collate",
    "commit", "constraint", "create", "default", "deferrable", "delete", "distinct", "drop",
    "else", "escape", "except", "exists", "foreign", "from", "group", "having", "if", "in",
    "index", "insert", "intersect", "into", "is", "isnull", "join", "limit", "not", "nothing",
    "notnull", "null", "on", "or", "order", "primary", "references", "returning", "select", "set",
    "table", "then", "to", "transaction", "union", "unique", "update", "using", "values", "when",
    "where", "sqlite"]

def isReserved (title : String) : Bool :=
  let t := title.map Char.toLower
  reservedWords.contains t || "sqlite_".toList.isPrefixOf t.toList

/-- Creates the table of a cache and its index of names where they are not there yet. -/
def prepare (db : Database) (title : String) : Except Fault Database :=
  if isReserved title then .error (.reservedName title)
  else match find? db title with
    | none => .ok (setTable (.forCache title) db)
    | some t => t.indexNames.map (setTable · db)

def writeRows (db : Database) (title : String) (rows : List Row) : Except Fault Database :=
  match find? db title with
  | none => .error (.noTable title)
  | some t => (rows.foldlM Table.write t).map (setTable · db)

def select (db : Database) (title : String) (c : Column) (keys : List String) :
    Except Fault (List Row) :=
  match find? db title with
  | none => .error (.noTable title)
  | some t => t.select c keys

end Database

/-- What a file holds: a database, an empty file being one without tables, or something else. -/
inductive Content where
  | database (tables : Database)
  | foreign (bytes : List UInt8)

def Content.tables : Content → Except Fault Database
  | .database db => .ok db
  | .foreign [] => .ok []
  | .foreign _ => .error .notADatabase

end PlayerLookup.Storage
