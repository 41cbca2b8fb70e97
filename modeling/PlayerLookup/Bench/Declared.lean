import PlayerLookup.Storage.Database

/-! What others do to a database: tables are created from the declarations of their columns, or
dropped, and all rows are read. A declaration begins with the name of the column; the words after
it say what values it holds, whether they may repeat, and whether they may be missing. -/

set_option autoImplicit false

namespace PlayerLookup.Storage

def declaredWords (declaration : String) : List String :=
  ((declaration.map Char.toLower).splitOn " ").filter (· != "")

def anyWordHas (words parts : List String) : Bool :=
  words.any fun w => parts.any fun part => (w.splitOn part).length > 1

def Declaration.ofWords (words : List String) : Declaration where
  textual := anyWordHas words ["char", "clob", "text"]
  unique := words.contains "primary" || words.contains "unique"
  required := words.contains "not"

def declared? (declarations : List String) (c : Column) : Option Declaration :=
  declarations.findSome? fun d =>
    match declaredWords d with
    | name :: rest => if name = c.text then some (.ofWords rest) else none
    | [] => none

def Table.declared (title : String) (declarations : List String) : Table :=
  ⟨title, declared? declarations .uuid, declared? declarations .name, false, []⟩

namespace Database

def allRows (db : Database) (title : String) : Except Fault (List Row) :=
  match find? db title with
  | none => .error (.noTable title)
  | some t =>
    if t.uuid?.isNone then .error (.noColumn "uuid")
    else if t.name?.isNone then .error (.noColumn "name")
    else .ok t.rows

def drop (db : Database) (title : String) : Except Fault Database :=
  match find? db title with
  | none => .error (.noTable title)
  | some _ => .ok (db.filter fun t => !sameTitle t.title title)

def create (db : Database) (table : Table) : Except Fault Database :=
  if isReserved table.title then .error (.reservedName table.title)
  else match find? db table.title with
    | some _ => .error (.tableExists table.title)
    | none => .ok (setTable table db)

end Database

end PlayerLookup.Storage
