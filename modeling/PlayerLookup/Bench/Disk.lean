import PlayerLookup.Bench.World
import PlayerLookup.Bench.Declared

/-! The files of the bench as another program works on them: it writes files, and opens databases
anew for each thing it does to them. -/

set_option autoImplicit false

namespace PlayerLookup.Bench

open Storage (Database Row Table)

def writeText (files : Storage.Files) (path text : String) : Storage.Files :=
  match Storage.place? path with
  | some place => files.set place (.foreign text.toUTF8.toList)
  | none => files

def readText? (files : Storage.Files) (path : String) : Option String := do
  let place ← Storage.place? path
  match ← files.find? place with
  | .foreign bytes => String.fromUTF8? (ByteArray.mk bytes.toArray)
  | .database _ => none

def orFault {α : Type} (r : Except Storage.Fault α) : Lookup World α :=
  Lookup.ofExcept (match r with
    | .ok a => .ok a
    | .error fault => .error (.database fault))

/-- Changes the database in a file. A private one is gone afterwards. -/
def changeDatabase (path : String) (change : Database → Except Storage.Fault Database) :
    Lookup World Unit := do
  let files ← filesShelf.read
  match ← orFault (files.open? path) with
  | .hidden => do
    let _ ← orFault (change [])
  | .file place => do
    let db ← orFault ((files.content place).tables.bind change)
    filesShelf.write (files.set place (.database db))

def rowsOf (path title : String) : Lookup World (List Row) := do
  let files ← filesShelf.read
  let db ← match ← orFault (files.open? path) with
    | .hidden => pure []
    | .file place => orFault (files.content place).tables
  let rows ← orFault (Database.allRows db title)
  let before (a b : String) : Bool := !(b < a)
  let text (v : Storage.Value) : String := match v with
    | .text s => s
    | v => v.literal
  return rows.mergeSort fun a b =>
    if text a.uuid = text b.uuid then before (text a.name) (text b.name)
    else before (text a.uuid) (text b.uuid)

def insertRow (path title : String) (row : Row) : Lookup World Unit :=
  changeDatabase path (·.writeRows title [row])

def dropTable (path title : String) : Lookup World Unit := changeDatabase path (·.drop title)

def createTable (path title : String) (declarations : List String) : Lookup World Unit :=
  changeDatabase path (·.create (Table.declared title declarations))

end PlayerLookup.Bench
