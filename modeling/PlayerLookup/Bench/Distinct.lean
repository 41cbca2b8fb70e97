import PlayerLookup.Batch
import PlayerLookup.Document
import PlayerLookup.Text.Casing

/-! Dropping repeats among documents, as they are or by their folded texts. What has no key for
the comparison is given back as the reason why it cannot be done. -/

set_option autoImplicit false

namespace PlayerLookup.Document

/-- What two documents are compared by where repeats are dropped: a whole real is the same key as
the integer, and the two truth values as zero and one. -/
inductive Key where
  | null
  | number (value : Int)
  | bits (pattern : UInt64)
  | text (value : String)
  deriving DecidableEq

/-- The comparison key; lists and records have none. -/
def key? : Document → Option Key
  | .null => some .null
  | .bool b => some (.number (if b then 1 else 0))
  | .int n => some (.number n)
  | .real x => some (match wholeValue? x with | some n => .number n | none => .bits x.toBits)
  | .text s => some (.text s)
  | .list _ => none
  | .record _ => none

def foldedKey? : Document → Option Key
  | .text s => some (.text (Text.fold s))
  | _ => none

/-- What documents are compared by, with or without regard to case. -/
def keyFor? (foldsCase : Bool) (d : Document) : Option Key :=
  if foldsCase then d.foldedKey? else d.key?

def keyed (foldsCase : Bool) (items : List Document) : Except Document (List (Key × Document)) :=
  items.mapM fun d => match d.keyFor? foldsCase with
    | some key => .ok (key, d)
    | none => .error d

def distinct (foldsCase : Bool) (items : List Document) : Except Document (List Document) :=
  (keyed foldsCase items).map fun found => (Batch.uniqueBy Prod.fst found).map Prod.snd

end PlayerLookup.Document
