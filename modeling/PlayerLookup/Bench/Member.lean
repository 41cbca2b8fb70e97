import PlayerLookup.Amount

/-! Reading the members of records. A member that is missing or null stands for a usual value, and
one of another kind for what comes nearest to it. -/

set_option autoImplicit false

namespace PlayerLookup.Document

/-- The nearest whole number: that of a flag or a whole real, and zero for anything else. -/
def whole : Document → Int
  | .int n => n
  | .bool b => Amount.ofFlag b
  | .real x => (wholeValue? x).getD 0
  | _ => 0

def isTrue : Document → Bool
  | .bool b => b
  | .null => false
  | .int n => n != 0
  | .text s => s != ""
  | _ => true

def items : Document → List Document
  | .list items => items
  | _ => []

def members : Document → List (String × Document)
  | .record members => members
  | _ => []

def amount : Document → Amount
  | .int n => .whole n
  | .real x => .real x
  | .bool b => .flag b
  | _ => .whole 0

def nonNull? {α : Type} (f : Document → α) : Document → Option α
  | .null => none
  | d => some (f d)

def valueAt (d : Document) (name : String) : Document := (d.member? name).getD .null

def given? (d : Document) (name : String) : Option Document := (d.valueAt name).nonNull? id

def textAt (d : Document) (name usual : String) : String :=
  ((d.given? name).map display).getD usual

/-- A member as a whole number, or a usual one where it is not given. -/
def wholeAt (d : Document) (name : String) (usual : Int) : Int :=
  ((d.given? name).map whole).getD usual

def isTrueAt (d : Document) (name : String) : Bool := (d.valueAt name).isTrue

def itemsAt (d : Document) (name : String) : List Document := (d.valueAt name).items

def membersAt (d : Document) (name : String) : List (String × Document) := (d.valueAt name).members

def textsAt (d : Document) (name : String) : List String := (d.itemsAt name).map display

end PlayerLookup.Document
