import PlayerLookup.Batch
import PlayerLookup.Failure
import PlayerLookup.PlayerId

/-! Profiles: an id with the name last seen for it. The id alone tells profiles apart, the name is
only a label; a name is never empty. -/

set_option autoImplicit false

namespace PlayerLookup

/-- A name that is not empty. -/
structure Name where
  text : String
  nonempty : text ≠ ""
  deriving DecidableEq

def Name.ofText? (text : String) : Option Name :=
  if h : text = "" then none else some ⟨text, h⟩

theorem Name.ext_text {a b : Name} (h : a.text = b.text) : a = b := by
  cases a; cases b; cases h; rfl

theorem Name.empty_or_text (text : String) : text = "" ∨ ∃ n : Name, n.text = text := by
  by_cases h : text = ""
  · exact Or.inl h
  · exact Or.inr ⟨⟨text, h⟩, rfl⟩

/-- An id with its current name. -/
structure Profile where
  id : PlayerId
  name : Name
  deriving DecidableEq

namespace Profile

def make (id : PlayerId) (name : String) : Except Failure Profile :=
  match Name.ofText? name with
  | some n => .ok ⟨id, n⟩
  | none => .error (.misuse .emptyName)

theorem make_text (id : PlayerId) (n : Name) : make id n.text = .ok ⟨id, n⟩ := by
  rw [make, Name.ofText?, dif_neg n.nonempty]

def samePlayer (a b : Profile) : Bool := a.id == b.id

def text (p : Profile) : String := p.id.text ++ " " ++ p.name.text

def literal (p : Profile) : String :=
  "Profile(unique_id=UUID('" ++ p.id.text ++ "'), name=" ++ Text.quoted p.name.text ++ ")"

def sorted (ps : List Profile) : List Profile :=
  ps.mergeSort fun a b =>
    a.id.bits < b.id.bits || (a.id == b.id && !(b.name.text < a.name.text))

/-- One profile of each player, the first of each. -/
def distinct (ps : List Profile) : List Profile :=
  Batch.uniqueBy Profile.id ps

end Profile

/-! ## Reading a text that must write an id -/

namespace PlayerId

/-- What was read from a text; a text that writes no id is a failure. -/
def orInvalid {α : Type} (s : String) (read : Option α) : Except Failure α :=
  match read with
  | some a => .ok a
  | none => .error (.invalidId s)

def parse (s : String) : Except Failure PlayerId := orInvalid s (parse? s)

def addDashes (s : String) : Except Failure String := orInvalid s (addDashes? s)

def stripDashes (s : String) : Except Failure String := orInvalid s (stripDashes? s)

end PlayerId

end PlayerLookup
