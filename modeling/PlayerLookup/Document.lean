import PlayerLookup.Decimal.Layout
import PlayerLookup.Text.Quoted

/-! Documents: the values that a remote service answers with, that settings are given by and that
visitors return. A record keeps its members in order of first appearance. `literal` is the exact
form in which messages show a document, and `display` the form in which it becomes text. -/

set_option autoImplicit false

namespace PlayerLookup

/-- A value of a data format with records and lists. -/
inductive Document where
  | null
  | bool (value : Bool)
  | int (value : Int)
  | real (value : Float)
  | text (value : String)
  | list (items : List Document)
  | record (members : List (String × Document))
  deriving Inhabited

namespace Document

def kind : Document → String
  | .null => "NoneType"
  | .bool _ => "bool"
  | .int _ => "int"
  | .real _ => "float"
  | .text _ => "str"
  | .list _ => "list"
  | .record _ => "dict"

/-- The member of a record under a name, if the document is a record and has one. -/
def member? : Document → String → Option Document
  | .record members, name => members.lookup name
  | _, _ => none

/-- Adds a member to a record, or gives the member of that name a new value in its old place. -/
def setMember (name : String) (value : Document) :
    List (String × Document) → List (String × Document)
  | [] => [(name, value)]
  | (key, old) :: rest =>
    if key = name then (key, value) :: rest else (key, old) :: setMember name value rest

/-- Only the explicit answer `false` asks to stop. -/
def stops : Document → Bool
  | .bool false => true
  | _ => false

mutual

def literal : Document → String
  | .null => "None"
  | .bool true => "True"
  | .bool false => "False"
  | .int n => toString n
  | .real x => Decimal.plainText x
  | .text s => Text.quoted s
  | .list items => "[" ++ ", ".intercalate (literals items) ++ "]"
  | .record members => "\x7b" ++ ", ".intercalate (memberLiterals members) ++ "\x7d"

def literals : List Document → List String
  | [] => []
  | d :: rest => literal d :: literals rest

/-- The exact forms of members: quoted name, colon, value. -/
def memberLiterals : List (String × Document) → List String
  | [] => []
  | (name, d) :: rest => (Text.quoted name ++ ": " ++ literal d) :: memberLiterals rest

end

/-- A document as text: a text is itself, anything else its exact form. -/
def display : Document → String
  | .text s => s
  | d => d.literal

def wholeValue? (x : Float) : Option Int :=
  match Decimal.Binary64.ofFloat x with
  | .finite negative m =>
    let r := m.ratio
    if r.num % r.den = 0 then
      some (if negative then -Int.ofNat (r.num / r.den) else Int.ofNat (r.num / r.den))
    else none
  | _ => none

end Document

end PlayerLookup
