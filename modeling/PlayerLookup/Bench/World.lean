import PlayerLookup.Bench.Distinct
import PlayerLookup.Pipeline

/-! The bench: a state for trying out sources and caches with collaborators that follow a script.
Each thing on the bench has a number, and its state stands under that number on a shelf for things
of its kind. -/

set_option autoImplicit false

namespace PlayerLookup.Bench

/-- The body of a scripted answer: given bytes, or one record for each name asked for, with ids
counted up from a number. -/
inductive Body where
  | bytes (content : List UInt8)
  | echo (first : Nat)

/-- What a request meets with. -/
inductive Reply where
  | fails (f : Failure)
  | answers (status : Nat) (reason : Option String) (body : Body)

/-- A failure that a scripted collaborator raises: for all keys or some, always or a number of
times. -/
structure Rule where
  failure : Failure
  keys : Option (List String)
  times : Option Nat

/-- What a visitor answers, and at which profile, counted from one, it fails. -/
structure Visitor where
  answers : List Document
  failure : Option (Nat × Failure)
  visited : List Profile

/-- How many keys a job may have, and whether the workers were stopped. -/
structure Crew where
  jobSize : Int
  stopped : Bool

abbrev KeyProgress := Progress Document Document.Key

/-- All states on the bench. -/
structure World where
  files : Storage.Files
  memories : Dictionary Nat Memory
  pins : Dictionary Nat LocalMap
  hidden : Dictionary Nat Storage.Content
  opened : Dictionary Nat Bool
  idTables : Dictionary Nat (Dictionary PlayerId Profile)
  replies : Dictionary Nat (List Reply)
  questions : Dictionary Nat Nat
  rules : Dictionary Nat (List Rule)
  remotes : Dictionary Nat RemoteSettings
  crews : Dictionary Nat Crew
  progresses : Dictionary Nat KeyProgress
  visitor : Visitor

def World.ofFiles (files : Storage.Files) : World :=
  ⟨files, [], [], [], [], [], [], [], [], [], [], [], ⟨[], none, []⟩⟩

/-- The place on a shelf under a number; what was never put there is as given. -/
def slot {α : Type} (n : Nat) (initial : α) : Cell (Dictionary Nat α) α where
  get d := (d.get? n).getD initial
  set d a := d.set n a
  get_set d a := by simp [Dictionary.get?, Dictionary.set]

def filesShelf : Cell World Storage.Files := ⟨(·.files), fun w a => { w with files := a }, by simp⟩

def memoryShelf : Cell World (Dictionary Nat Memory) :=
  ⟨(·.memories), fun w a => { w with memories := a }, by simp⟩

def pinShelf : Cell World (Dictionary Nat LocalMap) :=
  ⟨(·.pins), fun w a => { w with pins := a }, by simp⟩

def hiddenShelf : Cell World (Dictionary Nat Storage.Content) :=
  ⟨(·.hidden), fun w a => { w with hidden := a }, by simp⟩

def openedShelf : Cell World (Dictionary Nat Bool) :=
  ⟨(·.opened), fun w a => { w with opened := a }, by simp⟩

def idTableShelf : Cell World (Dictionary Nat (Dictionary PlayerId Profile)) :=
  ⟨(·.idTables), fun w a => { w with idTables := a }, by simp⟩

def replyShelf : Cell World (Dictionary Nat (List Reply)) :=
  ⟨(·.replies), fun w a => { w with replies := a }, by simp⟩

def questionShelf : Cell World (Dictionary Nat Nat) :=
  ⟨(·.questions), fun w a => { w with questions := a }, by simp⟩

def ruleShelf : Cell World (Dictionary Nat (List Rule)) :=
  ⟨(·.rules), fun w a => { w with rules := a }, by simp⟩

def remoteShelf : Cell World (Dictionary Nat RemoteSettings) :=
  ⟨(·.remotes), fun w a => { w with remotes := a }, by simp⟩

def crewShelf : Cell World (Dictionary Nat Crew) :=
  ⟨(·.crews), fun w a => { w with crews := a }, by simp⟩

def progressShelf : Cell World (Dictionary Nat KeyProgress) :=
  ⟨(·.progresses), fun w a => { w with progresses := a }, by simp⟩

def visitorCell : Cell World Visitor :=
  ⟨(·.visitor), fun w a => { w with visitor := a }, by simp⟩

def memoryCell (n : Nat) : Cell World Memory := memoryShelf.within (slot n .empty)

def pinCell (n : Nat) : Cell World LocalMap := pinShelf.within (slot n .empty)

def hiddenCell (n : Nat) : Cell World Storage.Content := hiddenShelf.within (slot n (.database []))

def openedCell (n : Nat) : Cell World Bool := openedShelf.within (slot n false)

def idTableCell (n : Nat) : Cell World (Dictionary PlayerId Profile) :=
  idTableShelf.within (slot n [])

/-- The replies that the client with a number has yet to receive. -/
def replyCell (n : Nat) : Cell World (List Reply) := replyShelf.within (slot n [])

def questionCell (n : Nat) : Cell World Nat := questionShelf.within (slot n 0)

def ruleCell (n : Nat) : Cell World (List Rule) := ruleShelf.within (slot n [])

def remoteCell (n : Nat) : Cell World RemoteSettings :=
  remoteShelf.within (slot n ⟨"", "", "", 0, .whole 0, none⟩)

def crewCell (n : Nat) : Cell World Crew := crewShelf.within (slot n ⟨1, false⟩)

def progressCell (n : Nat) : Cell World KeyProgress :=
  progressShelf.within (slot n ⟨[], [], false⟩)

end PlayerLookup.Bench
