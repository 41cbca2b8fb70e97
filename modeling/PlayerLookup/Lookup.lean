import PlayerLookup.Event

/-! Lookups: steps that read and change a state, do things that can be seen, and end with a result
or a failure. A failure ends the steps after it; the state and the events up to it remain. -/

set_option autoImplicit false

namespace PlayerLookup

variable {σ α β : Type}

/-- How a lookup went: what it did, the state it left, and what came of it. -/
structure Run (σ α : Type) where
  events : List Event
  state : σ
  result : Except Failure α

/-- A lookup, by how it goes from each state. -/
def Lookup (σ α : Type) : Type := σ → Run σ α

namespace Lookup

def run (m : Lookup σ α) (s : σ) : Run σ α := m s

def done (a : α) : Lookup σ α := fun s => ⟨[], s, .ok a⟩

def andThen (m : Lookup σ α) (next : α → Lookup σ β) : Lookup σ β := fun s =>
  match m s with
  | ⟨events, t, .ok a⟩ =>
    let r := next a t
    ⟨events ++ r.events, r.state, r.result⟩
  | ⟨events, t, .error f⟩ => ⟨events, t, .error f⟩

instance : Monad (Lookup σ) where
  pure := done
  bind := andThen

def fail (f : Failure) : Lookup σ α := fun s => ⟨[], s, .error f⟩

def ofExcept (r : Except Failure α) : Lookup σ α := fun s => ⟨[], s, r⟩

def attempt (m : Lookup σ α) : Lookup σ (Except Failure α) := fun s =>
  let r := m s
  ⟨r.events, r.state, .ok r.result⟩

def rescue (m : Lookup σ α) (handle : Failure → Lookup σ α) : Lookup σ α := do
  match ← m.attempt with
  | .ok a => done a
  | .error f => if f.isOrdinary then handle f else fail f

def emit (e : Event) : Lookup σ Unit := fun s => ⟨[e], s, .ok ()⟩

def log (level : LogLevel) (component : Component) (message : String)
    (attached : Option Failure) : Lookup σ Unit :=
  emit (.log ⟨level, component, message, attached⟩)

def read (f : σ → α) : Lookup σ α := fun s => ⟨[], s, .ok (f s)⟩

def modify (f : σ → σ) : Lookup σ Unit := fun s => ⟨[], f s, .ok ()⟩

theorem andThen_done (m : Lookup σ α) : m.andThen done = m := by
  funext s
  rcases h : m s with ⟨events, t, result⟩
  cases result <;> simp [andThen, done, h]

theorem done_andThen (a : α) (next : α → Lookup σ β) : (done a).andThen next = next a := by
  funext s
  simp [andThen, done]

theorem andThen_assoc {γ : Type} (m : Lookup σ α) (f : α → Lookup σ β) (g : β → Lookup σ γ) :
    (m.andThen f).andThen g = m.andThen fun a => (f a).andThen g := by
  funext s
  rcases h : m s with ⟨events, t, result⟩
  cases result with
  | error e => simp [andThen, h]
  | ok a =>
    rcases h' : f a t with ⟨events', t', result'⟩
    cases result' <;> simp [andThen, h, h', List.append_assoc]

instance : LawfulMonad (Lookup σ) :=
  LawfulMonad.mk' (Lookup σ) andThen_done done_andThen andThen_assoc

/-- Runs a lookup for each item in turn and gives what they gave, in order. -/
def forEach (items : List α) (f : α → Lookup σ β) : Lookup σ (List β) :=
  match items with
  | [] => done []
  | a :: rest => do
    let b ← f a
    let bs ← forEach rest f
    done (b :: bs)

end Lookup

end PlayerLookup
