import Mathlib.Order.Monotone.Basic
import PlayerLookup.Proofs.Foundations.Lookup

/-! Calls that take a lock more than once. What a call does while it has the lock is a section of
it, and between two sections others may have the lock. A call that only reads comes to what its
sections see, each of them in the state that the calls before it left. -/

set_option autoImplicit false

namespace PlayerLookup

variable {σ α β γ : Type}

/-- A call by its sections. What is seen of a section, what state it leaves and what the call does
after it depend on the state in which it begins. -/
inductive Sections (σ α : Type) where
  | ended (result : Except Failure α)
  | hold (events : σ → List Event) (after : σ → σ) (next : σ → Sections σ α)

def Run.precededBy (r : Run σ α) (events : List Event) : Run σ α :=
  ⟨events ++ r.events, r.state, r.result⟩

/-- Who has the lock next: the call, or somebody else for a call of another kind. -/
inductive LockTurn (β : Type) where
  | own
  | other (b : β)

namespace Sections

/-! ## Calls without others -/

/-- A lookup that keeps the lock from its start to its end. -/
def ofLookup (m : Lookup σ α) : Sections σ α :=
  .hold (fun s => (m.run s).events) (fun s => (m.run s).state) fun s => .ended (m.run s).result

def bind (call : Sections σ α) (f : α → Sections σ β) : Sections σ β :=
  match call with
  | .ended (.ok a) => f a
  | .ended (.error e) => .ended (.error e)
  | .hold events after next => .hold events after fun s => (next s).bind f

def alone : Sections σ α → Lookup σ α
  | .ended result => Lookup.ofExcept result
  | .hold events after next => fun s => ((next s).alone.run (after s)).precededBy (events s)

theorem alone_ofLookup (m : Lookup σ α) : (ofLookup m).alone = m := by
  funext s
  change Run.mk ((m.run s).events ++ []) _ _ = _
  rw [List.append_nil]
  rfl

theorem alone_bind (call : Sections σ α) (f : α → Sections σ β) :
    (call.bind f).alone = call.alone >>= fun a => (f a).alone := by
  induction call with
  | ended result =>
    cases result with
    | ok a => exact (Lookup.done_andThen a fun a => (f a).alone).symm
    | error e => rfl
  | hold events after next ih =>
    funext s
    rcases hrun : (next s).alone.run (after s) with ⟨more, t, result⟩
    have hall : (hold events after next).alone.run s = ⟨events s ++ more, t, result⟩ := by
      change ((next s).alone.run (after s)).precededBy (events s) = _
      rw [hrun]
      rfl
    change (((next s).bind f).alone.run (after s)).precededBy (events s) =
      ((hold events after next).alone >>= fun a => (f a).alone).run s
    rw [ih]
    cases result with
    | ok a =>
      rw [Lookup.run_bind_ok hrun, Lookup.run_bind_ok hall, List.append_assoc]
      rfl
    | error e =>
      rw [Lookup.run_bind_error hrun, Lookup.run_bind_error hall]
      rfl

/-! ## Calls that read -/

/-- No section of the call changes the state. -/
def Reads : Sections σ α → Prop
  | .ended _ => True
  | .hold _ after next => ∀ s, after s = s ∧ (next s).Reads

/-- What the call comes to if its sections begin in these states, one after the other. -/
def seen : Sections σ α → (Nat → σ) → Except Failure α
  | .ended result, _ => result
  | .hold _ _ next, states => (next (states 0)).seen fun i => states (i + 1)

theorem reads_ofLookup {m : Lookup σ α} (h : ∀ s, (m.run s).state = s) : (ofLookup m).Reads :=
  fun s => ⟨h s, trivial⟩

theorem Reads.bind {call : Sections σ α} (h : call.Reads) {f : α → Sections σ β}
    (hf : ∀ a, (f a).Reads) : (call.bind f).Reads := by
  induction call with
  | ended result =>
    cases result with
    | ok a => exact hf a
    | error e => trivial
  | hold events after next ih => exact fun s => ⟨(h s).1, ih s (h s).2⟩

theorem seen_ofLookup_bind (m : Lookup σ α) (f : α → Sections σ β) (states : Nat → σ) :
    ((ofLookup m).bind f).seen states =
      (m.run (states 0)).result.bind fun a => (f a).seen fun i => states (i + 1) := by
  change (Sections.bind (.ended (m.run (states 0)).result) f).seen _ = _
  cases (m.run (states 0)).result <;> rfl

theorem seen_bind {call : Sections σ α} {f : α → Sections σ β} (g : α → Except Failure β)
    (h : ∀ a states, (f a).seen states = g a) (states : Nat → σ) :
    (call.bind f).seen states = (call.seen states).bind g := by
  induction call generalizing states with
  | ended result =>
    cases result with
    | ok a => exact h a states
    | error e => rfl
  | hold events after next ih => exact ih (states 0) _

theorem Reads.result_alone {call : Sections σ α} (h : call.Reads) (s : σ) :
    (call.alone.run s).result = call.seen fun _ => s := by
  induction call with
  | ended result => rfl
  | hold events after next ih =>
    change ((next s).alone.run (after s)).result = (next s).seen _
    rw [(h s).1]
    exact ih s (h s).2

/-! ## Calls amid others -/

variable (other : β → Lookup σ Unit)

/-- The call when the lock goes round as told. Somebody else's turn is a whole call of theirs,
however it ends; a turn of its own is one section. When all turns are over the call goes on alone.
-/
def amid : List (LockTurn β) → Sections σ α → Lookup σ α
  | [], call => call.alone
  | .other b :: turns, call => do
    let _ ← (other b).attempt
    amid turns call
  | .own :: turns, .ended result => amid turns (.ended result)
  | .own :: turns, .hold events after next => fun s =>
    ((amid turns (next s)).run (after s)).precededBy (events s)

end Sections

namespace LockTurn

def others (turns : List (LockTurn β)) : List β :=
  turns.filterMap fun turn =>
    match turn with
    | .own => none
    | .other b => some b

/-- How many calls of others come before each section of the call. -/
def moments : List (LockTurn β) → Nat → Nat
  | [], _ => 0
  | .other _ :: turns, i => moments turns i + 1
  | .own :: _, 0 => 0
  | .own :: turns, i + 1 => moments turns i

theorem moments_mono (turns : List (LockTurn β)) : Monotone (moments turns) := by
  refine monotone_nat_of_le_succ fun i => ?_
  induction turns generalizing i with
  | nil => exact Nat.le_refl 0
  | cons turn rest ih =>
    cases turn with
    | other b => exact Nat.succ_le_succ (ih i)
    | own =>
      cases i with
      | zero => exact Nat.zero_le _
      | succ i => exact ih i

/-- The state after calls of others, however they ended. -/
def stateAfter (other : β → Lookup σ Unit) (s : σ) (bs : List β) : σ :=
  bs.foldl (fun t b => ((other b).run t).state) s

/-- The state in which each section of the call begins, if that changes nothing. -/
def stateAt (other : β → Lookup σ Unit) (s : σ) (turns : List (LockTurn β)) (i : Nat) : σ :=
  stateAfter other s ((others turns).take (moments turns i))

end LockTurn

namespace Sections

variable {other : β → Lookup σ Unit}

/-- A call that reads comes to what its sections see, each after the calls of others that come
before it. -/
theorem Reads.result_amid {call : Sections σ α} (h : call.Reads) (turns : List (LockTurn β))
    (s : σ) :
    ((call.amid other turns).run s).result = call.seen (LockTurn.stateAt other s turns) := by
  induction turns generalizing call s with
  | nil => exact h.result_alone s
  | cons turn rest ih =>
    cases turn with
    | other b =>
      have hattempt := Lookup.run_attempt (other b) s
      rw [amid, Lookup.run_bind_ok hattempt]
      exact ih h _
    | own =>
      cases call with
      | ended result =>
        have hended : (ended result : Sections σ α).Reads := trivial
        exact ih hended s
      | hold events after next =>
        change ((amid other rest (next s)).run (after s)).result = (next s).seen _
        rw [(h s).1]
        exact ih (h s).2 s

/-- The call amid the others comes to what the lookup comes to at one moment between their calls. -/
def OneMoment (other : β → Lookup σ Unit) (turns : List (LockTurn β)) (s : σ) (call : Sections σ α)
    (m : Lookup σ α) : Prop :=
  ∃ before after, LockTurn.others turns = before ++ after ∧
    ((call.amid other turns).run s).result = (m.run (LockTurn.stateAfter other s before)).result

/-- A call that reads sees one moment if it might as well have begun all sections with the first. -/
theorem Reads.oneMoment {call : Sections σ α} (h : call.Reads) (turns : List (LockTurn β)) (s : σ)
    (hfirst : call.seen (LockTurn.stateAt other s turns) =
      call.seen fun _ => LockTurn.stateAt other s turns 0) :
    OneMoment other turns s call call.alone := by
  have hsplit := List.take_append_drop (LockTurn.moments turns 0) (LockTurn.others turns)
  refine ⟨_, _, hsplit.symm, ?_⟩
  rw [h.result_amid, hfirst, h.result_alone]
  rfl

end Sections

end PlayerLookup
