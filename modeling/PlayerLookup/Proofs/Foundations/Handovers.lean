import PlayerLookup.Proofs.Foundations.Delivery
import PlayerLookup.Proofs.Foundations.Lookup

/-! The course of a delivery: step by step what it does, and among its steps the profiles that it
hands to the visitor, each with the state that the visitor found and with how the visit went. -/

set_option autoImplicit false

namespace PlayerLookup

variable {σ α β : Type}

theorem Document.stops_iff {d : Document} : d.stops = true ↔ d = .bool false := by
  cases d with
  | bool b => cases b <;> simp [Document.stops]
  | _ => simp [Document.stops]

theorem Document.stops_eq_false {d : Document} (h : d ≠ .bool false) : d.stops = false := by
  rw [← Bool.not_eq_true, stops_iff]
  exact h

/-- A profile in the hands of the visitor: the state that was found, and how the visit went. -/
structure Handover (σ : Type) where
  profile : Profile
  before : σ
  outcome : Run σ Document

/-- What the giver of the profile gets to know. -/
def Handover.exchange (h : Handover σ) : Profile × Except Failure Document :=
  (h.profile, h.outcome.result)

namespace Delivery

/-- A step of a delivery: it looks at the state, does something, or hands a profile over. -/
inductive Step (σ : Type) where
  | looked (s : σ)
  | did (events : List Event) (t : σ)
  | handed (h : Handover σ)

def Step.handover? : Step σ → Option (Handover σ)
  | .handed h => some h
  | _ => none

variable (visitor : Profile → Lookup σ Document)

/-- The steps of a delivery from a state, in order. -/
def steps : Delivery σ α → σ → List (Step σ)
  | .done _, _ => []
  | .read next, s => .looked s :: (next s).steps s
  | .write events t next, _ => .did events t :: next.steps t
  | .give p next, s =>
    let r := (visitor p).run s
    .handed ⟨p, s, r⟩ :: (next r.result).steps r.state

def handovers (d : Delivery σ α) (s : σ) : List (Handover σ) :=
  (d.steps visitor s).filterMap Step.handover?

theorem handovers_give (p : Profile) (next : Except Failure Document → Delivery σ α) (s : σ) :
    (give p next).handovers visitor s =
      ⟨p, s, (visitor p).run s⟩ ::
        (next ((visitor p).run s).result).handovers visitor ((visitor p).run s).state := rfl

theorem run_give_of_visit {p : Profile} {s t : σ} {events : List Event}
    {answer : Except Failure Document} (h : (visitor p).run s = ⟨events, t, answer⟩)
    (next : Except Failure Document → Delivery σ α) :
    ((give p next).run visitor).run s =
      ⟨events ++ (((next answer).run visitor).run t).events,
        (((next answer).run visitor).run t).state,
        (((next answer).run visitor).run t).result⟩ := by
  have hvisit : (visitor p).attempt.run s = ⟨events, t, .ok answer⟩ := by
    rw [Lookup.run_attempt, h]
  rw [run_give, Lookup.run_bind_ok hvisit]

theorem steps_bind (d : Delivery σ α) (f : α → Delivery σ β) (s : σ) :
    (d >>= f).steps visitor s = d.steps visitor s ++
      match ((d.run visitor).run s).result with
      | .ok a => (f a).steps visitor ((d.run visitor).run s).state
      | .error _ => [] := by
  induction d generalizing s with
  | done result => cases result <;> rfl
  | read next ih =>
    rw [read_bind]
    exact congrArg (Step.looked s :: ·) (ih s s)
  | write events t next ih =>
    rw [write_bind]
    exact congrArg (Step.did events t :: ·) (ih t)
  | give p next ih =>
    rw [give_bind]
    exact congrArg (Step.handed ⟨p, s, (visitor p).run s⟩ :: ·) (ih _ _)

theorem handovers_bind_ok {d : Delivery σ α} {s t : σ} {events : List Event} {a : α}
    (h : (d.run visitor).run s = ⟨events, t, .ok a⟩) (f : α → Delivery σ β) :
    (d >>= f).handovers visitor s = d.handovers visitor s ++ (f a).handovers visitor t := by
  rw [handovers, steps_bind, h, List.filterMap_append]
  rfl

theorem handovers_bind_error {d : Delivery σ α} {s t : σ} {events : List Event} {e : Failure}
    (h : (d.run visitor).run s = ⟨events, t, .error e⟩) (f : α → Delivery σ β) :
    (d >>= f).handovers visitor s = d.handovers visitor s := by
  rw [handovers, steps_bind, h, List.append_nil]
  rfl

end Delivery

end PlayerLookup
