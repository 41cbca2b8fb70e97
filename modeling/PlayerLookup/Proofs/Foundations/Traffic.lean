import Mathlib.Data.List.Basic
import PlayerLookup.Proofs.Foundations.Fixed

/-! What is seen of the remote service in the course of a lookup: the requests to it, and the pauses
between attempts at them. A lookup of which nothing such is seen is quiet, and adds nothing to the
traffic of what it is part of. -/

set_option autoImplicit false

namespace PlayerLookup

def requestsOf (events : List Event) : List Request :=
  events.filterMap fun e =>
    match e with
    | .request r _ => some r
    | _ => none

def Event.isPause : Event → Bool
  | .pause _ | .wait _ => true
  | _ => false

def Event.isTraffic : Event → Bool
  | .request .. => true
  | e => e.isPause

def traffic (events : List Event) : List Event := events.filter Event.isTraffic

theorem traffic_append (es fs : List Event) : traffic (es ++ fs) = traffic es ++ traffic fs :=
  List.filter_append es fs

theorem traffic_flatMap {α : Type} (items : List α) (f : α → List Event) :
    traffic (items.flatMap f) = items.flatMap fun a => traffic (f a) := by
  rw [traffic, List.filter_flatMap]
  rfl

theorem traffic_log (record : LogRecord) (es : List Event) :
    traffic (.log record :: es) = traffic es := rfl

theorem traffic_request (r : Request) (timeout : Option Amount) (es : List Event) :
    traffic (.request r timeout :: es) = .request r timeout :: traffic es := rfl

theorem traffic_of_logs {component : Component} {es : List Event}
    (h : ∀ e ∈ es, e.IsLogOf component) : traffic es = [] := by
  rw [traffic, List.filter_eq_nil_iff]
  intro e he
  obtain ⟨record, rfl, -⟩ := h e he
  exact Bool.false_ne_true

theorem requestsOf_append (es fs : List Event) :
    requestsOf (es ++ fs) = requestsOf es ++ requestsOf fs := List.filterMap_append

theorem requestsOf_flatMap {α : Type} (items : List α) (f : α → List Event) :
    requestsOf (items.flatMap f) = items.flatMap fun a => requestsOf (f a) := by
  rw [requestsOf, List.filterMap_flatMap]
  rfl

theorem requestsOf_traffic (es : List Event) : requestsOf (traffic es) = requestsOf es := by
  rw [requestsOf, traffic, List.filterMap_filter]
  refine List.filterMap_congr fun e _ => ?_
  cases e <;> rfl

theorem requestsOf_of_logs {component : Component} {es : List Event}
    (h : ∀ e ∈ es, e.IsLogOf component) : requestsOf es = [] := by
  rw [← requestsOf_traffic, traffic_of_logs h]
  rfl

theorem isPause_of_traffic {es : List Event} (h : ∀ e ∈ traffic es, e.isPause = false) :
    ∀ e ∈ es, e.isPause = false := by
  intro e he
  cases hpause : e.isPause with
  | false => rfl
  | true =>
    have htraffic : e.isTraffic = true := by cases e <;> first | rfl | exact hpause
    rw [← hpause]
    exact h e (List.mem_filter.mpr ⟨he, htraffic⟩)

namespace Lookup

variable {σ α β : Type} {m : Lookup σ α}

/-- Neither a request nor a pause is seen of the lookup. -/
def Quiet (m : Lookup σ α) : Prop := ∀ s, traffic (m.run s).events = []

theorem Quiet.requestsOf (hm : m.Quiet) (s : σ) : requestsOf (m.run s).events = [] := by
  rw [← requestsOf_traffic, hm s]
  rfl

theorem quiet_pure (a : α) : (pure a : Lookup σ α).Quiet := fun _ => rfl

theorem quiet_fail (f : Failure) : (fail f : Lookup σ α).Quiet := fun _ => rfl

theorem quiet_ofExcept (r : Except Failure α) : (ofExcept r : Lookup σ α).Quiet := fun _ => rfl

theorem quiet_log (level : LogLevel) (component : Component) (message : String)
    (attached : Option Failure) : (log level component message attached : Lookup σ Unit).Quiet :=
  fun _ => rfl

theorem quiet_read (c : Cell σ α) : c.read.Quiet := fun _ => rfl

theorem quiet_write (c : Cell σ α) (a : α) : (c.write a).Quiet := fun _ => rfl

theorem traffic_bind_of_quiet {f : α → Lookup σ β} (hf : ∀ a, (f a).Quiet) (s : σ) :
    traffic ((m >>= f).run s).events = traffic (m.run s).events := by
  rcases hrun : m.run s with ⟨events, t, result⟩
  cases result with
  | error e => rw [run_bind_error hrun]
  | ok a =>
    rw [run_bind_ok hrun, traffic_append, hf a t]
    exact List.append_nil _

theorem Quiet.bind (hm : m.Quiet) {f : α → Lookup σ β} (hf : ∀ a, (f a).Quiet) :
    (m >>= f).Quiet := fun s => (traffic_bind_of_quiet hf s).trans (hm s)

theorem Quiet.attempt (hm : m.Quiet) : m.attempt.Quiet := hm

theorem Quiet.rescue (hm : m.Quiet) {handle : Failure → Lookup σ α}
    (hhandle : ∀ f, (handle f).Quiet) : (m.rescue handle).Quiet := by
  refine hm.attempt.bind fun result => ?_
  cases result with
  | ok a => exact quiet_pure a
  | error f =>
    by_cases hf : f.isOrdinary = true
    · simp only [hf, if_true]
      exact hhandle f
    · simp only [hf]
      exact quiet_fail f

end Lookup

end PlayerLookup
