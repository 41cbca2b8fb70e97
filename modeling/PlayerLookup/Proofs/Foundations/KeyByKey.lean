import PlayerLookup.Proofs.Foundations.Streaming

/-! Keys asked for one by one. Each is asked from the state that was left before it, and a profile
that is found goes to the visitor before the next key is asked for. What the answers are is left
open, and so is what they and the visits make of the state. -/

set_option autoImplicit false

namespace PlayerLookup

variable {σ K : Type}

/-- Keys were asked for in turn, and this was handed over. It ends with the last key, or with
the first visit that stops it or fails. -/
inductive KeyByKey (answered : K → σ → σ → Option Profile → Prop)
    (visitor : Profile → Lookup σ Document) :
    List K → σ → List (Handover σ) → σ → Except Failure Unit → Prop where
  | nil (s : σ) : KeyByKey answered visitor [] s [] s (.ok ())
  | unknown {k : K} {rest : List K} {s t u : σ} {given : List (Handover σ)}
      {result : Except Failure Unit} (answer : answered k s t none)
      (others : KeyByKey answered visitor rest t given u result) :
      KeyByKey answered visitor (k :: rest) s given u result
  | goesOn {k : K} {rest : List K} {s t u v : σ} {p : Profile} {events : List Event}
      {reply : Document} {given : List (Handover σ)} {result : Except Failure Unit}
      (answer : answered k s t (some p)) (visit : (visitor p).run t = ⟨events, u, .ok reply⟩)
      (goes : reply.stops = false) (others : KeyByKey answered visitor rest u given v result) :
      KeyByKey answered visitor (k :: rest) s (⟨p, t, ⟨events, u, .ok reply⟩⟩ :: given) v result
  | stopped {k : K} {rest : List K} {s t u : σ} {p : Profile} {events : List Event}
      {reply : Document} (answer : answered k s t (some p))
      (visit : (visitor p).run t = ⟨events, u, .ok reply⟩) (stops : reply.stops = true) :
      KeyByKey answered visitor (k :: rest) s [⟨p, t, ⟨events, u, .ok reply⟩⟩] u (.ok ())
  | failed {k : K} {rest : List K} {s t u : σ} {p : Profile} {events : List Event} {f : Failure}
      (answer : answered k s t (some p)) (visit : (visitor p).run t = ⟨events, u, .error f⟩) :
      KeyByKey answered visitor (k :: rest) s [⟨p, t, ⟨events, u, .error f⟩⟩] u (.error f)

/-- A visitor that takes note of the profiles and does nothing else. -/
def listening : Profile → Lookup σ Document := fun _ => pure .null

namespace Queries

variable {answered : K → σ → σ → Option Profile → Prop} {one : K → Lookup σ (Option Profile)}

/-- From every state the key is answered. -/
def Settles (answered : K → σ → σ → Option Profile → Prop) (one : K → Lookup σ (Option Profile))
    (k : K) : Prop :=
  ∀ s, ∃ t found, (one k).Yields s t found ∧ answered k s t found

theorem keyByKey_collect {keys : List K} (h : ∀ k ∈ keys, Settles answered one k) (s : σ) :
    ∃ t given, (collect one keys).Yields s t (given.map (·.profile)) ∧
      KeyByKey answered listening keys s given t (.ok ()) := by
  induction keys generalizing s with
  | nil => exact ⟨s, [], Lookup.yields_pure [] s, .nil s⟩
  | cons k rest ih =>
    obtain ⟨t, found, hone, hanswer⟩ := h k List.mem_cons_self s
    obtain ⟨u, given, hrest, hothers⟩ := ih (fun l hl => h l (List.mem_cons_of_mem k hl)) t
    have hall : (collect one (k :: rest)).Yields s u
        (found.toList ++ given.map (·.profile)) :=
      hone.bind (hrest.bind (Lookup.yields_pure _ u))
    cases found with
    | none => exact ⟨u, given, hall, .unknown hanswer hothers⟩
    | some p =>
      have hvisit : (listening p).run t = ⟨[], t, .ok .null⟩ := rfl
      exact ⟨u, ⟨p, t, _⟩ :: given, hall, .goesOn hanswer hvisit rfl hothers⟩

theorem keyByKey_visitEach {keys : List K} (h : ∀ k ∈ keys, Settles answered one k)
    (visitor : Profile → Lookup σ Document) (s : σ) :
    ∃ t given result events,
      ((visitEach one keys).run visitor).run s = ⟨events, t, result⟩ ∧
      (visitEach one keys).handovers visitor s = given ∧
      KeyByKey answered visitor keys s given t result := by
  induction keys generalizing s with
  | nil => exact ⟨s, [], .ok (), [], rfl, rfl, .nil s⟩
  | cons k rest ih =>
    have hrest := ih fun l hl => h l (List.mem_cons_of_mem k hl)
    obtain ⟨t, found, ⟨asking, hone⟩, hanswer⟩ := h k List.mem_cons_self s
    have hask : ((Delivery.ofLookup (one k)).run visitor).run s = ⟨asking, t, .ok found⟩ := by
      rw [Delivery.run_ofLookup, hone]
    rw [visitEach, Delivery.run_bind, Lookup.run_bind_ok hask,
      Delivery.handovers_bind_ok visitor hask]
    cases found with
    | none =>
      obtain ⟨u, given, result, events, hrun, hgiven, hothers⟩ := hrest t
      dsimp only
      rw [hrun]
      exact ⟨u, given, result, _, rfl, hgiven, .unknown hanswer hothers⟩
    | some p =>
      dsimp only
      rcases hvisit : (visitor p).run t with ⟨visiting, u, reply⟩
      have hgive : ((Delivery.ask p).run visitor).run t = ⟨visiting, u, reply⟩ := by
        rw [Delivery.run_ask, hvisit]
      have hhanded : (Delivery.ask p : Delivery σ Document).handovers visitor t =
          [⟨p, t, ⟨visiting, u, reply⟩⟩] := by
        rw [Delivery.ask, Delivery.handovers_give, hvisit]
        rfl
      cases reply with
      | error f =>
        rw [Delivery.run_bind, Lookup.run_bind_error hgive,
          Delivery.handovers_bind_error visitor hgive, hhanded]
        exact ⟨u, _, .error f, _, rfl, rfl, .failed hanswer hvisit⟩
      | ok reply =>
        rw [Delivery.run_bind, Lookup.run_bind_ok hgive,
          Delivery.handovers_bind_ok visitor hgive, hhanded]
        cases hstops : reply.stops with
        | true =>
          simp only [if_true]
          exact ⟨u, _, .ok (), _, rfl, rfl, .stopped hanswer hvisit hstops⟩
        | false =>
          obtain ⟨v, given, result, events, hrun, hgiven, hothers⟩ := hrest u
          simp only [Bool.false_eq_true, if_false]
          rw [hrun, hgiven]
          exact ⟨v, _, result, _, rfl, rfl, .goesOn hanswer hvisit hstops hothers⟩

/-! ## How keys asked for one by one fail -/

variable {P : Failure → Prop}

theorem failsOnly_collect {keys : List K} (h : ∀ k ∈ keys, (one k).FailsOnly P) :
    (collect one keys).FailsOnly P := by
  induction keys with
  | nil => exact Lookup.failsOnly_pure []
  | cons k rest ih =>
    exact (h k List.mem_cons_self).bind fun found =>
      (ih fun l hl => h l (List.mem_cons_of_mem k hl)).bind fun more => Lookup.failsOnly_pure _

theorem failsOnly_visitEach {keys : List K} {visitor : Profile → Lookup σ Document}
    (h : ∀ k ∈ keys, (one k).FailsOnly P) (hvisitor : ∀ p, (visitor p).FailsOnly P) :
    ((visitEach one keys).run visitor).FailsOnly P := by
  induction keys with
  | nil => exact Lookup.failsOnly_pure ()
  | cons k rest ih =>
    have hrest := ih fun l hl => h l (List.mem_cons_of_mem k hl)
    rw [visitEach, Delivery.run_bind, Delivery.run_ofLookup]
    refine (h k List.mem_cons_self).bind fun found => ?_
    cases found with
    | none => exact hrest
    | some p =>
      rw [Delivery.run_bind, Delivery.run_ask]
      refine (hvisitor p).bind fun reply => ?_
      cases reply.stops with
      | true => exact Lookup.failsOnly_pure ()
      | false => exact hrest

end Queries

end PlayerLookup
