import Mathlib.Logic.Relation
import PlayerLookup.Proofs.Remote.Requests

/-! The calls to the remote source. A batch makes the requests for its parts or ids in order; where
profiles are given to a visitor, those of each request are given before the next is made, and there
is no next once the visitor stops. -/

set_option autoImplicit false

namespace PlayerLookup

variable {σ K I : Type}

/-! ## What a visitor does -/

def SeenOf (visitor : Profile → Lookup σ Document) (e : Event) : Prop :=
  ∃ p s, e ∈ ((visitor p).run s).events

def VisitsLead (visitor : Profile → Lookup σ Document) : σ → σ → Prop :=
  Relation.ReflTransGen fun s t => ∃ p, t = ((visitor p).run s).state

/-- The visitor ends the giving at some profile, in some state: by its answer, or by failing. -/
def VisitorEnds (visitor : Profile → Lookup σ Document) : Except Failure Unit → Prop
  | .ok _ => ∃ p s d, ((visitor p).run s).result = .ok d ∧ d.stops = true
  | .error f => ∃ p s, ((visitor p).run s).result = .error f

variable (visitor : Profile → Lookup σ Document)

/-- Nothing is done while profiles are given that the visitor does not do, and they are all given
unless it ends that. -/
theorem giveAll_visits (ps : List Profile) (s : σ) :
    (∀ e ∈ (((Delivery.giveAll ps).run visitor).run s).events, SeenOf visitor e) ∧
      VisitsLead visitor s (((Delivery.giveAll ps).run visitor).run s).state ∧
      ((((Delivery.giveAll ps).run visitor).run s).result = .ok true →
        VisitorEnds visitor (.ok ())) ∧
      ∀ f, (((Delivery.giveAll ps).run visitor).run s).result = .error f →
        VisitorEnds visitor (.error f) := by
  induction ps generalizing s with
  | nil =>
    exact ⟨fun e he => absurd he List.not_mem_nil, .refl, fun h => (nomatch h),
      fun f h => (nomatch h)⟩
  | cons p rest ih =>
    rw [Delivery.giveAll, Delivery.run_bind, Delivery.run_ask]
    rcases hrun : (visitor p).run s with ⟨events, t, result⟩
    have hseen : ∀ e ∈ events, SeenOf visitor e := fun e he => ⟨p, s, by rwa [hrun]⟩
    have hleads : VisitsLead visitor s t := .single ⟨p, by rw [hrun]⟩
    cases result with
    | error f =>
      rw [Lookup.run_bind_error hrun]
      refine ⟨hseen, hleads, fun h => (nomatch h), fun g hg => ⟨p, s, ?_⟩⟩
      rw [hrun, Except.error.inj hg]
    | ok answer =>
      rw [Lookup.run_bind_ok hrun]
      by_cases hstops : answer.stops = true
      · rw [if_pos hstops, Delivery.run_pure, Lookup.run_pure, List.append_nil]
        exact ⟨hseen, hleads, fun _ => ⟨p, s, answer, by rw [hrun], hstops⟩,
          fun f hf => (nomatch hf)⟩
      · obtain ⟨hrest, hlead, hends⟩ := ih t
        rw [if_neg hstops]
        refine ⟨fun e he => ?_, hleads.trans hlead, hends⟩
        rcases List.mem_append.mp he with he | he
        · exact hseen e he
        · exact hrest e he

namespace Remote

variable {r : Remote σ}

/-! ## Batches of which the profiles are given to a visitor -/

/-- What the steps for several items give is given to the visitor, each step's before the next is
made. -/
def handOut (step : I → Lookup σ (List Profile)) : List I → Delivery σ Unit
  | [] => return
  | i :: rest => do
    let found ← Delivery.ofLookup (step i)
    let stopped ← Delivery.giveAll found
    if stopped then return else handOut step rest

theorem handOut_asksFor {requestOf : I → Except Failure Request}
    {step : I → Lookup σ (List Profile)} {items : List I} (h : Steps r requestOf step items)
    (s : σ) :
    AsksFor r (items.map requestOf) (fun e => e.IsLogOf .remoteSource ∨ SeenOf visitor e)
      (VisitsLead visitor) (VisitorEnds visitor) s (((handOut step items).run visitor).run s) := by
  induction items generalizing s with
  | nil => exact asksFor_nothing ()
  | cons i rest ih =>
    rw [List.map_cons, handOut, Delivery.run_bind, Delivery.run_ofLookup]
    cases hrequest : requestOf i with
    | error f =>
      rw [Lookup.run_bind_error (h.fails i List.mem_cons_self f hrequest s)]
      exact asksFor_failed (Or.inl rfl)
    | ok request =>
      refine (h.asks i List.mem_cons_self request hrequest).followed (fun _ he => Or.inl he)
        (fun _ => .refl) (fun found t => ?_) s
      -- Between this request and the next there is only the giving of what was found.
      obtain ⟨hseen, hleads, hstops, hfails⟩ := giveAll_visits visitor found t
      rw [Delivery.run_bind]
      rcases hgiven : ((Delivery.giveAll found).run visitor).run t with ⟨events, u, result⟩
      rw [hgiven] at hseen hleads hstops hfails
      refine ⟨events, u, ?_⟩
      cases result with
      | error f =>
        rw [Lookup.run_bind_error hgiven]
        exact ⟨⟨[], u, .error f⟩, fun e he => Or.inr (hseen e he), hleads,
          asksFor_failed (Or.inr (hfails f rfl)), by rw [List.append_nil]⟩
      | ok stopped =>
        rw [Lookup.run_bind_ok hgiven]
        cases stopped with
        | true =>
          exact ⟨⟨[], u, .ok ()⟩, fun e he => Or.inr (hseen e he), hleads,
            asksFor_stopped (hstops rfl) (), rfl⟩
        | false =>
          exact ⟨_, fun e he => Or.inr (hseen e he), hleads, ih h.tail u, rfl⟩

/-! ## The calls as batches -/

theorem queryBodies_eq (bodies : List (List String)) :
    r.queryBodies bodies = gather r.queryNames bodies := by
  induction bodies with
  | nil => rfl
  | cons names rest ih =>
    rw [queryBodies, ih]
    rfl

theorem visitBodies_eq (bodies : List (List String)) :
    r.visitBodies bodies = handOut r.queryNames bodies := by
  induction bodies with
  | nil => rfl
  | cons names rest ih =>
    rw [visitBodies, ih]
    rfl

theorem collect_eq (one : K → Lookup σ (Option Profile)) (keys : List K) :
    Queries.collect one keys = gather (fun k => do return (← one k).toList) keys := by
  induction keys with
  | nil => rfl
  | cons k rest ih =>
    rw [Queries.collect, gather, ih, bind_assoc]
    simp only [pure_bind]

theorem visitEach_eq (one : K → Lookup σ (Option Profile)) (keys : List K) :
    (Queries.visitEach one keys).run visitor =
      (handOut (fun k => do return (← one k).toList) keys).run visitor := by
  induction keys with
  | nil => rfl
  | cons k rest ih =>
    rw [Queries.visitEach, handOut, Delivery.run_bind, Delivery.run_bind, Delivery.run_ofLookup,
      Delivery.run_ofLookup, bind_assoc]
    congr 1
    funext found
    rw [pure_bind, Delivery.run_bind]
    cases found with
    | none =>
      rw [Option.toList_none, Delivery.giveAll, Delivery.run_pure, pure_bind]
      exact ih
    | some p =>
      change (Delivery.ask p >>= _).run visitor = _
      rw [Option.toList_some, Delivery.giveAll, Delivery.run_bind, Delivery.run_bind,
        Delivery.run_ask, bind_assoc]
      congr 1
      funext answer
      by_cases hstops : answer.stops = true
      · rw [if_pos hstops, if_pos hstops, Delivery.run_pure, Delivery.run_pure, pure_bind]
        rfl
      · rw [if_neg hstops, if_neg hstops, Delivery.giveAll, Delivery.run_pure, pure_bind, ih]
        rfl

/-! ## The requests of the calls -/

/-- The calls for a batch make these requests, each as an exchange of its own, up to the first that
fails or cannot be made; where the profiles are given to a visitor, also only up to where it ends
that. -/
structure AsksInOrder (r : Remote σ) (q : Queries σ K)
    (requests : List K → List (Except Failure Request)) : Prop where
  all : ∀ keys s,
    AsksFor r (requests keys) (·.IsLogOf .remoteSource) Eq (fun _ => False) s ((q.all keys).run s)
  visit : ∀ keys visitor s,
    AsksFor r (requests keys) (fun e => e.IsLogOf .remoteSource ∨ SeenOf visitor e)
      (VisitsLead visitor) (VisitorEnds visitor) s (((q.visit keys).run visitor).run s)

/-- The requests for a batch of names: one for each part of it, without repeats. -/
def nameRequests (r : Remote σ) (names : List String) : List (Except Failure Request) :=
  (bodies names).map fun body => .ok (.profiles r.settings.profilesUrl body)

/-- The requests for a batch of ids: one for each id, without repeats. -/
def idRequests (r : Remote σ) (ids : List PlayerId) : List (Except Failure Request) :=
  (Batch.unique ids).map r.historyRequest

theorem steps_names (names : List String) :
    Steps r (fun body => .ok (.profiles r.settings.profilesUrl body)) r.queryNames
      (bodies names) where
  asks body hbody request hrequest := by
    have hlength := (Batch.length_of_mem_chunks (by decide) hbody).1
    rw [← Except.ok.inj hrequest]
    exact asksOnce_queryNames (List.ne_nil_of_length_pos hlength)
  fails body hbody f hf := by cases hf

theorem steps_ids (ids : List PlayerId) :
    Steps r r.historyRequest (fun id => do return (← r.queryId id).toList)
      (Batch.unique ids) where
  asks id hid request hrequest := (asksOnce_queryId hrequest).map Option.toList
  fails id hid f hf s := by
    rw [Lookup.run_map, queryId_run_error hf s]
    rfl

theorem asksInOrder_names : r.AsksInOrder (Source.remote r).byName r.nameRequests where
  all names s := by
    have hall := (gather_asksFor (steps_names (r := r) names) s).map Profile.distinct
    rw [← queryBodies_eq, ← Lookup.run_map] at hall
    exact hall
  visit names visitor s := by
    have hvisit := handOut_asksFor visitor (steps_names (r := r) names) s
    rw [← visitBodies_eq] at hvisit
    exact hvisit

theorem asksInOrder_ids : r.AsksInOrder (Source.remote r).byId r.idRequests where
  all ids s := by
    have hall := gather_asksFor (steps_ids (r := r) ids) s
    rw [← collect_eq] at hall
    exact hall
  visit ids visitor s := by
    have hvisit := handOut_asksFor visitor (steps_ids (r := r) ids) s
    rw [← visitEach_eq] at hvisit
    exact hvisit

end Remote

end PlayerLookup
