import PlayerLookup.Proofs.Foundations.Batch
import PlayerLookup.Proofs.Foundations.Delivery
import PlayerLookup.Proofs.Remote.Attempts
import PlayerLookup.Remote.Client

/-! The requests of a call to the remote source. They are made in order, each as an exchange of its
own with all attempts and the first delay; an exchange that fails is the last and is the failure of
the call. -/

set_option autoImplicit false

namespace PlayerLookup

variable {σ α β I : Type}

/-- What is asked for in a request, as it is called in the log. -/
def Request.service : Request → String
  | .profiles .. => "profile lookup service"
  | .history _ => "name history service"

/-! ## Requests in order -/

/-- A request that was made: what was seen before its exchange and after it, how the exchange went,
and the state after all this. -/
structure Asked (σ : Type) where
  request : Request
  lead : List Event
  outcome : Run σ Document
  trail : List Event
  left : σ

def Asked.leftBy (s : σ) (asked : List (Asked σ)) : σ := asked.foldl (fun _ a => a.left) s

theorem Asked.leftBy_cons (s : σ) (a : Asked σ) (asked : List (Asked σ)) :
    leftBy s (a :: asked) = leftBy a.left asked := rfl

/-- Requests were made in the given order, as far as they could be made out. Each had an exchange of
its own, from the state that what came before it left; after one that failed there was no other, and
the whole failed with it. Apart from the exchanges only events of the given kind were seen, and only
steps of the given kind were made. -/
structure AskedInOrder (r : Remote σ) (requests : List (Except Failure Request))
    (own : Event → Prop) (moves : σ → σ → Prop) (s : σ) (run : Run σ α) (asked : List (Asked σ)) :
    Prop where
  in_order : (asked.map fun a => .ok a.request) <+: requests
  afresh : ∀ before a after, asked = before ++ a :: after →
    a.outcome = (r.exchange a.request a.request.service).run (Asked.leftBy s before) ∧
      moves a.outcome.state a.left
  last_of_failure : ∀ before a after f, asked = before ++ a :: after →
    a.outcome.result = .error f → after = [] ∧ run.result = .error f
  events_eq : run.events = asked.flatMap fun a => a.lead ++ a.outcome.events ++ a.trail
  apart : ∀ a ∈ asked, ∀ e ∈ a.lead ++ a.trail, own e
  state_eq : run.state = Asked.leftBy s asked

variable {r : Remote σ} {requests : List (Except Failure Request)} {own : Event → Prop}
  {moves : σ → σ → Prop} {s : σ}

theorem askedInOrder_nil {run : Run σ α} (hevents : run.events = []) (hstate : run.state = s) :
    AskedInOrder r requests own moves s run [] where
  in_order := List.nil_prefix
  afresh before a after h := by simp at h
  last_of_failure before a after f h := by simp at h
  events_eq := hevents
  apart a ha := by simp at ha
  state_eq := hstate

theorem AskedInOrder.cons {run : Run σ α} {rest : Run σ β} {asked : List (Asked σ)} {a : Asked σ}
    (h : AskedInOrder r requests own moves a.left rest asked)
    (houtcome : a.outcome = (r.exchange a.request a.request.service).run s)
    (hmoves : moves a.outcome.state a.left) (hown : ∀ e ∈ a.lead ++ a.trail, own e)
    (hlast : ∀ f, a.outcome.result = .error f → asked = [] ∧ run.result = .error f)
    (hevents : run.events = a.lead ++ a.outcome.events ++ a.trail ++ rest.events)
    (hstate : run.state = rest.state)
    (hfailed : ∀ f, rest.result = .error f → run.result = .error f) :
    AskedInOrder r (.ok a.request :: requests) own moves s run (a :: asked) where
  in_order := by
    rw [List.map_cons]
    exact (List.prefix_cons_inj _).mpr h.in_order
  afresh before b after hsplit := by
    obtain ⟨rfl, hcons⟩ | ⟨before, rfl, hrest⟩ := List.cons_eq_append_iff.mp hsplit
    · obtain ⟨rfl, rfl⟩ := List.cons.inj hcons
      exact ⟨houtcome, hmoves⟩
    · rw [Asked.leftBy_cons]
      exact h.afresh before b after hrest
  last_of_failure before b after f hsplit hf := by
    obtain ⟨rfl, hcons⟩ | ⟨before, rfl, hrest⟩ := List.cons_eq_append_iff.mp hsplit
    · obtain ⟨rfl, rfl⟩ := List.cons.inj hcons
      exact hlast f hf
    · obtain ⟨hnil, hresult⟩ := h.last_of_failure before b after f hrest hf
      exact ⟨hnil, hfailed f hresult⟩
  events_eq := by rw [hevents, h.events_eq, List.flatMap_cons]
  apart b hb := by
    rcases List.mem_cons.mp hb with rfl | hb
    · exact hown
    · exact h.apart b hb
  state_eq := by rw [hstate, h.state_eq, Asked.leftBy_cons]

/-- Why there was no other request: all had been made, or one had failed, or the next could not be
made, or something else ended the whole. -/
structure AskedToEnd (requests : List (Except Failure Request)) (ends : Except Failure Unit → Prop)
    (result : Except Failure α) (asked : List (Asked σ)) : Prop where
  of_ok : ∀ a, result = .ok a → (asked.map fun b => .ok b.request) = requests ∨ ends (.ok ())
  of_error : ∀ f, result = .error f →
    (∃ before a, asked = before ++ [a] ∧ a.outcome.result = .error f) ∨
      requests[asked.length]? = some (.error f) ∨ ends (.error f)

/-- A run makes requests in order, as far as it comes. -/
def AsksFor (r : Remote σ) (requests : List (Except Failure Request)) (own : Event → Prop)
    (moves : σ → σ → Prop) (ends : Except Failure Unit → Prop) (s : σ) (run : Run σ α) : Prop :=
  ∃ asked, AskedInOrder r requests own moves s run asked ∧
    AskedToEnd requests ends run.result asked

variable {ends : Except Failure Unit → Prop}

theorem asksFor_failed {f : Failure} (h : requests[0]? = some (.error f) ∨ ends (.error f)) :
    AsksFor r requests own moves ends s (⟨[], s, .error f⟩ : Run σ α) := by
  refine ⟨[], askedInOrder_nil rfl rfl, fun _ h => (nomatch h), fun g hg => Or.inr ?_⟩
  rw [← Except.error.inj hg]
  exact h

theorem asksFor_stopped (h : ends (.ok ())) (a : α) :
    AsksFor r requests own moves ends s ⟨[], s, .ok a⟩ :=
  ⟨[], askedInOrder_nil rfl rfl, fun _ _ => Or.inr h, fun _ hf => (nomatch hf)⟩

theorem asksFor_nothing (a : α) : AsksFor r [] own moves ends s ⟨[], s, .ok a⟩ :=
  ⟨[], askedInOrder_nil rfl rfl, fun _ _ => Or.inl rfl, fun _ hf => (nomatch hf)⟩

theorem AsksFor.map {run : Run σ α} (h : AsksFor r requests own moves ends s run) (f : α → β) :
    AsksFor r requests own moves ends s ⟨run.events, run.state, run.result.map f⟩ := by
  obtain ⟨asked, hasked, hend⟩ := h
  refine ⟨asked, ⟨hasked.in_order, hasked.afresh, ?_, hasked.events_eq, hasked.apart,
    hasked.state_eq⟩, ?_⟩
  · intro before a after g hsplit hg
    obtain ⟨hnil, hresult⟩ := hasked.last_of_failure before a after g hsplit hg
    exact ⟨hnil, congrArg (Except.map f) hresult⟩
  · obtain ⟨events, t, result⟩ := run
    cases result with
    | error g =>
      exact ⟨fun _ hb => (nomatch hb), fun g' hg => hend.of_error g'
        (congrArg Except.error (Except.error.inj hg))⟩
    | ok a => exact ⟨fun _ _ => hend.of_ok a rfl, fun _ hg => (nomatch hg)⟩

/-! ## Steps of a call -/

namespace Remote

/-- How a step goes that makes one request: it logs before and after the exchange, and fails just if
the exchange does. -/
structure AsksOnceFrom (r : Remote σ) (request : Request) (m : Lookup σ α) (s : σ)
    (lead trail : List Event) : Prop where
  logs : ∀ e ∈ lead ++ trail, e.IsLogOf .remoteSource
  events_eq : (m.run s).events =
    lead ++ ((r.exchange request request.service).run s).events ++ trail
  state_eq : (m.run s).state = ((r.exchange request request.service).run s).state
  failed : ∀ f, ((r.exchange request request.service).run s).result = .error f →
    (m.run s).result = .error f
  answered : ∀ d, ((r.exchange request request.service).run s).result = .ok d →
    ∃ a, (m.run s).result = .ok a

def AsksOnce (r : Remote σ) (request : Request) (m : Lookup σ α) : Prop :=
  ∀ s, ∃ lead trail, r.AsksOnceFrom request m s lead trail

theorem asksOnce {request : Request} {message : String} {rest : Document → Lookup σ α}
    (hrest : ∀ d, (rest d).Logs .remoteSource) :
    r.AsksOnce request (do
      logRequest message
      let d ← r.exchange request request.service
      rest d) := by
  intro s
  let first : Event := .log ⟨.trace, .remoteSource, message, none⟩
  have hlog : (logRequest message : Lookup σ Unit).run s = ⟨[first], s, .ok ()⟩ := rfl
  have hfirst : first.IsLogOf .remoteSource := ⟨_, rfl, rfl⟩
  have hrun := Lookup.run_bind_ok hlog fun _ => r.exchange request request.service >>= rest
  rcases hexchange : (r.exchange request request.service).run s with ⟨events, t, result⟩
  cases result with
  | error f =>
    rw [Lookup.run_bind_error hexchange] at hrun
    refine ⟨[first], [], ?_, ?_, ?_, ?_, ?_⟩
    · simpa using hfirst
    · rw [hrun, hexchange, List.append_nil]
    · rw [hrun, hexchange]
    · intro g hg
      rw [hexchange] at hg
      rw [hrun, Except.error.inj hg]
    · intro d hd
      rw [hexchange] at hd
      cases hd
  | ok d =>
    rw [Lookup.run_bind_ok hexchange] at hrun
    obtain ⟨⟨hstate, hevents⟩, a, ha⟩ := hrest d t
    refine ⟨[first], ((rest d).run t).events, ?_, ?_, ?_, ?_, ?_⟩
    · intro e he
      rcases List.mem_cons.mp he with rfl | he
      · exact hfirst
      · exact hevents e he
    · rw [hrun, hexchange, List.append_assoc]
    · rw [hrun, hexchange]
      exact hstate
    · intro g hg
      rw [hexchange] at hg
      cases hg
    · intro _ _
      rw [hrun]
      exact ⟨a, ha⟩

theorem logs_usable? (found : Except Unusable Profile) :
    (usable? found : Lookup σ (Option Profile)).Logs .remoteSource := by
  cases found with
  | ok p => exact Lookup.logs_pure _ _
  | error u => exact (Lookup.logs_log _ _ _ _).bind fun _ => Lookup.logs_pure _ _

theorem logs_decodeProfiles (entries : List Document) :
    (decodeProfiles entries : Lookup σ (List Profile)).Logs .remoteSource :=
  (Lookup.Logs.forEach fun _ => logs_usable? _).bind fun _ => Lookup.logs_pure _ _

theorem logs_decodeHistory (id : PlayerId) (history : Document) :
    (decodeHistory id history : Lookup σ (Option Profile)).Logs .remoteSource := by
  cases history with
  | list items =>
    exact (Lookup.Logs.forEach fun _ => logs_usable? _).bind fun _ => Lookup.logs_pure _ _
  | _ => exact (Lookup.logs_log _ _ _ _).bind fun _ => Lookup.logs_pure _ _

theorem asksOnce_queryNames {names : List String} (h : names ≠ []) :
    r.AsksOnce (.profiles r.settings.profilesUrl names) (r.queryNames names) := by
  rw [queryNames, if_neg (by simpa using h)]
  refine asksOnce fun d => ?_
  cases d with
  | list entries =>
    exact (logs_decodeProfiles entries).bind fun _ =>
      (Lookup.logs_log _ _ _ _).bind fun _ => Lookup.logs_pure _ _
  | _ => exact (Lookup.logs_log _ _ _ _).bind fun _ => Lookup.logs_pure _ _

/-- The request for an id, if its address can be made. -/
def historyRequest (r : Remote σ) (id : PlayerId) : Except Failure Request :=
  (r.historyUrl id).map .history

theorem asksOnce_queryId {id : PlayerId} {request : Request}
    (h : r.historyRequest id = .ok request) : r.AsksOnce request (r.queryId id) := by
  unfold historyRequest at h
  cases hurl : r.historyUrl id with
  | error f =>
    rw [hurl] at h
    cases h
  | ok url =>
    rw [hurl] at h
    cases h
    have hquery : r.queryId id = (do
        logRequest ("GET " ++ url)
        let history ← r.exchange (.history url) (Request.history url).service
        decodeHistory id history) := by
      rw [queryId, hurl]
      rfl
    rw [hquery]
    exact asksOnce fun d => logs_decodeHistory id d

theorem queryId_run_error {id : PlayerId} {f : Failure} (h : r.historyRequest id = .error f)
    (s : σ) : (r.queryId id).run s = ⟨[], s, .error f⟩ := by
  unfold historyRequest at h
  cases hurl : r.historyUrl id with
  | ok url =>
    rw [hurl] at h
    cases h
  | error g =>
    rw [hurl] at h
    cases h
    rw [queryId, hurl]
    rfl

theorem AsksOnce.map {request : Request} {m : Lookup σ α} (h : r.AsksOnce request m) (f : α → β) :
    r.AsksOnce request (do return f (← m)) := by
  intro s
  obtain ⟨lead, trail, hlogs, hevents, hstate, hfailed, hanswered⟩ := h s
  have hrun := Lookup.run_map m f s
  refine ⟨lead, trail, hlogs, ?_, ?_, fun g hg => ?_, fun d hd => ?_⟩
  · rw [hrun]
    exact hevents
  · rw [hrun]
    exact hstate
  · rw [hrun, hfailed g hg]
    rfl
  · obtain ⟨a, ha⟩ := hanswered d hd
    rw [hrun, ha]
    exact ⟨f a, rfl⟩

/-- A step that makes one request, followed by others after something that is no request. -/
theorem AsksOnce.followed {request : Request} {m : Lookup σ α} {next : α → Lookup σ β}
    (hm : r.AsksOnce request m) (hlogs : ∀ e, e.IsLogOf .remoteSource → own e)
    (hmoves : ∀ t, moves t t)
    (hnext : ∀ a t, ∃ quiet u rest, (∀ e ∈ quiet, own e) ∧ moves t u ∧
      AsksFor r requests own moves ends u rest ∧
      (next a).run t = ⟨quiet ++ rest.events, rest.state, rest.result⟩) (s : σ) :
    AsksFor r (.ok request :: requests) own moves ends s ((m >>= next).run s) := by
  obtain ⟨lead, trail, hown, hevents, hstate, hfailed, hanswered⟩ := hm s
  replace hown : ∀ e ∈ lead ++ trail, own e := fun e he => hlogs e (hown e he)
  rcases hrun : m.run s with ⟨events, t, result⟩
  rw [hrun] at hevents hstate hfailed hanswered
  dsimp only at hevents hstate hfailed hanswered
  cases result with
  | error f =>
    rw [Lookup.run_bind_error hrun]
    have hexchange : ((r.exchange request request.service).run s).result = .error f := by
      cases houtcome : ((r.exchange request request.service).run s).result with
      | error g => rw [Except.error.inj (hfailed g houtcome)]
      | ok d =>
        obtain ⟨a, ha⟩ := hanswered d houtcome
        cases ha
    let a : Asked σ := ⟨request, lead, (r.exchange request request.service).run s, trail, t⟩
    have hend : AskedInOrder r requests own moves t (⟨[], t, .error f⟩ : Run σ Unit) [] :=
      askedInOrder_nil rfl rfl
    refine ⟨[a], AskedInOrder.cons (a := a) hend rfl ?_ hown
      (fun g hg => ⟨rfl, congrArg Except.error (Except.error.inj (hfailed g hg))⟩) ?_ rfl
      fun g hg => ?_, fun _ hb => (nomatch hb), fun g hg => Or.inl ⟨[], a, rfl, ?_⟩⟩
    · change moves ((r.exchange request request.service).run s).state t
      rw [hstate]
      exact hmoves _
    · rw [hevents, List.append_nil]
    · rw [Except.error.inj hg]
    · rw [← Except.error.inj hg]
      exact hexchange
  | ok found =>
    -- What is done before the next request is counted to this one, so that the next is made from
    -- the state that this one is left in.
    obtain ⟨quiet, u, rest, hquiet, hmove, ⟨asked, hasked, hend⟩, hrest⟩ := hnext found t
    rw [Lookup.run_bind_ok hrun, hrest]
    let a : Asked σ :=
      ⟨request, lead, (r.exchange request request.service).run s, trail ++ quiet, u⟩
    refine ⟨a :: asked, AskedInOrder.cons (a := a) hasked rfl ?_ ?_ (fun g hg => ?_) ?_ rfl
      fun g hg => hg, fun b hb => ?_, fun g hg => ?_⟩
    · change moves ((r.exchange request request.service).run s).state u
      rwa [← hstate]
    · intro e he
      rw [← List.append_assoc] at he
      rcases List.mem_append.mp he with he | he
      · exact hown e he
      · exact hquiet e he
    · cases hfailed g hg
    · rw [hevents]
      simp only [a, List.append_assoc]
    · refine (hend.of_ok b hb).imp_left fun hall => ?_
      rw [List.map_cons, hall]
    · rcases hend.of_error g hg with ⟨before, b, rfl, hb⟩ | hnext
      · exact Or.inl ⟨a :: before, b, rfl, hb⟩
      · exact Or.inr hnext

/-! ## Batches -/

/-- What the steps for several items give, put together. -/
def gather (step : I → Lookup σ (List Profile)) : List I → Lookup σ (List Profile)
  | [] => return []
  | i :: rest => do
    let found ← step i
    let more ← gather step rest
    return found ++ more

/-- Each step makes the request for its item, or fails without one. -/
structure Steps (r : Remote σ) (requestOf : I → Except Failure Request)
    (step : I → Lookup σ (List Profile)) (items : List I) : Prop where
  asks : ∀ i ∈ items, ∀ request, requestOf i = .ok request → r.AsksOnce request (step i)
  fails : ∀ i ∈ items, ∀ f, requestOf i = .error f → ∀ s, (step i).run s = ⟨[], s, .error f⟩

variable {requestOf : I → Except Failure Request} {step : I → Lookup σ (List Profile)}

theorem Steps.tail {i : I} {rest : List I} (h : Steps r requestOf step (i :: rest)) :
    Steps r requestOf step rest :=
  ⟨fun j hj => h.asks j (List.mem_cons_of_mem i hj),
    fun j hj => h.fails j (List.mem_cons_of_mem i hj)⟩

theorem gather_asksFor {items : List I} (h : Steps r requestOf step items) (s : σ) :
    AsksFor r (items.map requestOf) (·.IsLogOf .remoteSource) Eq (fun _ => False) s
      ((gather step items).run s) := by
  induction items generalizing s with
  | nil => exact asksFor_nothing []
  | cons i rest ih =>
    rw [List.map_cons]
    cases hrequest : requestOf i with
    | error f =>
      rw [gather, Lookup.run_bind_error (h.fails i List.mem_cons_self f hrequest s)]
      exact asksFor_failed (Or.inl rfl)
    | ok request =>
      refine (h.asks i List.mem_cons_self request hrequest).followed (fun _ he => he)
        (fun _ => rfl) (fun found t => ?_) s
      refine ⟨[], t, _, fun e he => absurd he List.not_mem_nil, rfl,
        (ih h.tail t).map (found ++ ·), ?_⟩
      exact Lookup.run_map (gather step rest) (found ++ ·) t

end Remote

end PlayerLookup
