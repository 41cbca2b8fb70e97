import PlayerLookup.Proofs.Foundations.Traffic
import PlayerLookup.Proofs.Remote.Calls

/-! The traffic of a call to the remote source. An exchange is its request, made once for every
attempt, with a pause after each attempt but the last. Names that fit into one request are one
exchange. -/

set_option autoImplicit false

namespace PlayerLookup

variable {σ : Type}

namespace Remote

/-- No traffic is seen of the way to the service itself, and nothing can cancel a pause. -/
structure Plain (r : Remote σ) : Prop where
  quiet_send : ∀ request, (r.send request).Quiet
  uncancelled : r.cancelled? = none

/-- An attempt at a request that failed on the way, made from some state. -/
def Fails (r : Remote σ) (request : Request) : Prop :=
  ∃ s, ((r.sendOnce request).run s).requestFailure?.isSome = true

/-- The traffic of an exchange with a number of attempts before the last one. -/
def tries (r : Remote σ) (request : Request) (delay : Amount) (k : Nat) : List Event :=
  ((List.range k).flatMap fun i =>
    [.request request r.settings.timeout, .pause (Amount.twice^[i] delay)]) ++
    [.request request r.settings.timeout]

section

variable {r : Remote σ} {request : Request} {delay : Amount} {s : σ} {service : String}

theorem requestsOf_tries (k : Nat) :
    requestsOf (r.tries request delay k) = List.replicate (k + 1) request := by
  have hattempts : (requestsOf ((List.range k).flatMap fun i =>
      [.request request r.settings.timeout, .pause (Amount.twice^[i] delay)])) =
        List.replicate k request := by
    rw [requestsOf_flatMap]
    induction k with
    | zero => rfl
    | succ k ih =>
      rw [List.range_succ, List.flatMap_append, ih, List.replicate_succ']
      rfl
  rw [tries, requestsOf_append, hattempts, List.replicate_succ']
  rfl

theorem tries_of_no_pause {k : Nat} (h : ∀ e ∈ r.tries request delay k, e.isPause = false) :
    k = 0 := by
  by_contra hk
  have hpause : .pause delay ∈ r.tries request delay k := by
    refine List.mem_append_left _ (List.mem_flatMap.mpr ⟨0, ?_, ?_⟩)
    · exact List.mem_range.mpr (by omega)
    · exact List.mem_cons_of_mem _ List.mem_cons_self
  exact Bool.false_ne_true (h _ hpause).symm

/-! ## One exchange -/

theorem Plain.traffic_attempt (h : r.Plain) (i : Nat) :
    traffic (r.attempt request delay s i).events = [.request request r.settings.timeout] := by
  rw [attempt_eq, traffic_request, h.quiet_send]

theorem traffic_retryLog (left i : Nat) :
    traffic (r.retryLog request delay s service left i) = [] := by
  unfold retryLog
  split
  · rfl
  · rfl

theorem Plain.waiting_passed (h : r.Plain) {i : Nat}
    (hpassed : (r.waiting request delay s i).result = .ok ()) :
    (r.waiting request delay s i).events = [.pause (Amount.twice^[i] delay)] := by
  rw [waiting_of_none h.uncancelled] at hpassed ⊢
  cases hsleep : r.platform.sleeping (Amount.twice^[i] delay) with
  | none => rfl
  | some f =>
    rw [hsleep] at hpassed
    cases hpassed

theorem Plain.waiting_refused (h : r.Plain) {i : Nat} {g : Failure}
    (hrefused : (r.waiting request delay s i).result = .error g) :
    (r.waiting request delay s i).events = [] := by
  rw [waiting_of_none h.uncancelled] at hrefused ⊢
  cases hsleep : r.platform.sleeping (Amount.twice^[i] delay) with
  | some f => rfl
  | none =>
    rw [hsleep] at hrefused
    cases hrefused

theorem Plain.traffic_seenBefore (h : r.Plain) (left : Nat) {k : Nat}
    (hpassed : ∀ i < k, (r.waiting request delay s i).result = .ok ()) :
    traffic (r.seenBefore request delay s service left k) =
      (List.range k).flatMap fun i =>
        [.request request r.settings.timeout, .pause (Amount.twice^[i] delay)] := by
  rw [seenBefore, traffic_flatMap]
  refine List.flatMap_congr fun i hi => ?_
  rw [traffic_append, traffic_append, h.traffic_attempt, traffic_retryLog,
    h.waiting_passed (hpassed i (List.mem_range.mp hi))]
  rfl

theorem Plain.traffic_exchanged (h : r.Plain) {left k : Nat} {run : Run σ Document}
    (hrun : r.Exchanged request service left delay s k run) :
    traffic run.events = r.tries request delay k := by
  have hlast : traffic (r.seenBefore request delay s service left k ++
      (r.attempt request delay s k).events) = r.tries request delay k := by
    rw [traffic_append, h.traffic_seenBefore left fun i hi => (hrun.gone_on i hi).waited,
      h.traffic_attempt, tries]
  cases hfailure : (r.attempt request delay s k).requestFailure? with
  | none =>
    rw [hrun.answered hfailure]
    exact hlast
  | some f =>
    by_cases hk : k = left
    · rw [hrun.given_up f hfailure hk, traffic_append, hlast]
      exact List.append_nil _
    · have hlt : k < left := Nat.lt_of_le_of_ne hrun.le hk
      by_cases hwritten : (Amount.twice^[k] delay).threePlaces? = none
      · rw [hrun.too_large f hfailure hlt hwritten]
        exact hlast
      · -- Without a cancelling only a refused pause ends the exchange.
        obtain ⟨g, hg, hend⟩ := hrun.cut_short f hfailure hlt hwritten
        rw [hend, h.waiting_refused hg, List.append_nil, traffic_append, traffic_retryLog, hlast,
          List.append_nil]

theorem Plain.traffic_exchange (h : r.Plain) (request : Request) (service : String) (s : σ) :
    ∃ k, k ≤ r.settings.retries ∧ (0 < k → r.Fails request) ∧
      traffic ((r.exchange request service).run s).events =
        r.tries request r.settings.retryDelay k := by
  obtain ⟨k, hk⟩ := exchangeFrom_exchanged r request service r.settings.retries
    r.settings.retryDelay s
  exact ⟨k, hk.le, fun hpos => ⟨_, (hk.gone_on 0 hpos).failed⟩, h.traffic_exchanged hk⟩

/-! ## Names that fit into one request -/

/-- The traffic is that of one exchange for the names. -/
def Exchanges (r : Remote σ) (names : List String) (events : List Event) : Prop :=
  let request := .profiles r.settings.profilesUrl names
  ∃ k, k ≤ r.settings.retries ∧ (0 < k → r.Fails request) ∧
    traffic events = r.tries request r.settings.retryDelay k

theorem Plain.exchanges (h : r.Plain) {names : List String} (hnodup : names.Nodup)
    (hne : names ≠ []) (hle : names.length ≤ namesPerRequest) (s : σ) :
    r.Exchanges names (((Source.remote r).byName.all names).run s).events := by
  obtain ⟨asked, hasked, hend⟩ := (asksInOrder_names (r := r)).all names s
  have hrequests : r.nameRequests names = [.ok (.profiles r.settings.profilesUrl names)] := by
    rw [nameRequests, bodies, Batch.unique_of_nodup hnodup, Batch.chunks_of_length_le hne hle,
      List.map_singleton]
  have horder := hasked.in_order
  rw [hrequests] at horder
  cases asked with
  | nil =>
    -- The call cannot end before the request was made.
    rw [hrequests] at hend
    cases hresult : (((Source.remote r).byName.all names).run s).result with
    | ok ps => rcases hend.of_ok ps hresult with hnil | hfalse <;> contradiction
    | error f =>
      rcases hend.of_error f hresult with ⟨before, a, hnil, -⟩ | hnone | hfalse
      · simp at hnil
      · cases hnone
      · contradiction
  | cons a rest =>
    obtain ⟨hrequest, hrest⟩ := List.cons_prefix_cons.mp horder
    obtain rfl := List.map_eq_nil_iff.mp (List.prefix_nil.mp hrest)
    have hlogs := hasked.apart a List.mem_cons_self
    have houtcome := (hasked.afresh [] a [] rfl).1
    rw [Except.ok.inj hrequest] at houtcome
    have htraffic : traffic (((Source.remote r).byName.all names).run s).events =
        traffic a.outcome.events := by
      rw [hasked.events_eq, List.flatMap_singleton, traffic_append, traffic_append,
        traffic_of_logs fun e he => hlogs e (List.mem_append_left _ he),
        traffic_of_logs fun e he => hlogs e (List.mem_append_right _ he), List.append_nil,
        List.nil_append]
    rw [Exchanges, htraffic, houtcome]
    exact h.traffic_exchange _ _ _

end

end Remote

end PlayerLookup
