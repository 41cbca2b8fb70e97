import PlayerLookup.Proofs.Amount.Refused
import PlayerLookup.Proofs.Remote.Calls

/-! How often a request is sent, how long is waited in between, and what comes of it in the end. -/

set_option autoImplicit false

namespace PlayerLookup

variable {σ : Type}

/-! ## Delays -/

/-- Delays that double: by value each is twice the one before, as long as an amount in the form of
the first can hold it. Only a whole number can be too large to be written into the log. -/
structure Amount.Doubles (first : Amount) : Prop where
  value_eq : ∀ d i, first.value? = some d → first.CanHold (2 ^ i * d) →
    (twice^[i] first).value? = some (2 ^ i * d)
  total_eq : ∀ d k, first.value? = some d → (∀ i < k, first.CanHold (2 ^ i * d)) →
    total? ((List.range k).map fun i => twice^[i] first) = some (d * (2 ^ k - 1))
  too_large_iff : ∀ i, (twice^[i] first).threePlaces? = none ↔
    ∃ n, twice^[i] first = .whole n ∧ Decimal.firstInfinite ≤ n.natAbs

theorem Amount.doubles (first : Amount) : first.Doubles where
  value_eq _ i h := value?_iterate_twice h i
  total_eq _ _ h hold := total?_doubled h hold
  too_large_iff _ := threePlaces?_eq_none_iff _

/-! ## Requests -/

namespace Remote

/-- How a request goes. Each attempt sends it once and reads the answer. Between two attempts there
is a pause, or a waiting that fails if it was cancelled, and the platform may refuse either for its
delay. Only an attempt that fails as requests do is followed by another, and at most as many times
as the settings allow. -/
structure Retries (r : Remote σ) (request : Request) (service : String) (s : σ) : Prop where
  attempts : ∀ i, r.attempt request r.settings.retryDelay s i =
    let sent := (r.send request).run (r.began request r.settings.retryDelay s i)
    ⟨.request request r.settings.timeout :: sent.events, sent.state,
      sent.result.bind Response.document⟩
  pauses : r.cancelled? = none → ∀ i, r.waiting request r.settings.retryDelay s i =
    match r.platform.sleeping (Amount.twice^[i] r.settings.retryDelay) with
    | some f => ⟨[], (r.attempt request r.settings.retryDelay s i).state, .error f⟩
    | none => ⟨[.pause (Amount.twice^[i] r.settings.retryDelay)],
        (r.attempt request r.settings.retryDelay s i).state, .ok ()⟩
  waitings : ∀ ask, r.cancelled? = some ask → ∀ i, r.waiting request r.settings.retryDelay s i =
    let asked := ask.run (r.attempt request r.settings.retryDelay s i).state
    ⟨.wait (Amount.twice^[i] r.settings.retryDelay) :: asked.events, asked.state,
      asked.result.bind fun cancelled =>
        if cancelled then .error .backoffCancelled
        else match r.platform.waiting (Amount.twice^[i] r.settings.retryDelay) with
          | some f => .error f
          | none => .ok ()⟩
  outcome : ∃ k,
    r.Exchanged request service r.settings.retries r.settings.retryDelay s k
      ((r.exchange request service).run s) ∧
    (k = ((List.range r.settings.retries).takeWhile fun i =>
        (r.attempt request r.settings.retryDelay s i).requestFailure?.isSome).length ∨
      (k < r.settings.retries ∧ (Amount.twice^[k] r.settings.retryDelay).threePlaces? = none ∧
        ((r.exchange request service).run s).result = .error .delayTooLarge) ∨
      ∃ g, (r.waiting request r.settings.retryDelay s k).result = .error g ∧
        ((r.exchange request service).run s).result = .error g)

theorem retries (r : Remote σ) (request : Request) (service : String) (s : σ) :
    r.Retries request service s where
  attempts i := attempt_eq i
  pauses h i := waiting_of_none h i
  waitings _ h i := waiting_of_some h i
  outcome := by
    obtain ⟨k, hk⟩ := exchangeFrom_exchanged r request service r.settings.retries
      r.settings.retryDelay s
    exact ⟨k, hk, hk.leading⟩

end Remote

/-- **Requests are sent again after delays that double.** A request is sent again as long as it
fails as requests do and the retries last; the attempts are one more than the failures that come
first, or than the retries if these are fewer. The waitings take the first delay, twice as long, and
so on. The last attempt decides, unless the waiting after it is cancelled, has a delay that cannot
be written into the log, or one that the platform refuses: a machine refuses those of 2 ^ 63
nanoseconds or more. In calls for names and ids each request starts afresh, and the first that fails
for good is the last. -/
theorem remote_retries_with_doubled_delays (r : Remote σ) :
    (∀ request service s, r.Retries request service s) ∧
      (∀ response : Response, response.Reads) ∧
      r.settings.retryDelay.Doubles ∧
      r.settings.retryDelay.PassesOnMachine ∧
      r.AsksInOrder (Source.remote r).byName r.nameRequests ∧
      r.AsksInOrder (Source.remote r).byId r.idRequests :=
  ⟨r.retries, Response.reads, Amount.doubles _, Amount.passesOnMachine _,
    Remote.asksInOrder_names, Remote.asksInOrder_ids⟩

/-- A remote service whose answers are given beforehand, asked from a machine. -/
def Remote.answering (retries : Nat) (delay : Amount) :
    Remote (List (Except Failure Response)) where
  settings := ⟨"minecraft", "profiles", "history", retries, delay, none⟩
  send _ answers := match answers with
    | [] => ⟨[], [], .error (.foreign .ordinary "RuntimeError" "no answer left")⟩
    | answer :: rest => ⟨[], rest, answer⟩
  cancelled? := none
  platform := .machine Template.noParts

/-- The whole numbers of seconds that were waited. -/
def secondsWaited (events : List Event) : List Int :=
  events.filterMap fun e => match e with
    | .pause (.whole n) => some n
    | _ => none

/-- After two failures there is an answer: of the two waitings the second is as long again as the
first. -/
theorem remote_retries_after_two_failures :
    (Remote.answering 3 (.whole 2)).Retries (.history "history") "name history service"
        [.error (.foreign .request "requests.ConnectionError" "down"),
          .error (.foreign .request "requests.Timeout" "slow"), .ok (.holding (.list []))] ∧
      secondsWaited (((Remote.answering 3 (.whole 2)).exchange (.history "history")
        "name history service").run
          [.error (.foreign .request "requests.ConnectionError" "down"),
            .error (.foreign .request "requests.Timeout" "slow"),
            .ok (.holding (.list []))]).events = [2, 4] :=
  ⟨(remote_retries_with_doubled_delays (Remote.answering 3 (.whole 2))).1 _ _ _,
    by decide +kernel⟩

/-! ## Delays that are too large -/

/-- The service fails once, and would answer then. -/
def Remote.failsOnce : List (Except Failure Response) :=
  [.error (.foreign .request "requests.ConnectionError" "down"), .ok (.holding (.list []))]

/-- Of a delay that cannot be written and one that a machine refuses: the second attempt would be
answered, but there is none. -/
theorem delay_too_large_ends_request :
    ((Remote.answering 1 (.whole (10 ^ 400))).exchange (.history "history")
        "name history service").run Remote.failsOnce =
        ⟨[.request (.history "history") none], [.ok (.holding (.list []))],
          .error .delayTooLarge⟩ ∧
      ((Remote.answering 1 (.whole (10 ^ 400))).attempt (.history "history") (.whole (10 ^ 400))
          Remote.failsOnce 1).result = .ok (.list []) ∧
      (((Remote.answering 1 (.whole (10 ^ 10))).exchange (.history "history")
        "name history service").run Remote.failsOnce).result = .error Platform.tooLong := by
  have hlarge :
      (Remote.answering 1 (.whole (10 ^ 400))).settings.retryDelay.threePlaces? = none :=
    (Amount.threePlaces?_eq_none_iff _).mpr ⟨10 ^ 400, rfl, by decide +kernel⟩
  refine ⟨?_, rfl, ?_⟩
  · refine (Remote.exchangeFrom_failed 1 rfl).trans ?_
    rw [Remote.afterFailure_unwritten 0 _ hlarge]
    rfl
  · obtain ⟨seconds, hseconds⟩ :
        ∃ seconds, (Amount.whole (10 ^ 10)).threePlaces? = some seconds := by
      refine Option.ne_none_iff_exists'.mp fun hnone => ?_
      obtain ⟨n, hn, hlarge⟩ := (Amount.threePlaces?_eq_none_iff _).mp hnone
      cases hn
      exact absurd hlarge (by decide +kernel)
    have hwait : ((Remote.answering 1 (.whole (10 ^ 10))).waiting (.history "history")
        (.whole (10 ^ 10)) Remote.failsOnce 0).result = .error Platform.tooLong := by
      rw [Remote.waiting_of_none rfl]
      rfl
    exact congrArg Run.result (Remote.exchangeFrom_cut_short 0 rfl hseconds hwait)

end PlayerLookup
