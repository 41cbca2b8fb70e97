import PlayerLookup.Proofs.Amount.Doubling
import PlayerLookup.Proofs.Foundations.Lookup
import PlayerLookup.Remote.Exchange

/-! Attempts at one request. An attempt that fails as requests do is followed by another after a
delay, each time twice as long; the number of attempts is limited, and so is what can end them
before: an answer, a failure of another kind, a waiting that was cancelled or that the platform
refuses, and a delay that is too large to be written into the log. -/

set_option autoImplicit false

namespace PlayerLookup

variable {σ : Type}

/-! ## Answers -/

/-- How the document of an answer comes about: the failure that the answer tells of comes first,
then an answer without content means an empty list, and any other has its content. -/
structure Response.Reads (response : Response) : Prop where
  refused : ∀ f, response.refusal = some f → response.document = .error f
  empty : response.refusal = none → response.status = 204 ∨ response.hasContent = false →
    response.document = .ok (.list [])
  full : response.refusal = none → ¬ (response.status = 204 ∨ response.hasContent = false) →
    response.document = response.content

theorem Response.reads (response : Response) : response.Reads where
  refused f h := by rw [document, h]
  empty h hnone := by
    rw [document, h]
    exact if_pos hnone
  full h hsome := by
    rw [document, h]
    exact if_neg hsome

/-- The failure of a request that a run ended with, if it did. -/
def Run.requestFailure? (run : Run σ Document) : Option Failure :=
  match run.result with
  | .ok _ => none
  | .error f => if f.isIn .request then some f else none

theorem Run.requestFailure?_eq_some {run : Run σ Document} {f : Failure} :
    run.requestFailure? = some f ↔ run.result = .error f ∧ f.isIn .request = true := by
  unfold requestFailure?
  cases run.result with
  | ok d => simp
  | error g =>
    by_cases hg : g.isIn .request = true
    · simp only [if_pos hg, Option.some.injEq, Except.error.injEq]
      constructor
      · rintro rfl
        exact ⟨rfl, hg⟩
      · exact And.left
    · simp only [if_neg hg, Except.error.injEq, reduceCtorEq, false_iff, not_and]
      rintro rfl
      exact hg

namespace Remote

/-! ## One attempt after another -/

section

variable (r : Remote σ) (request : Request) (delay : Amount) (s : σ)

/-- The state in which an attempt is made, if it comes to that. -/
def began : Nat → σ
  | 0 => s
  | i + 1 =>
    ((r.pause (Amount.twice^[i] delay)).run ((r.sendOnce request).run (began i)).state).state

def attempt (i : Nat) : Run σ Document := (r.sendOnce request).run (r.began request delay s i)

def waiting (i : Nat) : Run σ Unit :=
  (r.pause (Amount.twice^[i] delay)).run (r.attempt request delay s i).state

/-- An attempt is followed by another: it failed as requests do, and the waiting came to its end. -/
structure GoesOn (i : Nat) : Prop where
  failed : (r.attempt request delay s i).requestFailure?.isSome = true
  written : (Amount.twice^[i] delay).threePlaces?.isSome = true
  waited : (r.waiting request delay s i).result = .ok ()

theorem began_succ (i : Nat) :
    r.began request delay s (i + 1) = (r.waiting request delay s i).state := rfl

theorem began_shift (i : Nat) :
    r.began request delay s (i + 1) =
      r.began request delay.twice (r.began request delay s 1) i := by
  induction i with
  | zero => rfl
  | succ i ih =>
    rw [began, ih]
    rfl

theorem attempt_shift (i : Nat) :
    r.attempt request delay s (i + 1) =
      r.attempt request delay.twice (r.began request delay s 1) i := by
  rw [attempt, began_shift]
  rfl

theorem waiting_shift (i : Nat) :
    r.waiting request delay s (i + 1) =
      r.waiting request delay.twice (r.began request delay s 1) i := by
  rw [waiting, attempt_shift]
  rfl

theorem goesOn_shift (i : Nat) :
    r.GoesOn request delay s (i + 1) ↔
      r.GoesOn request delay.twice (r.began request delay s 1) i := by
  constructor
  · rintro ⟨hfailed, hwritten, hwaited⟩
    rw [attempt_shift] at hfailed
    rw [waiting_shift] at hwaited
    exact ⟨hfailed, hwritten, hwaited⟩
  · rintro ⟨hfailed, hwritten, hwaited⟩
    rw [← attempt_shift] at hfailed
    rw [← waiting_shift] at hwaited
    exact ⟨hfailed, hwritten, hwaited⟩

/-! ## What is seen of them -/

/-- What is said in the log before the waiting. -/
def retryRecord (service seconds : String) (left : Nat) (f : Failure) : LogRecord :=
  ⟨.warning, .remoteSource, "Failed to query " ++ service ++ " -- retrying in " ++ seconds ++ "s ("
    ++ toString left ++ " retries left)", some f⟩

/-- What is said in the log after the last attempt. -/
def givenUpRecord (service : String) (f : Failure) : LogRecord :=
  ⟨.error, .remoteSource, "Failed to query " ++ service ++ " after " ++ toString r.settings.retries
    ++ " retries: " ++ f.message, none⟩

/-- The record before the waiting after an attempt. -/
def retryLog (service : String) (left i : Nat) : List Event :=
  match (r.attempt request delay s i).requestFailure?, (Amount.twice^[i] delay).threePlaces? with
  | some f, some seconds => [.log (retryRecord service seconds (left - i) f)]
  | _, _ => []

def seenBefore (service : String) (left k : Nat) : List Event :=
  (List.range k).flatMap fun i =>
    (r.attempt request delay s i).events ++ r.retryLog request delay s service left i
      ++ (r.waiting request delay s i).events

theorem seenBefore_succ (service : String) (left k : Nat) :
    r.seenBefore request delay s service (left + 1) (k + 1) =
      (r.attempt request delay s 0).events ++ r.retryLog request delay s service (left + 1) 0
        ++ (r.waiting request delay s 0).events
        ++ r.seenBefore request delay.twice (r.began request delay s 1) service left k := by
  rw [seenBefore, List.range_succ_eq_map, List.flatMap_cons, List.flatMap_map]
  congr 1
  refine List.flatMap_congr fun i _ => ?_
  rw [attempt_shift, waiting_shift, retryLog, attempt_shift, Nat.add_sub_add_right]
  rfl

/-! ## The first attempt of an exchange -/

variable {r request delay s} {service : String} {f g : Failure} {seconds : String}

theorem exchangeFrom_answered (left : Nat)
    (h : (r.attempt request delay s 0).requestFailure? = none) :
    (r.exchangeFrom request service left delay).run s = r.attempt request delay s 0 := by
  have htry := Lookup.run_attempt (r.sendOnce request) s
  change (r.sendOnce request).attempt.run s = ⟨(r.attempt request delay s 0).events,
    (r.attempt request delay s 0).state, .ok (r.attempt request delay s 0).result⟩ at htry
  rcases hattempt : r.attempt request delay s 0 with ⟨events, t, result⟩
  rw [hattempt] at h htry
  rw [exchangeFrom, Lookup.run_bind_ok htry]
  cases result with
  | ok d => simp
  | error f =>
    have hf : ¬ f.isIn .request = true := fun hf => by
      rw [Run.requestFailure?_eq_some.mpr ⟨rfl, hf⟩] at h
      cases h
    simp [if_neg hf]

/-- What follows an attempt that failed as requests do. -/
def afterFailure (r : Remote σ) (request : Request) (service : String) (left : Nat)
    (delay : Amount) (f : Failure) : Lookup σ Document :=
  match left with
  | 0 => do
    r.logGivenUp service f
    Lookup.fail f
  | n + 1 => do
    logRetry service delay (n + 1) f
    r.pause delay
    r.exchangeFrom request service n delay.twice

theorem exchangeFrom_failed (left : Nat)
    (h : (r.attempt request delay s 0).requestFailure? = some f) :
    (r.exchangeFrom request service left delay).run s =
      let rest := (r.afterFailure request service left delay f).run
        (r.attempt request delay s 0).state
      ⟨(r.attempt request delay s 0).events ++ rest.events, rest.state, rest.result⟩ := by
  obtain ⟨hresult, hf⟩ := Run.requestFailure?_eq_some.mp h
  have htry := Lookup.run_attempt (r.sendOnce request) s
  change (r.sendOnce request).attempt.run s = ⟨(r.attempt request delay s 0).events,
    (r.attempt request delay s 0).state, .ok (r.attempt request delay s 0).result⟩ at htry
  rw [hresult] at htry
  rw [exchangeFrom, Lookup.run_bind_ok htry]
  dsimp only
  rw [if_pos hf]
  rfl

theorem afterFailure_zero (t : σ) :
    (r.afterFailure request service 0 delay f).run t =
      ⟨[.log (r.givenUpRecord service f)], t, .error f⟩ := rfl

theorem afterFailure_unwritten (n : Nat) (t : σ) (h : delay.threePlaces? = none) :
    (r.afterFailure request service (n + 1) delay f).run t = ⟨[], t, .error .delayTooLarge⟩ := by
  have hlog : (logRetry service delay (n + 1) f : Lookup σ Unit).run t =
      ⟨[], t, .error .delayTooLarge⟩ := by
    rw [logRetry, h]
    rfl
  exact Lookup.run_bind_error hlog _

theorem afterFailure_written (n : Nat) (t : σ) (h : delay.threePlaces? = some seconds) :
    (r.afterFailure request service (n + 1) delay f).run t =
      let rest := (do
        r.pause delay
        r.exchangeFrom request service n delay.twice).run t
      ⟨.log (retryRecord service seconds (n + 1) f) :: rest.events, rest.state, rest.result⟩ := by
  have hlog : (logRetry service delay (n + 1) f : Lookup σ Unit).run t =
      ⟨[.log (retryRecord service seconds (n + 1) f)], t, .ok ()⟩ := by
    rw [logRetry, h]
    rfl
  exact Lookup.run_bind_ok hlog _

theorem retryLog_zero (n : Nat) (h : (r.attempt request delay s 0).requestFailure? = some f)
    (hwritten : delay.threePlaces? = some seconds) :
    r.retryLog request delay s service (n + 1) 0 =
      [.log (retryRecord service seconds (n + 1) f)] := by
  rw [retryLog, h]
  change (match some f, delay.threePlaces? with
    | some f, some seconds => [Event.log (retryRecord service seconds (n + 1 - 0) f)]
    | _, _ => []) = _
  rw [hwritten]
  rfl

theorem exchangeFrom_cut_short (n : Nat)
    (h : (r.attempt request delay s 0).requestFailure? = some f)
    (hwritten : delay.threePlaces? = some seconds)
    (hwait : (r.waiting request delay s 0).result = .error g) :
    (r.exchangeFrom request service (n + 1) delay).run s =
      ⟨(r.attempt request delay s 0).events ++ r.retryLog request delay s service (n + 1) 0
        ++ (r.waiting request delay s 0).events, (r.waiting request delay s 0).state,
        .error g⟩ := by
  have hpause : (r.pause delay).run (r.attempt request delay s 0).state =
      r.waiting request delay s 0 := rfl
  rcases hwaiting : r.waiting request delay s 0 with ⟨events, t, result⟩
  rw [hwaiting] at hwait hpause
  obtain rfl : result = .error g := hwait
  rw [exchangeFrom_failed (n + 1) h, afterFailure_written n _ hwritten,
    Lookup.run_bind_error hpause, retryLog_zero n h hwritten]
  simp

theorem exchangeFrom_gone_on (n : Nat)
    (h : (r.attempt request delay s 0).requestFailure? = some f)
    (hwritten : delay.threePlaces? = some seconds)
    (hwait : (r.waiting request delay s 0).result = .ok ()) :
    (r.exchangeFrom request service (n + 1) delay).run s =
      let rest := (r.exchangeFrom request service n delay.twice).run (r.began request delay s 1)
      ⟨(r.attempt request delay s 0).events ++ r.retryLog request delay s service (n + 1) 0
        ++ (r.waiting request delay s 0).events ++ rest.events, rest.state, rest.result⟩ := by
  have hpause : (r.pause delay).run (r.attempt request delay s 0).state =
      r.waiting request delay s 0 := rfl
  rw [began_succ]
  rcases hwaiting : r.waiting request delay s 0 with ⟨events, t, result⟩
  rw [hwaiting] at hwait hpause
  obtain rfl : result = .ok () := hwait
  rw [exchangeFrom_failed (n + 1) h, afterFailure_written n _ hwritten,
    Lookup.run_bind_ok hpause, retryLog_zero n h hwritten]
  simp

/-! ## The whole exchange -/

/-- How an exchange went that came to as many attempts before its last one: all of them failed as
requests do, and were followed by a waiting; the last one was answered or failed in another way, or
it was the last allowed, or the waiting after it could not begin or was cut short. -/
structure Exchanged (r : Remote σ) (request : Request) (service : String) (left : Nat)
    (delay : Amount) (s : σ) (k : Nat) (run : Run σ Document) : Prop where
  le : k ≤ left
  gone_on : ∀ i < k, r.GoesOn request delay s i
  answered : (r.attempt request delay s k).requestFailure? = none →
    run = ⟨r.seenBefore request delay s service left k ++ (r.attempt request delay s k).events,
      (r.attempt request delay s k).state, (r.attempt request delay s k).result⟩
  given_up : ∀ f, (r.attempt request delay s k).requestFailure? = some f → k = left →
    run = ⟨r.seenBefore request delay s service left k ++ (r.attempt request delay s k).events
        ++ [.log (r.givenUpRecord service f)],
      (r.attempt request delay s k).state, .error f⟩
  too_large : ∀ f, (r.attempt request delay s k).requestFailure? = some f → k < left →
    (Amount.twice^[k] delay).threePlaces? = none →
    run = ⟨r.seenBefore request delay s service left k ++ (r.attempt request delay s k).events,
      (r.attempt request delay s k).state, .error .delayTooLarge⟩
  cut_short : ∀ f, (r.attempt request delay s k).requestFailure? = some f → k < left →
    (Amount.twice^[k] delay).threePlaces? ≠ none →
    ∃ g, (r.waiting request delay s k).result = .error g ∧
      run = ⟨r.seenBefore request delay s service left k ++ (r.attempt request delay s k).events
          ++ r.retryLog request delay s service left k ++ (r.waiting request delay s k).events,
        (r.waiting request delay s k).state, .error g⟩

/-! ### Exchanges that end with their first attempt -/

theorem exchanged_answered (left : Nat)
    (h : (r.attempt request delay s 0).requestFailure? = none) :
    r.Exchanged request service left delay s 0 (r.attempt request delay s 0) where
  le := Nat.zero_le left
  gone_on i hi := absurd hi (Nat.not_lt_zero i)
  answered _ := rfl
  given_up f hf := by cases h.symm.trans hf
  too_large f hf := by cases h.symm.trans hf
  cut_short f hf := by cases h.symm.trans hf

theorem exchanged_given_up (h : (r.attempt request delay s 0).requestFailure? = some f) :
    r.Exchanged request service 0 delay s 0
      ⟨(r.attempt request delay s 0).events ++ [.log (r.givenUpRecord service f)],
        (r.attempt request delay s 0).state, .error f⟩ where
  le := Nat.le_refl 0
  gone_on i hi := absurd hi (Nat.not_lt_zero i)
  answered hnone := by cases h.symm.trans hnone
  given_up g hg _ := by
    cases h.symm.trans hg
    rfl
  too_large g hg hlt := absurd hlt (Nat.lt_irrefl 0)
  cut_short g hg hlt := absurd hlt (Nat.lt_irrefl 0)

theorem exchanged_too_large (n : Nat)
    (h : (r.attempt request delay s 0).requestFailure? = some f)
    (hnone : delay.threePlaces? = none) :
    r.Exchanged request service (n + 1) delay s 0
      ⟨(r.attempt request delay s 0).events, (r.attempt request delay s 0).state,
        .error .delayTooLarge⟩ where
  le := Nat.zero_le (n + 1)
  gone_on i hi := absurd hi (Nat.not_lt_zero i)
  answered hf := by cases h.symm.trans hf
  given_up g hg hzero := absurd hzero (Nat.succ_ne_zero n).symm
  too_large g hg hlt hlarge := rfl
  cut_short g hg hlt hwritten := absurd hnone hwritten

theorem exchanged_cut_short (n : Nat)
    (h : (r.attempt request delay s 0).requestFailure? = some f)
    (hwritten : delay.threePlaces? = some seconds)
    (hwait : (r.waiting request delay s 0).result = .error g) :
    r.Exchanged request service (n + 1) delay s 0
      ⟨(r.attempt request delay s 0).events ++ r.retryLog request delay s service (n + 1) 0
        ++ (r.waiting request delay s 0).events, (r.waiting request delay s 0).state,
        .error g⟩ where
  le := Nat.zero_le (n + 1)
  gone_on i hi := absurd hi (Nat.not_lt_zero i)
  answered hf := by cases h.symm.trans hf
  given_up g hg hzero := absurd hzero (Nat.succ_ne_zero n).symm
  too_large g hg hlt hnone := by cases hwritten.symm.trans hnone
  cut_short _ _ _ _ := ⟨g, hwait, rfl⟩

/-- An attempt and a waiting put before the rest of an exchange. -/
theorem Exchanged.succ {left k : Nat} {run : Run σ Document}
    (h : r.Exchanged request service left delay.twice (r.began request delay s 1) k run)
    (hfirst : r.GoesOn request delay s 0) :
    r.Exchanged request service (left + 1) delay s (k + 1)
      ⟨(r.attempt request delay s 0).events ++ r.retryLog request delay s service (left + 1) 0
        ++ (r.waiting request delay s 0).events ++ run.events, run.state, run.result⟩ := by
  have hlog : r.retryLog request delay s service (left + 1) (k + 1) =
      r.retryLog request delay.twice (r.began request delay s 1) service left k := by
    rw [retryLog, attempt_shift, Nat.add_sub_add_right]
    rfl
  refine ⟨Nat.succ_le_succ h.le, fun i hi => ?_, ?_, ?_, ?_, ?_⟩
  · cases i with
    | zero => exact hfirst
    | succ i => exact (r.goesOn_shift request delay s i).mpr (h.gone_on i (by omega))
  all_goals rw [attempt_shift]
  · intro hnone
    rw [h.answered hnone, seenBefore_succ]
    simp only [List.append_assoc]
  · intro f hf hk
    rw [h.given_up f hf (by omega), seenBefore_succ]
    simp only [List.append_assoc]
  · intro f hf hk hwritten
    rw [h.too_large f hf (by omega) hwritten, seenBefore_succ]
    simp only [List.append_assoc]
  · intro f hf hk hwritten
    obtain ⟨g, hg, hrun⟩ := h.cut_short f hf (by omega) hwritten
    refine ⟨g, by rw [waiting_shift, hg], ?_⟩
    rw [hrun, seenBefore_succ, waiting_shift, hlog]
    simp only [List.append_assoc]

theorem exchangeFrom_exchanged (r : Remote σ) (request : Request) (service : String) (left : Nat)
    (delay : Amount) (s : σ) :
    ∃ k, r.Exchanged request service left delay s k
      ((r.exchangeFrom request service left delay).run s) := by
  -- By induction on the retries that are left; the rest of an exchange starts from the state that
  -- the waiting left, with twice the delay.
  induction left generalizing delay s with
  | zero =>
    refine ⟨0, ?_⟩
    cases hattempt : (r.attempt request delay s 0).requestFailure? with
    | none =>
      rw [exchangeFrom_answered 0 hattempt]
      exact exchanged_answered 0 hattempt
    | some f =>
      rw [exchangeFrom_failed 0 hattempt, afterFailure_zero]
      exact exchanged_given_up hattempt
  | succ n ih =>
    cases hattempt : (r.attempt request delay s 0).requestFailure? with
    | none =>
      refine ⟨0, ?_⟩
      rw [exchangeFrom_answered (n + 1) hattempt]
      exact exchanged_answered (n + 1) hattempt
    | some f =>
      cases hwritten : delay.threePlaces? with
      | none =>
        refine ⟨0, ?_⟩
        rw [exchangeFrom_failed (n + 1) hattempt, afterFailure_unwritten n _ hwritten]
        simpa using exchanged_too_large n hattempt hwritten
      | some seconds =>
        cases hwait : (r.waiting request delay s 0).result with
        | error g =>
          refine ⟨0, ?_⟩
          rw [exchangeFrom_cut_short n hattempt hwritten hwait]
          exact exchanged_cut_short n hattempt hwritten hwait
        | ok _ =>
          obtain ⟨k, hk⟩ := ih delay.twice (r.began request delay s 1)
          refine ⟨k + 1, ?_⟩
          rw [exchangeFrom_gone_on n hattempt hwritten hwait]
          exact hk.succ ⟨by rw [hattempt]; rfl, Option.isSome_of_eq_some hwritten, hwait⟩

/-! ## Counting the attempts -/

/-- As many attempts are followed by another as fail at first, or as retries are left if these are
fewer, unless the exchange ends where there would be a waiting. -/
theorem Exchanged.leading {left k : Nat} {run : Run σ Document}
    (h : r.Exchanged request service left delay s k run) :
    k = ((List.range left).takeWhile fun i =>
        (r.attempt request delay s i).requestFailure?.isSome).length ∨
      (k < left ∧ (Amount.twice^[k] delay).threePlaces? = none ∧
        run.result = .error .delayTooLarge) ∨
      ∃ g, (r.waiting request delay s k).result = .error g ∧ run.result = .error g := by
  -- All attempts but the last failed; what the last one came to decides.
  have hfirst (more : Nat) : ((List.range (k + more)).takeWhile fun i =>
      (r.attempt request delay s i).requestFailure?.isSome) = List.range k ++
        ((List.range more).map (k + ·)).takeWhile fun i =>
          (r.attempt request delay s i).requestFailure?.isSome := by
    rw [List.range_add, List.takeWhile_append_of_pos fun i hi =>
      (h.gone_on i (List.mem_range.mp hi)).failed]
  obtain ⟨more, rfl⟩ := Nat.exists_eq_add_of_le h.le
  rw [hfirst]
  cases more with
  | zero => simp
  | succ more =>
    have hlt : k < k + (more + 1) := by omega
    cases hfailure : (r.attempt request delay s k).requestFailure? with
    | none =>
      rw [List.range_succ_eq_map, List.map_cons,
        List.takeWhile_cons_of_neg (by simp [hfailure])]
      simp
    | some f =>
      right
      cases hwritten : (Amount.twice^[k] delay).threePlaces? with
      | none =>
        rw [h.too_large f hfailure hlt hwritten]
        exact Or.inl ⟨hlt, rfl, rfl⟩
      | some seconds =>
        obtain ⟨g, hg, hrun⟩ := h.cut_short f hfailure hlt (by rw [hwritten]; simp)
        exact Or.inr ⟨g, hg, by rw [hrun]⟩

/-! ## Attempts and waitings by what is done in them -/

theorem attempt_eq (i : Nat) :
    r.attempt request delay s i =
      let sent := (r.send request).run (r.began request delay s i)
      ⟨.request request r.settings.timeout :: sent.events, sent.state,
        sent.result.bind Response.document⟩ := by
  rcases hsent : (r.send request).run (r.began request delay s i) with ⟨events, t, result⟩
  have hemit : (Lookup.emit (.request request r.settings.timeout)).run
      (r.began request delay s i) = ⟨[.request request r.settings.timeout], _, .ok ()⟩ := rfl
  rw [attempt, sendOnce, Lookup.run_bind_ok hemit]
  cases result with
  | error f =>
    rw [Lookup.run_bind_error hsent]
    rfl
  | ok response =>
    rw [Lookup.run_bind_ok hsent]
    simp [Lookup.ofExcept, Lookup.run, Except.bind]

theorem waiting_of_none (h : r.cancelled? = none) (i : Nat) :
    r.waiting request delay s i =
      match r.platform.sleeping (Amount.twice^[i] delay) with
      | some f => ⟨[], (r.attempt request delay s i).state, .error f⟩
      | none =>
        ⟨[.pause (Amount.twice^[i] delay)], (r.attempt request delay s i).state, .ok ()⟩ := by
  rw [waiting, pause, h]
  dsimp only
  cases r.platform.sleeping (Amount.twice^[i] delay) <;> rfl

theorem waiting_of_some {ask : Lookup σ Bool} (h : r.cancelled? = some ask) (i : Nat) :
    r.waiting request delay s i =
      let asked := ask.run (r.attempt request delay s i).state
      ⟨.wait (Amount.twice^[i] delay) :: asked.events, asked.state,
        asked.result.bind fun cancelled =>
          if cancelled then .error .backoffCancelled
          else match r.platform.waiting (Amount.twice^[i] delay) with
            | some f => .error f
            | none => .ok ()⟩ := by
  rcases hasked : ask.run (r.attempt request delay s i).state with ⟨events, t, result⟩
  have hemit : (Lookup.emit (.wait (Amount.twice^[i] delay))).run
      (r.attempt request delay s i).state = ⟨[.wait (Amount.twice^[i] delay)], _, .ok ()⟩ := rfl
  rw [waiting, pause, h]
  dsimp only
  rw [Lookup.run_bind_ok hemit]
  cases result with
  | error f =>
    rw [Lookup.run_bind_error hasked]
    rfl
  | ok cancelled =>
    rw [Lookup.run_bind_ok hasked]
    cases r.platform.waiting (Amount.twice^[i] delay) <;> cases cancelled <;> simp [Except.bind]

end

end Remote

end PlayerLookup
