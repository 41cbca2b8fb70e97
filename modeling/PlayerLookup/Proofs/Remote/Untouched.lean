import PlayerLookup.Pipeline
import PlayerLookup.Proofs.Foundations.Fixed
import PlayerLookup.Proofs.Remote.Histories

/-! What questions leave alone: asking a registry, the pinned profiles, a cache or the remote
service changes no part of the state that the way to the service does not change. -/

set_option autoImplicit false

namespace PlayerLookup

variable {σ K κ α β τ : Type} {d : Cell σ τ}

/-- Batches leave a part of the state as it is. -/
def Queries.LeavesAlone (d : Cell σ τ) (q : Queries σ K) : Prop :=
  ∀ keys, (q.all keys).LeavesAlone d

theorem Lookup.LeavesAlone.forEach {f : α → Lookup σ β} (h : ∀ a, (f a).LeavesAlone d)
    (items : List α) : (Lookup.forEach items f).LeavesAlone d := by
  induction items with
  | nil => exact Lookup.leavesAlone_pure []
  | cons a rest ih =>
    exact (h a).bind fun b => ih.bind fun bs => Lookup.leavesAlone_pure (b :: bs)

theorem Queries.leavesAlone_collect {one : K → Lookup σ (Option Profile)}
    (h : ∀ k, (one k).LeavesAlone d) (keys : List K) : (collect one keys).LeavesAlone d := by
  induction keys with
  | nil => exact Lookup.leavesAlone_pure []
  | cons k rest ih =>
    exact (h k).bind fun found => ih.bind fun more => Lookup.leavesAlone_pure _

theorem Queries.leavesAlone_ofOne [DecidableEq K] {one : K → Lookup σ (Option Profile)}
    (h : ∀ k, (one k).LeavesAlone d) : (ofOne one).LeavesAlone d :=
  fun keys => leavesAlone_collect h (Batch.unique keys)

/-! ## Exchanges -/

namespace Remote

/-- Neither sending a request nor asking whether waiting was cancelled changes a part of the state.
-/
structure LeavesAlone (d : Cell σ τ) (r : Remote σ) : Prop where
  send : ∀ request, (r.send request).LeavesAlone d
  cancelled : ∀ ask, r.cancelled? = some ask → ask.LeavesAlone d

variable {r : Remote σ}

theorem leavesAlone_saying (document : Document) : (saying document : Remote σ).LeavesAlone d :=
  ⟨fun _ _ => rfl, nofun⟩

theorem LeavesAlone.sendOnce (h : r.LeavesAlone d) (request : Request) :
    (r.sendOnce request).LeavesAlone d :=
  (Lookup.leavesAlone_emit _).bind fun _ =>
    (h.send request).bind fun response => Lookup.leavesAlone_ofExcept response.document

theorem LeavesAlone.pause (h : r.LeavesAlone d) (delay : Amount) :
    (r.pause delay).LeavesAlone d := by
  unfold Remote.pause
  cases hask : r.cancelled? with
  | none =>
    dsimp only
    cases r.platform.sleeping delay with
    | some f => exact Lookup.leavesAlone_fail f
    | none => exact Lookup.leavesAlone_emit _
  | some ask =>
    refine (Lookup.leavesAlone_emit _).bind fun _ => (h.cancelled ask hask).bind fun cancelled => ?_
    cases cancelled with
    | true => exact Lookup.leavesAlone_fail .backoffCancelled
    | false =>
      rw [if_neg (by decide)]
      cases r.platform.waiting delay with
      | some f => exact Lookup.leavesAlone_fail f
      | none => exact Lookup.leavesAlone_pure ()

theorem leavesAlone_logRetry (service : String) (delay : Amount) (left : Nat) (f : Failure) :
    (logRetry service delay left f : Lookup σ Unit).LeavesAlone d := by
  unfold logRetry
  cases delay.threePlaces? with
  | none => exact Lookup.leavesAlone_fail .delayTooLarge
  | some seconds => exact Lookup.leavesAlone_log

theorem LeavesAlone.exchangeFrom (h : r.LeavesAlone d) (request : Request) (service : String)
    (left : Nat) (delay : Amount) : (r.exchangeFrom request service left delay).LeavesAlone d := by
  -- By induction on the retries that are left.
  induction left generalizing delay with
  | zero =>
    rw [Remote.exchangeFrom]
    refine (h.sendOnce request).attempt.bind fun result => ?_
    cases result with
    | ok document => exact Lookup.leavesAlone_pure document
    | error f =>
      by_cases hf : f.isIn .request = true
      · simp only [hf, if_true]
        exact Lookup.leavesAlone_log.bind fun _ => Lookup.leavesAlone_fail f
      · simp only [hf]
        exact Lookup.leavesAlone_fail f
  | succ n ih =>
    rw [Remote.exchangeFrom]
    refine (h.sendOnce request).attempt.bind fun result => ?_
    cases result with
    | ok document => exact Lookup.leavesAlone_pure document
    | error f =>
      by_cases hf : f.isIn .request = true
      · simp only [hf, if_true]
        exact (leavesAlone_logRetry _ _ _ _).bind fun _ =>
          (h.pause delay).bind fun _ => ih delay.twice
      · simp only [hf]
        exact Lookup.leavesAlone_fail f

/-! ## Names and ids -/

theorem leavesAlone_usable? (found : Except Unusable Profile) :
    (usable? found : Lookup σ (Option Profile)).LeavesAlone d := by
  cases found with
  | ok p => exact Lookup.leavesAlone_pure (some p)
  | error u => exact Lookup.leavesAlone_log.bind fun _ => Lookup.leavesAlone_pure none

theorem LeavesAlone.queryNames (h : r.LeavesAlone d) (names : List String) :
    (r.queryNames names).LeavesAlone d := by
  unfold Remote.queryNames
  split
  · exact Lookup.leavesAlone_pure []
  · refine Lookup.leavesAlone_log.bind fun _ => ?_
    refine (h.exchangeFrom _ _ _ _).bind fun document => ?_
    cases document with
    | list entries =>
      refine ((Lookup.LeavesAlone.forEach (fun _ => leavesAlone_usable? _) entries).bind fun _ =>
        Lookup.leavesAlone_pure _).bind fun _ => ?_
      exact Lookup.leavesAlone_log.bind fun _ => Lookup.leavesAlone_pure _
    | _ => exact Lookup.leavesAlone_log.bind fun _ => Lookup.leavesAlone_pure []

theorem LeavesAlone.queryBodies (h : r.LeavesAlone d) (bodies : List (List String)) :
    (r.queryBodies bodies).LeavesAlone d := by
  induction bodies with
  | nil => exact Lookup.leavesAlone_pure []
  | cons names rest ih =>
    exact (h.queryNames names).bind fun _ => ih.bind fun _ => Lookup.leavesAlone_pure _

theorem LeavesAlone.byName (h : r.LeavesAlone d) : (Source.remote r).byName.LeavesAlone d :=
  fun names => (h.queryBodies (bodies names)).bind fun _ => Lookup.leavesAlone_pure _

theorem leavesAlone_decodeHistory (id : PlayerId) (history : Document) :
    (decodeHistory id history : Lookup σ (Option Profile)).LeavesAlone d := by
  cases history with
  | list items =>
    exact (Lookup.LeavesAlone.forEach (fun _ => leavesAlone_usable? _) items).bind fun _ =>
      Lookup.leavesAlone_pure _
  | _ => exact Lookup.leavesAlone_log.bind fun _ => Lookup.leavesAlone_pure none

theorem LeavesAlone.byId (h : r.LeavesAlone d) : (Source.remote r).byId.LeavesAlone d := by
  refine Queries.leavesAlone_ofOne fun id => ?_
  refine (Lookup.leavesAlone_ofExcept _).bind fun url => Lookup.leavesAlone_log.bind fun _ => ?_
  exact (h.exchangeFrom _ _ _ _).bind fun history => leavesAlone_decodeHistory id history

end Remote

/-! ## The other members -/

theorem Source.leavesAlone_localMap (cell : Cell σ LocalMap) :
    (Source.localMap cell).byName.LeavesAlone d ∧ (Source.localMap cell).byId.LeavesAlone d :=
  ⟨Queries.leavesAlone_ofOne fun _ => (Lookup.leavesAlone_read cell).bind fun _ =>
      Lookup.leavesAlone_pure _,
    Queries.leavesAlone_ofOne fun _ => (Lookup.leavesAlone_read cell).bind fun _ =>
      Lookup.leavesAlone_pure _⟩

theorem Source.leavesAlone_cached (cell : Cell σ Memory) :
    (Source.cached (.memory cell)).byName.LeavesAlone d ∧
      (Source.cached (.memory cell)).byId.LeavesAlone d :=
  ⟨fun _ _ => rfl, fun _ _ => rfl⟩

theorem Registry.leavesAlone_findName {r : Registry σ} (hid : ∀ name, (r.idOf name).LeavesAlone d)
    (hname : ∀ id, (r.nameOf id).LeavesAlone d) (name : String) :
    (r.findName name).LeavesAlone d := by
  refine (hid name).bind fun found => ?_
  cases found with
  | none => exact Lookup.leavesAlone_pure none
  | some id =>
    exact (hname id).bind fun _ => (Lookup.leavesAlone_ofExcept _).bind fun p =>
      Lookup.leavesAlone_pure (some p)

theorem Registry.leavesAlone_findId {r : Registry σ} (hname : ∀ id, (r.nameOf id).LeavesAlone d)
    (id : PlayerId) : (r.findId id).LeavesAlone d := by
  refine (hname id).bind fun found => ?_
  cases found with
  | none => exact Lookup.leavesAlone_pure none
  | some text =>
    exact (Lookup.leavesAlone_ofExcept _).bind fun p => Lookup.leavesAlone_pure (some p)

theorem Source.leavesAlone_host {r : Registry σ} (hid : ∀ name, (r.idOf name).LeavesAlone d)
    (hname : ∀ id, (r.nameOf id).LeavesAlone d) :
    (Source.host r).byName.LeavesAlone d ∧ (Source.host r).byId.LeavesAlone d :=
  ⟨Queries.leavesAlone_ofOne (Registry.leavesAlone_findName hid hname),
    Queries.leavesAlone_ofOne (Registry.leavesAlone_findId hname)⟩

/-! ## Combinations -/

theorem Queries.leavesAlone_collectMembers [DecidableEq κ] {normal : K → κ} {keyOf : Profile → K}
    {members : List (String × Queries σ K)} (h : ∀ m ∈ members, m.2.LeavesAlone d)
    (pr : Progress K κ) : (collectMembers normal keyOf members pr).LeavesAlone d := by
  induction members generalizing pr with
  | nil => exact Lookup.leavesAlone_pure []
  | cons m rest ih =>
    obtain ⟨label, q⟩ := m
    rw [collectMembers]
    split
    · exact Lookup.leavesAlone_pure []
    · refine (h (label, q) List.mem_cons_self pr.missing).bind fun found => ?_
      refine Lookup.leavesAlone_log.bind fun _ => ?_
      exact (ih (fun m hm => h m (List.mem_cons_of_mem _ hm)) _).bind fun more =>
        Lookup.leavesAlone_pure _

theorem Queries.leavesAlone_combined [DecidableEq κ] (normal : K → κ) (keyOf : Profile → K)
    {members : List (String × Queries σ K)} (h : ∀ m ∈ members, m.2.LeavesAlone d) :
    (combined normal keyOf members).LeavesAlone d :=
  fun keys => leavesAlone_collectMembers h (Progress.ofKeys normal keys)

end PlayerLookup
