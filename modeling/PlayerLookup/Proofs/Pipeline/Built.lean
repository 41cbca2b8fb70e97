import PlayerLookup.Pipeline
import PlayerLookup.Proofs.Foundations.Lookup

/-! What a pipeline is like that was set up from settings: its service is the usual chain over its
own parts, its workers take jobs of the size that the settings ask for, and its remote source goes
the given way to the service, where nobody can cancel a pause. -/

set_option autoImplicit false

namespace PlayerLookup

variable {σ : Type} {r : Resources σ} {settings : Settings} {given : Option (Cache σ)}
  {p : Pipeline σ} {s : σ}

/-- The cache is the one that was given, or one in memory or in a file if none was. -/
inductive Resources.Supplies (r : Resources σ) : Option (Cache σ) → Cache σ → Prop where
  | given (cache : Cache σ) : r.Supplies (some cache) cache
  | memory : r.Supplies none (.memory r.memory)
  | stored (c : Connection σ) : r.Supplies none (.stored c)

/-- The parts of a pipeline are put together as its settings say. -/
structure Pipeline.BuiltFrom (r : Resources σ) (settings : Settings) (given : Option (Cache σ))
    (p : Pipeline σ) : Prop where
  service_eq : p.service =
    chain p.host p.cache r.pinned p.remote settings.caseSensitive p.workers
  workers_eq : p.workers = ⟨settings.jobSize, r.schedule, false, none⟩
  jobSize_pos : 1 ≤ settings.jobSize
  settings_eq : remoteSettings settings = .ok p.remote.settings
  send_eq : p.remote.send = r.send
  uncancelled : p.remote.cancelled? = none
  cache_from : r.Supplies given p.cache

namespace Pipeline

theorem limit_members (host : Option (Registry σ)) (cache : Cache σ)
    (pinned : Cell σ LocalMap) (remote : Remote σ) :
    smallestLimit (members host cache pinned remote) = Remote.namesPerRequest := by
  cases host <;> rfl

theorem workersFor_eq_ok {schedule : Schedule} {w : Workers σ}
    (h : workersFor schedule settings = .ok w) :
    1 ≤ settings.jobSize ∧ w = ⟨settings.jobSize, schedule, false, none⟩ := by
  unfold workersFor at h
  cases hthreads : Workers.checkThreads (.whole settings.threads) with
  | error f =>
    rw [hthreads] at h
    cases h
  | ok _ =>
    rw [hthreads] at h
    by_cases hsize : settings.jobSize < 1
    · have hcheck : Workers.checkJobSize settings.jobSize = .error (.misuse (.jobSize _)) :=
        if_pos hsize
      change Except.bind (Workers.checkJobSize settings.jobSize) _ = _ at h
      rw [hcheck] at h
      cases h
    · have hcheck : Workers.checkJobSize settings.jobSize = .ok settings.jobSize := if_neg hsize
      change Except.bind (Workers.checkJobSize settings.jobSize) _ = _ at h
      rw [hcheck] at h
      exact ⟨Int.not_lt.mp hsize, (Except.ok.inj h).symm⟩

theorem builtFrom_of_assemble {remote : Remote σ} {host : Option (Registry σ)} {cache : Cache σ}
    (h : ((assemble r settings remote host cache).run s).result = .ok p)
    (hsettings : remoteSettings settings = .ok remote.settings)
    (hsend : remote.send = r.send) (huncancelled : remote.cancelled? = none)
    (hcache : r.Supplies given cache) : p.BuiltFrom r settings given := by
  obtain ⟨_, t, _, -, hrest⟩ := Lookup.result_bind_eq_ok h
  obtain ⟨_, u, workers, hworkers, hrest⟩ := Lookup.result_bind_eq_ok hrest
  obtain ⟨_, v, _, -, hpure⟩ := Lookup.result_bind_eq_ok hrest
  obtain rfl := Except.ok.inj hpure
  have hfor : workersFor r.schedule settings = .ok workers := (Run.mk.inj hworkers).2.2
  obtain ⟨hpos, rfl⟩ := workersFor_eq_ok hfor
  exact ⟨rfl, rfl, hpos, hsettings, hsend, huncancelled, hcache⟩

theorem supplies_of_cacheFor {path : Option String} {cache : Cache σ}
    (h : ((r.cacheFor path).run s).result = .ok cache) : r.Supplies none cache := by
  cases path with
  | none =>
    obtain rfl := Except.ok.inj h
    exact .memory
  | some path =>
    unfold Resources.cacheFor at h
    dsimp only at h
    by_cases hempty : path = ""
    · rw [if_pos hempty] at h
      obtain rfl := Except.ok.inj h
      exact .memory
    · rw [if_neg hempty] at h
      obtain ⟨_, t, c, -, hpure⟩ := Lookup.result_bind_eq_ok h
      obtain rfl := Except.ok.inj hpure
      exact .stored c

theorem builtFrom_of_unprepared (h : ((unprepared r settings given).run s).result = .ok p) :
    p.BuiltFrom r settings given := by
  obtain ⟨_, t, remote, hremote, hrest⟩ := Lookup.result_bind_eq_ok h
  have hsettings : remoteSettings settings = .ok remote := (Run.mk.inj hremote).2.2
  obtain ⟨_, u, host, -, hrest⟩ := Lookup.result_bind_eq_ok hrest
  cases given with
  | some cache => exact builtFrom_of_assemble hrest hsettings rfl rfl (.given cache)
  | none =>
    obtain ⟨_, v, cache, hcache, hrest⟩ := Lookup.result_bind_eq_ok hrest
    have hassembled := Lookup.result_rescue_eq_ok (fun f w hok => ?_) hrest
    · exact builtFrom_of_assemble hassembled hsettings rfl rfl
        (supplies_of_cacheFor (s := u) (by rw [hcache]))
    · -- A pipeline that could not be put together is none, once its cache is closed.
      obtain ⟨_, x, _, -, hfail⟩ := Lookup.result_bind_eq_ok hok
      cases hfail

theorem builtFrom_of_ofSettings (h : ((ofSettings r settings given).run s).result = .ok p) :
    p.BuiltFrom r settings given := by
  obtain ⟨_, t, q, hunprepared, hrest⟩ := Lookup.result_bind_eq_ok h
  obtain ⟨_, u, _, -, hpure⟩ := Lookup.result_bind_eq_ok hrest
  obtain rfl := Except.ok.inj hpure
  exact builtFrom_of_unprepared (s := s) (by rw [hunprepared])

end Pipeline

end PlayerLookup
