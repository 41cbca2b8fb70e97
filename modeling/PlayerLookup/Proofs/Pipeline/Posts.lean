import PlayerLookup.Proofs.Combined.LastMember
import PlayerLookup.Proofs.Parallel.Merging
import PlayerLookup.Proofs.Pipeline.Built
import PlayerLookup.Proofs.Remote.Bodies
import PlayerLookup.Session

/-! The requests that a pipeline makes for names. Keys are cut into jobs that are no larger than a
request may be, so what a job asks of the remote service fits into one request; and as no two jobs
have a key in common, no name is sent twice unless a request failed on the way. -/

set_option autoImplicit false

namespace PlayerLookup

variable {σ : Type}

/-! ## One job -/

/-- A job makes one exchange at most, for some of its keys. -/
def JobRun.PostsOnce (r : Remote σ) (size : Int) (j : JobRun σ String (List Profile)) : Prop :=
  traffic j.outcome.events = [] ∨
    ∃ body, body ≠ [] ∧ body.Nodup ∧ body.Sublist j.keys ∧ (body.length : Int) ≤ size ∧
      r.Exchanges body j.outcome.events

section

variable {host : Option (Registry σ)} {cache : Cache σ} {pinned : Cell σ LocalMap}
  {remote : Remote σ} {caseSensitive : Bool}

theorem Queries.traffic_keeping {K : Type} (hcache : cache.Quiet) (q : Queries σ K) (keys : List K)
    (s : σ) :
    traffic (((q.keeping cache).all keys).run s).events = traffic ((q.all keys).run s).events :=
  Lookup.traffic_bind_of_quiet
    (fun found => (hcache.keep found).bind fun _ => Lookup.quiet_pure found) s

theorem Pipeline.traffic_job (hhost : ∀ registry, host = some registry → registry.Quiet)
    (hcache : cache.Quiet) (hremote : remote.Plain) {keys : List String}
    (hle : keys.length ≤ Remote.namesPerRequest) (s : σ) :
    let outcome := ((Source.forwarding cache (Source.combined caseSensitive
      (members host cache pinned remote))).byName.all keys).run s
    traffic outcome.events = [] ∨
      ∃ body, body ≠ [] ∧ body.Nodup ∧ body.Sublist keys ∧
        remote.Exchanges body outcome.events := by
  intro outcome
  let quiet : List (Source σ) :=
    (host.map Source.host).toList ++ [Source.cached cache, Source.localMap pinned]
  have hquiet : ∀ m ∈ quiet.map fun m => (m.label, m.byName), m.2.Quiet := by
    intro m hm
    obtain ⟨source, hsource, rfl⟩ := List.mem_map.mp hm
    rcases List.mem_append.mp hsource with hsource | hsource
    · obtain ⟨registry, hregistry, rfl⟩ := Option.map_eq_some_iff.mp (Option.mem_toList.mp hsource)
      exact (hhost registry hregistry).byName
    · rcases List.mem_cons.mp hsource with rfl | hsource
      · exact hcache.byName
      · rw [List.mem_singleton.mp hsource]
        exact Source.quiet_localMap pinned
  let last := ("HttpRepositoryService", (Source.remote remote).byName)
  have hmembers : (members host cache pinned remote).map (fun m => (m.label, m.byName)) =
      quiet.map (fun m => (m.label, m.byName)) ++ [last] := by
    cases host <;> rfl
  have htraffic : traffic outcome.events = traffic (((Queries.combined (matchingForm caseSensitive)
      (·.name.text) (quiet.map (fun m => (m.label, m.byName)) ++ [last])).all keys).run
        s).events := by
    rw [← hmembers]
    exact Queries.traffic_keeping hcache _ keys s
  obtain ⟨turns, hturns⟩ := combined_answeredInTurn (matchingForm caseSensitive) (·.name.text)
    (quiet.map (fun m => (m.label, m.byName)) ++ [last]) keys s
  rcases hturns.traffic_last hquiet with hnone | ⟨u, asked, hne, hnodup, hsublist, hasked⟩
  · left
    exact htraffic.trans hnone
  · right
    have hbody : asked.Nodup := List.Nodup.of_map _ hnodup
    obtain ⟨k, hk, hfails, htries⟩ :=
      hremote.exchanges hbody hne (hsublist.length_le.trans hle) u
    exact ⟨asked, hne, hbody, hsublist, k, hk, hfails, (htraffic.trans hasked).trans htries⟩

end

/-! ## All jobs -/

section

variable {r : Remote σ} {size : Int} {j : JobRun σ String (List Profile)}
  {jobs : List (JobRun σ String (List Profile))}

theorem JobRun.PostsOnce.no_pause (h : j.PostsOnce r size)
    (hsteady : ∀ request, ¬ r.Fails request) :
    ∀ e ∈ traffic j.outcome.events, e.isPause = false := by
  rcases h with hnone | ⟨body, -, -, -, -, k, -, hfails, htries⟩
  · rw [hnone]
    exact fun e he => absurd he List.not_mem_nil
  · have hzero : k = 0 := by
      by_contra hk
      exact hsteady _ (hfails (by omega))
    rw [htries, hzero]
    intro e he
    rw [List.mem_singleton.mp he]
    rfl

/-- What a job sends in which nothing is tried again: at most one body, of some of its keys. -/
theorem JobRun.PostsOnce.exists_body (h : j.PostsOnce r size)
    (hpause : ∀ e ∈ traffic j.outcome.events, e.isPause = false) :
    ∃ bodies : List (List String),
      requestsOf j.outcome.events = bodies.map (.profiles r.settings.profilesUrl) ∧
      bodies.length ≤ 1 ∧ bodies.flatten.Sublist j.keys := by
  rw [← requestsOf_traffic]
  rcases h with hnone | ⟨body, -, -, hsublist, -, k, -, -, htries⟩
  · rw [hnone]
    exact ⟨[], rfl, Nat.zero_le 1, List.nil_sublist _⟩
  · rw [htries] at hpause ⊢
    rw [Remote.requestsOf_tries, Remote.tries_of_no_pause hpause]
    exact ⟨[body], rfl, Nat.le_refl 1, by rwa [List.flatten_singleton]⟩

theorem JobRun.exists_bodies {url : String}
    (h : ∀ j ∈ jobs, ∃ bodies : List (List String),
      requestsOf j.outcome.events = bodies.map (.profiles url) ∧ bodies.length ≤ 1 ∧
        bodies.flatten.Sublist j.keys) :
    ∃ bodies : List (List String),
      (jobs.flatMap fun j => requestsOf j.outcome.events) = bodies.map (.profiles url) ∧
      bodies.length ≤ jobs.length ∧ bodies.flatten.Sublist (jobs.flatMap JobRun.keys) := by
  induction jobs with
  | nil => exact ⟨[], rfl, Nat.le_refl 0, List.Sublist.refl []⟩
  | cons j rest ih =>
    obtain ⟨bodies, hrequests, hlength, hsublist⟩ := h j List.mem_cons_self
    obtain ⟨more, hmore, hless, hkeys⟩ := ih fun i hi => h i (List.mem_cons_of_mem j hi)
    refine ⟨bodies ++ more, ?_, ?_, ?_⟩
    · rw [List.flatMap_cons, hrequests, hmore, List.map_append]
    · rw [List.length_append, List.length_cons]
      omega
    · rw [List.flatten_append, List.flatMap_cons]
      exact hsublist.append hkeys

end

/-- The requests of a call for names are made by its jobs, at most one by each, of which nothing is
made again but what failed on the way. If nothing was tried again, there are no more requests than
jobs, and no name is sent twice. -/
structure PostsByJobs (r : Remote σ) (w : Workers σ) (names : List String)
    (jobs : List (JobRun σ String (List Profile))) (events : List Event) : Prop where
  traffic_eq : traffic events = jobs.flatMap fun j => traffic j.outcome.events
  posts_once : ∀ j ∈ jobs, j.PostsOnce r (min w.jobSize Remote.namesPerRequest)
  steady : (∀ request, ¬ r.Fails request) → ∀ e ∈ events, e.isPause = false
  each_once : (∀ e ∈ events, e.isPause = false) →
    let size := (min w.jobSize Remote.namesPerRequest).toNat
    (∀ j ∈ jobs, (requestsOf j.outcome.events).length ≤ 1) ∧
    ∃ bodies : List (List String),
      requestsOf events = bodies.map (.profiles r.settings.profilesUrl) ∧
      bodies.length ≤ (names.eraseDups.length + size - 1) / size ∧
      bodies.flatten.Nodup ∧ ∀ name ∈ bodies.flatten, name ∈ names

theorem Worked.traffic_eq {K α β : Type} {work : List K → Lookup σ α} {parts : List (List K)}
    {s : σ} {call : Lookup σ β} {jobs : List (JobRun σ K α)} (h : Worked work parts s call jobs) :
    traffic (call.run s).events = jobs.flatMap fun j => traffic j.outcome.events := by
  obtain ⟨logged, hevents, hlogs⟩ := h.events_eq
  rw [hevents, traffic_append, traffic_flatMap, traffic_of_logs hlogs, List.append_nil]

section

variable {r : Remote σ} {w : Workers σ} {names : List String} {s : σ}
  {call : Lookup σ (List Profile)} {jobs : List (JobRun σ String (List Profile))}
  {work : List String → Lookup σ (List Profile)} {parts : List (List String)}

theorem Worked.postsByJobs (h : Worked work parts s call jobs)
    (hparts : w.jobs Remote.namesPerRequest (Batch.unique names) = .ok parts)
    (hjobs : ∀ j ∈ jobs, j.PostsOnce r (min w.jobSize Remote.namesPerRequest)) :
    PostsByJobs r w names jobs (call.run s).events where
  traffic_eq := h.traffic_eq
  posts_once := hjobs
  steady hsteady := by
    refine isPause_of_traffic fun e he => ?_
    rw [h.traffic_eq] at he
    obtain ⟨j, hj, hmem⟩ := List.mem_flatMap.mp he
    exact (hjobs j hj).no_pause hsteady e hmem
  each_once hpause := by
    intro size
    have hbody : ∀ j ∈ jobs, ∃ bodies : List (List String),
        requestsOf j.outcome.events = bodies.map (.profiles r.settings.profilesUrl) ∧
          bodies.length ≤ 1 ∧ bodies.flatten.Sublist j.keys := by
      refine fun j hj => (hjobs j hj).exists_body fun e he => hpause e ?_
      have hmem : e ∈ traffic (call.run s).events := by
        rw [h.traffic_eq]
        exact List.mem_flatMap.mpr ⟨j, hj, he⟩
      exact List.mem_of_mem_filter hmem
    obtain ⟨bodies, hrequests, hlength, hsublist⟩ := JobRun.exists_bodies hbody
    have hkeys : (jobs.flatMap JobRun.keys).Perm (Batch.unique names) := by
      rw [← Workers.flatten_of_jobs hparts]
      exact h.flatMap_keys_perm
    refine ⟨fun j hj => ?_, bodies, ?_, ?_, ?_, fun name hname => ?_⟩
    · obtain ⟨posted, hposted, hone, -⟩ := hbody j hj
      rwa [hposted, List.length_map]
    · rw [← requestsOf_traffic, h.traffic_eq, requestsOf_flatMap, ← hrequests]
      exact List.flatMap_congr fun j _ => requestsOf_traffic _
    · rwa [h.length_eq, Workers.length_of_jobs hparts, Batch.unique_eq_eraseDups] at hlength
    · exact (hkeys.nodup_iff.mpr (Batch.nodup_unique names)).sublist hsublist
    · rw [← Batch.mem_unique, ← hkeys.mem_iff]
      exact hsublist.subset hname

end

/-! ## The whole chain -/

/-- The names are handed over in jobs, and the requests are made by these. -/
def RequestsByJobs (host : Option (Registry σ)) (cache : Cache σ) (pinned : Cell σ LocalMap)
    (remote : Remote σ) (caseSensitive : Bool) (w : Workers σ) (names : List String) (s : σ)
    (call : Lookup σ (List Profile)) : Prop :=
  ∃ parts jobs, w.CutsInto Remote.namesPerRequest names parts ∧
    Worked (Source.forwarding cache (Source.combined caseSensitive
      (Pipeline.members host cache pinned remote))).byName.all parts s call jobs ∧
    PostsByJobs remote w names jobs (call.run s).events

theorem Pipeline.requestsByJobs {host : Option (Registry σ)} {cache : Cache σ}
    {pinned : Cell σ LocalMap} {remote : Remote σ} {w : Workers σ}
    (hhost : ∀ registry, host = some registry → registry.Quiet) (hcache : cache.Quiet)
    (hremote : remote.Plain) (hready : w.Ready Remote.namesPerRequest) (caseSensitive : Bool)
    (names : List String) (s : σ) :
    RequestsByJobs host cache pinned remote caseSensitive w names s
      ((chain host cache pinned remote caseSensitive w).byName.all names) := by
  have hchain : (chain host cache pinned remote caseSensitive w).byName.all names =
      w.findAll Remote.namesPerRequest (Source.forwarding cache (Source.combined caseSensitive
        (members host cache pinned remote))).byName names := by
    rw [← limit_members host cache pinned remote]
    rfl
  have hparts := hready.jobs_eq (Batch.unique names)
  have hworked := (Workers.findAll_run_ok (q := (Source.forwarding cache
    (Source.combined caseSensitive (members host cache pinned remote))).byName) hparts
    hready.complete hready.neverCancelled s).1
  have hcuts := hready.cutsInto names
  rw [hchain]
  refine ⟨_, _, hcuts, hworked, hworked.postsByJobs hparts fun j hj => ?_⟩
  obtain ⟨before, after, hsplit⟩ := List.append_of_mem hj
  have hsize := hcuts.length_le j.keys (hworked.keys_mem hj)
  have hfits : j.keys.length ≤ Remote.namesPerRequest := by omega
  rw [JobRun.PostsOnce, hworked.outcome_eq before j after hsplit]
  rcases traffic_job hhost hcache hremote hfits (JobRun.leftBy s before) with
    hnone | ⟨body, hne, hnodup, hsublist, hexchange⟩
  · exact Or.inl hnone
  · have hlength := hsublist.length_le
    exact Or.inr ⟨body, hne, hnodup, hsublist, by omega, hexchange⟩

theorem Resources.Supplies.quiet {r : Resources σ} {given : Option (Cache σ)} {cache : Cache σ}
    (h : r.Supplies given cache) (hgiven : ∀ cache, given = some cache → cache.Quiet) :
    cache.Quiet := by
  cases h with
  | given cache => exact hgiven cache rfl
  | memory => exact Cache.quiet_memory r.memory
  | stored c => exact Cache.quiet_stored c

/-- **A pipeline posts each name once.** Whatever settings a pipeline is set up from, whatever its
caches, pinned profiles and registry hold and the remote service answers: the names of a batch are
cut into jobs, and each job posts at most one body, of some of its own names, that is no larger than
a job and a request may be. A body is sent again only if it failed on the way; where none is, there
are no more requests than jobs, and no name is sent twice. -/
theorem pipeline_posts_each_name_once (r : Resources σ) (settings : Settings)
    (given : Option (Cache σ)) (s₀ : σ) (p : Pipeline σ)
    (hbuilt : ((Pipeline.ofSettings r settings given).run s₀).result = .ok p)
    (hcomplete : r.schedule.Complete) (hsend : ∀ request, (r.send request).Quiet)
    (hhost : ∀ registry, p.host = some registry → registry.Quiet)
    (hgiven : ∀ cache, given = some cache → cache.Quiet) (names : List String) (s : σ) :
    p.workers.jobSize = settings.jobSize ∧
      RequestsByJobs p.host p.cache r.pinned p.remote settings.caseSensitive p.workers names s
        (p.service.byName.all names) := by
  have hparts := Pipeline.builtFrom_of_ofSettings hbuilt
  have hcache : p.cache.Quiet := hparts.cache_from.quiet hgiven
  have hremote : p.remote.Plain := by
    refine ⟨fun request => ?_, hparts.uncancelled⟩
    rw [hparts.send_eq]
    exact hsend request
  have hready : p.workers.Ready Remote.namesPerRequest := by
    rw [hparts.workers_eq]
    exact ⟨hparts.jobSize_pos, by decide, by decide, rfl, hcomplete, fun _ hask => by cases hask⟩
  refine ⟨by rw [hparts.workers_eq], ?_⟩
  rw [hparts.service_eq]
  exact Pipeline.requestsByJobs hhost hcache hremote hready settings.caseSensitive names s

namespace ThreeNames

def resources : Resources Session :=
  Session.resources (fun _ => return .holding (.list [])) []

def settings : Settings where
  profilesUrl := RemoteSettings.defaultProfilesUrl RemoteSettings.defaultAgent
  historyUrl := RemoteSettings.defaultHistoryUrl
  retries := 5
  retryDelayMs := 50
  timeout := none
  threads := 4
  jobSize := 2
  cachePath := none
  caseSensitive := false
  registry := none
  logLevel := "INFO"

def names : List String := ["Ash", "Birch", "Ash", "Cedar"]

end ThreeNames

/-- Of three names in jobs of two, two are posted in one body and one in another. -/
theorem pipeline_posts_each_name_once_cedar :
    ∃ p, ((Pipeline.ofSettings ThreeNames.resources ThreeNames.settings none).run
        Session.new).result = .ok p ∧ p.host = none ∧
      RequestsByJobs p.host p.cache ThreeNames.resources.pinned p.remote false p.workers
        ThreeNames.names Session.new (p.service.byName.all ThreeNames.names) ∧
      requestsOf ((p.service.byName.all ThreeNames.names).run Session.new).events =
        [.profiles p.remote.settings.profilesUrl ["Ash", "Birch"],
          .profiles p.remote.settings.profilesUrl ["Cedar"]] := by
  have hrun : ((Pipeline.ofSettings ThreeNames.resources ThreeNames.settings none).run
      Session.new).result.toOption.map (fun p => (p.host.isNone, decide
        (requestsOf ((p.service.byName.all ThreeNames.names).run Session.new).events =
          [.profiles p.remote.settings.profilesUrl ["Ash", "Birch"],
            .profiles p.remote.settings.profilesUrl ["Cedar"]]))) = some (true, true) := by
    decide +kernel
  obtain ⟨p, hp, hfacts⟩ := Option.map_eq_some_iff.mp hrun
  obtain ⟨hnone, hposted⟩ := Prod.mk.inj hfacts
  have hbuilt := Except.eq_ok_of_toOption hp
  have hhost : p.host = none := Option.isNone_iff_eq_none.mp hnone
  have hquiet : ∀ request, (ThreeNames.resources.send request).Quiet := fun _ _ => rfl
  have hregistry : ∀ registry, p.host = some registry → registry.Quiet := by
    rw [hhost]
    exact fun _ h => by cases h
  exact ⟨p, hbuilt, hhost, (pipeline_posts_each_name_once ThreeNames.resources ThreeNames.settings
    none Session.new p hbuilt Schedule.complete_inOrder hquiet hregistry (fun _ h => by cases h)
    ThreeNames.names Session.new).2, of_decide_eq_true hposted⟩

end PlayerLookup
