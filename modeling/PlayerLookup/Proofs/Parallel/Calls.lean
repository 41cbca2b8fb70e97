import PlayerLookup.Proofs.Foundations.Dictionary
import PlayerLookup.Proofs.Parallel.Hearing

/-! A call to the workers as a whole, be it for a batch or for a visitor: each part of the keys is
handed over once, and what comes of the call is decided by hearing the jobs in the order in which
they are seen to be complete. -/

set_option autoImplicit false

namespace PlayerLookup

variable {σ K α β : Type}

/-- A call handed each of the parts over once, as a job that was run from the state that the jobs
before it left. Besides these jobs only the workers' own log is seen of it, and the state is left
as the last job left it. -/
structure Worked (work : List K → Lookup σ α) (parts : List (List K)) (s : σ) (call : Lookup σ β)
    (jobs : List (JobRun σ K α)) : Prop where
  each_once : (jobs.map fun j => (j.keys, j.number)).Perm parts.zipIdx
  outcome_eq : ∀ before j after, jobs = before ++ j :: after →
    j.outcome = (work j.keys).run (JobRun.leftBy s before)
  events_eq : ∃ logged, (call.run s).events = jobs.flatMap (·.outcome.events) ++ logged ∧
    ∀ e ∈ logged, e.IsLogOf .parallelSource
  state_eq : (call.run s).state = JobRun.leftBy s jobs

namespace Worked

variable {work : List K → Lookup σ α} {parts : List (List K)} {s : σ} {call : Lookup σ β}
  {jobs : List (JobRun σ K α)}

theorem map {γ : Type} (h : Worked work parts s call jobs) (f : β → γ) :
    Worked work parts s (do return f (← call)) jobs := by
  have hrun := Lookup.run_map call f s
  refine ⟨h.each_once, h.outcome_eq, ?_, ?_⟩
  · rw [hrun]
    exact h.events_eq
  · rw [hrun]
    exact h.state_eq

theorem numbers_perm (h : Worked work parts s call jobs) :
    (jobs.map JobRun.number).Perm (List.range parts.length) := by
  have hperm := h.each_once.map Prod.snd
  rw [List.map_map, List.zipIdx_map_snd, ← List.range_eq_range'] at hperm
  exact hperm

theorem keys_perm (h : Worked work parts s call jobs) : (jobs.map JobRun.keys).Perm parts := by
  have hperm := h.each_once.map Prod.fst
  rw [List.map_map, List.zipIdx_map_fst] at hperm
  exact hperm

theorem keys_mem (h : Worked work parts s call jobs) {j : JobRun σ K α} (hj : j ∈ jobs) :
    j.keys ∈ parts := h.keys_perm.mem_iff.mp (List.mem_map_of_mem hj)

theorem flatMap_keys_perm (h : Worked work parts s call jobs) :
    (jobs.flatMap JobRun.keys).Perm parts.flatten := by
  rw [List.flatMap_def]
  exact h.keys_perm.flatten

theorem pairwise_disjoint_keys (h : Worked work parts s call jobs) (hparts : parts.flatten.Nodup) :
    jobs.Pairwise fun i j => i.keys.Disjoint j.keys :=
  (List.nodup_flatMap.mp (h.flatMap_keys_perm.nodup_iff.mpr hparts)).2

theorem length_eq (h : Worked work parts s call jobs) : jobs.length = parts.length := by
  have hlength := h.numbers_perm.length_eq
  rwa [List.length_map, List.length_range] at hlength

/-- What holds before the first job, and from each job to the next, holds throughout the call. -/
theorem invariant (h : Worked work parts s call jobs) {P : List (JobRun σ K α) → σ → Prop}
    (hfirst : P [] s)
    (hnext : ∀ before j, j ∈ jobs → P before (JobRun.leftBy s before) →
      j.outcome = (work j.keys).run (JobRun.leftBy s before) → P (before ++ [j]) j.outcome.state)
    {before after : List (JobRun σ K α)} (hjobs : jobs = before ++ after) :
    P before (JobRun.leftBy s before) := by
  -- By induction on the jobs that were run, from the last one back.
  induction before using List.reverseRecOn generalizing after with
  | nil => exact hfirst
  | append_singleton before j ih =>
    rw [List.append_assoc, List.singleton_append] at hjobs
    have hleft : JobRun.leftBy s (before ++ [j]) = j.outcome.state := by
      rw [JobRun.leftBy, List.foldl_append]
      rfl
    have hj : j ∈ jobs := by
      rw [hjobs]
      exact List.mem_append_right _ List.mem_cons_self
    rw [hleft]
    exact hnext before j hj (ih hjobs) (h.outcome_eq before j after hjobs)

end Worked

namespace Workers

variable {w : Workers σ} {limit : Int}

/-! ## The course of a call -/

/-- Hearing the jobs of a call that has submitted them. -/
def hearing (w : Workers σ) (parts keys : Nat) (outcomes : List (Nat × Except Failure α)) :
    Lookup σ (List α) := do
  logSubmitted parts keys
  w.collect outcomes

theorem hearing_run (h : w.NeverCancelled) (parts keys : Nat)
    (outcomes : List (Nat × Except Failure α)) (s : σ) :
    (w.hearing parts keys outcomes).OnlyLogs .parallelSource s ∧
      ((w.hearing parts keys outcomes).run s).result =
        verdict (heard [] none (w.inHearingOrder outcomes)) := by
  have hlog : (logSubmitted parts keys : Lookup σ Unit).OnlyLogs .parallelSource s :=
    Lookup.onlyLogs_log .debug .parallelSource _ none s
  have hcollect := collect_run h outcomes s
  exact ⟨hlog.bind fun _ => hcollect.1, (hlog.result_bind _).trans hcollect.2⟩

/-- What a batch and the giving of profiles to a visitor have in common. -/
def workThrough [DecidableEq K] (w : Workers σ) (limit : Int) (work : List K → Lookup σ α)
    (keys : List K) : Lookup σ (List α) := do
  let parts ← Lookup.ofExcept (w.jobs limit (Batch.unique keys))
  let outcomes ← runAll (w.taken parts) work
  w.hearing parts.length (Batch.unique keys).length outcomes

theorem findAll_eq [DecidableEq K] (q : Queries σ K) (keys : List K) :
    w.findAll limit q keys =
      (do return Profile.distinct (← w.workThrough limit q.all keys).flatten) := by
  unfold findAll workThrough hearing
  simp only [LawfulMonad.bind_assoc]

theorem run_visit_eq [DecidableEq K] (q : Queries σ K) (keys : List K)
    (visitor : Profile → Lookup σ Document) :
    (w.visit limit q keys).run visitor =
      (do let _ ← w.workThrough limit (fun ks => (q.visit ks).run visitor) keys) := by
  unfold visit workThrough hearing
  simp only [Delivery.run_bind, Delivery.run_ofLookup, run_visitAll, LawfulMonad.bind_assoc]

/-- The jobs that a call runs for parts of the keys, in the order in which they are taken up. -/
def jobsOf (w : Workers σ) (work : List K → Lookup σ α) (s : σ) (parts : List (List K)) :
    List (JobRun σ K α) :=
  JobRun.inTurn work s (w.taken parts)

def outcomesOf (jobs : List (JobRun σ K α)) : List (Nat × Except Failure α) :=
  jobs.map fun j => (j.number, j.outcome.result)

theorem workThrough_run [DecidableEq K] {keys : List K} {parts : List (List K)}
    (hparts : w.jobs limit (Batch.unique keys) = .ok parts) (hcomplete : w.schedule.Complete)
    (hnever : w.NeverCancelled) (work : List K → Lookup σ α) (s : σ) :
    Worked work parts s (w.workThrough limit work keys) (w.jobsOf work s parts) ∧
      ((w.workThrough limit work keys).run s).result =
        verdict (heard [] none (w.inHearingOrder (outcomesOf (w.jobsOf work s parts)))) := by
  have hcut : (Lookup.ofExcept (w.jobs limit (Batch.unique keys)) :
      Lookup σ (List (List K))).run s = ⟨[], s, .ok parts⟩ := by
    rw [hparts]
    rfl
  have hjobs := runAll_run work (w.taken parts) s
  obtain ⟨⟨hstate, hevents⟩, hresult⟩ := hearing_run hnever parts.length (Batch.unique keys).length
    (outcomesOf (w.jobsOf work s parts)) (JobRun.leftBy s (w.jobsOf work s parts))
  have hmap := JobRun.map_inTurn work s (w.taken parts)
  have hperm := taken_perm hcomplete parts
  rw [← hmap, List.map_map] at hperm
  unfold workThrough
  refine ⟨⟨hperm, fun before j after h => JobRun.outcome_of_inTurn work h, ?_, ?_⟩, ?_⟩
  all_goals rw [Lookup.run_bind_quiet hcut, Lookup.run_bind_ok hjobs]
  · exact ⟨_, rfl, hevents⟩
  · exact hstate
  · exact hresult

/-- The call hands the distinct keys over in parts that fit a job, each once. -/
def SharesOut [DecidableEq K] (w : Workers σ) (limit : Int) (work : List K → Lookup σ α)
    (keys : List K) (s : σ) (call : Lookup σ β) : Prop :=
  ∃ parts jobs, w.CutsInto limit keys parts ∧ Worked work parts s call jobs

theorem sharesOut_visit [DecidableEq K] (h : w.Ready limit) (q : Queries σ K) (keys : List K)
    (s : σ) (visitor : Profile → Lookup σ Document) :
    w.SharesOut limit (fun part => (q.visit part).run visitor) keys s
      ((w.visit limit q keys).run visitor) := by
  have hworked := (workThrough_run (h.jobs_eq (Batch.unique keys)) h.complete h.neverCancelled
    (fun part => (q.visit part).run visitor) s).1
  rw [run_visit_eq]
  exact ⟨_, _, h.cutsInto keys, hworked.map _⟩

/-! ## Hearing all jobs -/

variable {jobs : List (JobRun σ K α)}

theorem mem_outcomesOf {i : Nat} {result : Except Failure α} :
    (i, result) ∈ outcomesOf jobs ↔ ∃ j ∈ jobs, j.number = i ∧ j.outcome.result = result := by
  rw [outcomesOf, List.mem_map]
  simp only [Prod.mk.injEq]

theorem lookup_outcomesOf (hn : (jobs.map JobRun.number).Nodup) {i : Nat}
    {result : Except Failure α} :
    (outcomesOf jobs).lookup i = some result ↔
      ∃ j ∈ jobs, j.number = i ∧ j.outcome.result = result := by
  have hkeys : (Dictionary.keys (outcomesOf jobs)).Nodup := by
    rw [Dictionary.keys, outcomesOf, List.map_map]
    exact hn
  exact (Dictionary.get?_eq_some_iff hkeys i result).trans mem_outcomesOf

theorem mem_inHearingOrder (hcomplete : w.schedule.Complete)
    (hn : (jobs.map JobRun.number).Perm (List.range jobs.length)) {result : Except Failure α} :
    result ∈ w.inHearingOrder (outcomesOf jobs) ↔ ∃ j ∈ jobs, j.outcome.result = result := by
  have hnodup : (jobs.map JobRun.number).Nodup := hn.nodup_iff.mpr List.nodup_range
  have hlength : (outcomesOf jobs).length = jobs.length := List.length_map _
  rw [inHearingOrder, List.mem_filterMap, hlength]
  constructor
  · rintro ⟨i, -, hi⟩
    obtain ⟨j, hj, -, hresult⟩ := (lookup_outcomesOf hnodup).mp hi
    exact ⟨j, hj, hresult⟩
  · rintro ⟨j, hj, hresult⟩
    refine ⟨j.number, ?_, (lookup_outcomesOf hnodup).mpr ⟨j, hj, rfl, hresult⟩⟩
    rw [(hcomplete.polls_perm jobs.length).mem_iff, ← hn.mem_iff]
    exact List.mem_map_of_mem hj

end Workers

/-- The job failed, and no job before it in the order did. -/
structure JobRun.FailsFirst (order : List Nat) (jobs : List (JobRun σ K α)) (j : JobRun σ K α)
    (f : Failure) : Prop where
  mem : j ∈ jobs
  failed : j.failure? = some f
  first : ∃ earlier later, order = earlier ++ j.number :: later ∧
    ∀ i ∈ jobs, i.number ∈ earlier → i.failure? = none

/-- If the job that is the first in the order failed, no other is the first that did. -/
theorem JobRun.FailsFirst.eq_head {jobs : List (JobRun σ K α)} {i j : JobRun σ K α} {f : Failure}
    {rest : List Nat} (h : JobRun.FailsFirst (i.number :: rest) jobs j f)
    (hn : (jobs.map JobRun.number).Nodup) (hi : i ∈ jobs) (hfailed : i.failure? ≠ none) :
    j = i := by
  obtain ⟨earlier, later, horder, hnone⟩ := h.first
  cases earlier with
  | nil => exact List.inj_on_of_nodup_map hn h.mem hi (List.cons.inj horder).1.symm
  | cons number earlier =>
    obtain ⟨rfl, -⟩ := List.cons.inj horder
    exact absurd (hnone i hi List.mem_cons_self) hfailed

namespace Workers

variable {w : Workers σ} {jobs : List (JobRun σ K α)}

/-- The first failure that is heard is that of the failing job that is the first to be seen. -/
theorem failsFirst_of_heard (hn : (jobs.map JobRun.number).Nodup) {f : Failure}
    (h : (w.inHearingOrder (outcomesOf jobs)).findSome? failureOf = some f) :
    ∃ j, JobRun.FailsFirst (w.schedule.polls jobs.length).flatten jobs j f := by
  have hlength : (outcomesOf jobs).length = jobs.length := List.length_map _
  rw [inHearingOrder, ← List.head?_filterMap, List.filterMap_filterMap, List.head?_filterMap,
    hlength, List.findSome?_eq_some_iff] at h
  obtain ⟨earlier, i, later, horder, hi, hearlier⟩ := h
  obtain ⟨result, hlookup, hfailure⟩ := Option.bind_eq_some_iff.mp hi
  obtain ⟨j, hj, rfl, rfl⟩ := (lookup_outcomesOf hn).mp hlookup
  refine ⟨j, hj, hfailure, earlier, later, horder, fun i hi hmem => ?_⟩
  have hnone := hearlier i.number hmem
  rw [(lookup_outcomesOf hn).mpr ⟨i, hi, rfl, rfl⟩] at hnone
  exact hnone

end Workers

end PlayerLookup
