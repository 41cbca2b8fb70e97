import PlayerLookup.Proofs.Foundations.Batch
import PlayerLookup.Proofs.Foundations.Delivery
import PlayerLookup.Proofs.Foundations.Lookup
import PlayerLookup.Source.Parallel

/-! The jobs of a batch. The keys are cut into parts, and each part is one job; the jobs are run one
after the other in the order in which they are taken up, each from the state that the one before it
left, and a job that fails does not keep the others from being run. -/

set_option autoImplicit false

namespace PlayerLookup

variable {σ K α β : Type}

/-! ## What is asked of the workers -/

/-- Every job is taken up once, and once seen to be complete, in whatever order and groups. -/
structure Schedule.Complete (schedule : Schedule) : Prop where
  running_perm : ∀ n, (schedule.running n).Perm (List.range n)
  polls_perm : ∀ n, (schedule.polls n).flatten.Perm (List.range n)

namespace Workers

/-- Nobody can cancel the waiting for jobs, or somebody can and never does. -/
def NeverCancelled (w : Workers σ) : Prop :=
  ∀ ask, w.cancelled? = some ask → ∀ s, ask.run s = ⟨[], s, .ok false⟩

/-- The workers take jobs for a source with this limit, and hear of all of them. -/
structure Ready (w : Workers σ) (limit : Int) : Prop where
  jobSize_pos : 1 ≤ w.jobSize
  limit_pos : 1 ≤ limit
  limit_le : limit ≤ unlimited
  running : w.stopped = false
  complete : w.schedule.Complete
  neverCancelled : w.NeverCancelled

/-- The parts of the keys, in the order in which they are submitted: together they are the
distinct keys as they first occur, and none is empty or larger than a job may be. -/
structure CutsInto (w : Workers σ) (limit : Int) [BEq K] (keys : List K) (parts : List (List K)) :
    Prop where
  flatten_eq : parts.flatten = keys.eraseDups
  length_pos : ∀ part ∈ parts, 1 ≤ part.length
  length_le : ∀ part ∈ parts, (part.length : Int) ≤ min w.jobSize limit

variable {w : Workers σ} {limit : Int}

theorem Ready.jobs_eq (h : w.Ready limit) (keys : List K) :
    w.jobs limit keys = .ok (Batch.chunks (min w.jobSize limit).toNat keys) := by
  have hpos : ¬ min w.jobSize limit < 1 := by
    have h1 := h.jobSize_pos
    have h2 := h.limit_pos
    omega
  have hword : ¬ Word.largest < min w.jobSize limit := by
    have h3 : limit ≤ Word.largest := h.limit_le
    omega
  unfold jobs effectiveSize Batch.parts
  rw [if_neg hpos, if_neg hword, h.running]
  rfl

theorem parts_of_jobs {keys : List K} {parts : List (List K)} (h : w.jobs limit keys = .ok parts) :
    1 ≤ min w.jobSize limit ∧ parts = Batch.chunks (min w.jobSize limit).toNat keys := by
  unfold jobs Batch.parts at h
  by_cases hsmall : w.effectiveSize limit < 1
  · rw [if_pos hsmall] at h
    cases h
  · rw [if_neg hsmall] at h
    by_cases hlarge : Word.largest < w.effectiveSize limit
    · rw [if_pos hlarge] at h
      cases h
    · rw [if_neg hlarge] at h
      change (if _ then _ else _) = _ at h
      split at h
      · cases h
      · cases h
        exact ⟨Int.not_lt.mp hsmall, rfl⟩

theorem flatten_of_jobs {keys : List K} {parts : List (List K)}
    (h : w.jobs limit keys = .ok parts) :
    parts.flatten = keys := by
  rw [(parts_of_jobs h).2]
  exact Batch.flatten_chunks _ keys

theorem length_of_jobs {keys : List K} {parts : List (List K)} (h : w.jobs limit keys = .ok parts) :
    parts.length =
      (keys.length + (min w.jobSize limit).toNat - 1) / (min w.jobSize limit).toNat := by
  obtain ⟨hpos, hparts⟩ := parts_of_jobs h
  rw [hparts]
  exact Batch.length_chunks (by omega) keys

theorem cutsInto_of_jobs [DecidableEq K] {keys : List K} {parts : List (List K)}
    (h : w.jobs limit (Batch.unique keys) = .ok parts) : w.CutsInto limit keys parts := by
  obtain ⟨hpos, hparts⟩ := parts_of_jobs h
  have hsize : 1 ≤ (min w.jobSize limit).toNat := by omega
  refine ⟨?_, fun part hpart => ?_, fun part hpart => ?_⟩
  · rw [flatten_of_jobs h, Batch.unique_eq_eraseDups]
  · rw [hparts] at hpart
    exact (Batch.length_of_mem_chunks hsize hpart).1
  · rw [hparts] at hpart
    have hle := (Batch.length_of_mem_chunks hsize hpart).2
    omega

theorem Ready.cutsInto [DecidableEq K] (h : w.Ready limit) (keys : List K) :
    w.CutsInto limit keys (Batch.chunks (min w.jobSize limit).toNat (Batch.unique keys)) :=
  cutsInto_of_jobs (h.jobs_eq (Batch.unique keys))

end Workers

theorem Schedule.complete_inOrder : Schedule.inOrder.Complete where
  running_perm _ := List.Perm.refl _
  polls_perm n := by
    change (if n = 0 then [] else [List.range n]).flatten.Perm _
    by_cases hn : n = 0
    · rw [if_pos hn, hn]
      exact List.Perm.refl _
    · rw [if_neg hn, List.flatten_singleton]

/-- Jobs taken up from the last to the first, and each seen to be complete on its own. -/
def Schedule.backwards : Schedule where
  running n := (List.range n).reverse
  polls n := (List.range n).reverse.map fun i => [i]

theorem Schedule.complete_backwards : Schedule.backwards.Complete where
  running_perm _ := List.reverse_perm _
  polls_perm n := by
    change ((List.range n).reverse.map fun i => [i]).flatten.Perm _
    rw [← List.flatMap_def, List.flatMap_singleton']
    exact List.reverse_perm _

/-- Jobs done one after the other, and seen to be complete from the last to the first. -/
def Schedule.lastSeenFirst : Schedule := ⟨Schedule.inOrder.running, Schedule.backwards.polls⟩

theorem Schedule.complete_lastSeenFirst : Schedule.lastSeenFirst.Complete :=
  ⟨Schedule.complete_inOrder.running_perm, Schedule.complete_backwards.polls_perm⟩

/-- Workers that somebody could cancel and nobody does. -/
def Workers.backwards (size : Int) : Workers σ where
  jobSize := size
  schedule := .backwards
  stopped := false
  cancelled? := some (return false)

theorem Workers.ready_backwards {size limit : Int} (hsize : 1 ≤ size) (hlimit : 1 ≤ limit)
    (hle : limit ≤ unlimited) : (Workers.backwards size : Workers σ).Ready limit where
  jobSize_pos := hsize
  limit_pos := hlimit
  limit_le := hle
  running := rfl
  complete := Schedule.complete_backwards
  neverCancelled ask h s := by
    cases h
    rfl

/-! ## Jobs that were run -/

/-- The failure that a result is, if it is one. -/
def failureOf : Except Failure α → Option Failure
  | .ok _ => none
  | .error f => some f

/-- A job that was run: its number in the order of submission, its keys, and how it went. -/
structure JobRun (σ K α : Type) where
  number : Nat
  keys : List K
  outcome : Run σ α

namespace JobRun

/-- The failure that ended the job, if one did. -/
def failure? (j : JobRun σ K α) : Option Failure := failureOf j.outcome.result

def leftBy (s : σ) (jobs : List (JobRun σ K α)) : σ := jobs.foldl (fun _ j => j.outcome.state) s

theorem leftBy_cons (s : σ) (j : JobRun σ K α) (jobs : List (JobRun σ K α)) :
    leftBy s (j :: jobs) = leftBy j.outcome.state jobs := rfl

def inTurn (work : List K → Lookup σ α) (s : σ) : List (Nat × List K) → List (JobRun σ K α)
  | [] => []
  | (number, keys) :: rest =>
    ⟨number, keys, (work keys).run s⟩ :: inTurn work ((work keys).run s).state rest

variable (work : List K → Lookup σ α)

theorem map_inTurn (s : σ) (jobs : List (Nat × List K)) :
    (inTurn work s jobs).map (fun j => (j.number, j.keys)) = jobs := by
  induction jobs generalizing s with
  | nil => rfl
  | cons job rest ih => rw [inTurn, List.map_cons, ih]

theorem outcome_of_inTurn {s : σ} {jobs : List (Nat × List K)} {before after : List (JobRun σ K α)}
    {j : JobRun σ K α} (h : inTurn work s jobs = before ++ j :: after) :
    j.outcome = (work j.keys).run (leftBy s before) := by
  induction jobs generalizing s before with
  | nil => simp [inTurn] at h
  | cons job rest ih =>
    obtain ⟨number, keys⟩ := job
    rw [inTurn] at h
    obtain ⟨rfl, hcons⟩ | ⟨tail, rfl, hrest⟩ := List.cons_eq_append_iff.mp h
    · obtain ⟨rfl, -⟩ := List.cons.inj hcons
      rfl
    · rw [leftBy_cons]
      exact ih hrest

end JobRun

namespace Workers

variable (work : List K → Lookup σ α)

theorem runAll_cons (job : Nat × List K) (rest : List (Nat × List K)) :
    runAll (job :: rest) work = (do
      let outcome ← (work job.2).attempt
      let more ← runAll rest work
      return (job.1, outcome) :: more) := by
  rw [runAll, Lookup.forEach, LawfulMonad.bind_assoc]
  congr 1

theorem runAll_run (jobs : List (Nat × List K)) (s : σ) :
    (runAll jobs work).run s =
      ⟨(JobRun.inTurn work s jobs).flatMap (·.outcome.events),
        JobRun.leftBy s (JobRun.inTurn work s jobs),
        .ok ((JobRun.inTurn work s jobs).map fun j => (j.number, j.outcome.result))⟩ := by
  induction jobs generalizing s with
  | nil => rfl
  | cons job rest ih =>
    have hjob : (work job.2).attempt.run s =
        ⟨((work job.2).run s).events, ((work job.2).run s).state,
          .ok ((work job.2).run s).result⟩ := rfl
    have hrest := ih ((work job.2).run s).state
    rw [runAll_cons, Lookup.run_bind_ok hjob, Lookup.run_bind_ok hrest]
    simp only [Lookup.run_pure, List.append_nil]
    rfl

theorem run_visitAll (visitor : Profile → Lookup σ Document) (jobs : List (Nat × List K))
    (visit : List K → Delivery σ α) :
    (visitAll jobs visit).run visitor = runAll jobs fun keys => (visit keys).run visitor := by
  induction jobs with
  | nil => rfl
  | cons job rest ih =>
    rw [visitAll, Delivery.run_bind, Delivery.run_attempt, runAll_cons]
    congr 1
    funext outcome
    rw [Delivery.run_bind, ih]
    rfl

/-- Of parts that are taken up in some order, each is taken up once, under its own number. -/
theorem taken_perm {w : Workers σ} (h : w.schedule.Complete) (parts : List (List K)) :
    ((w.taken parts).map Prod.swap).Perm parts.zipIdx := by
  have hrange := Batch.filterMap_range_eq_zipIdx parts
  have hperm := (h.running_perm parts.length).filterMap fun i =>
    (parts[i]?).map fun part => (part, i)
  rw [hrange] at hperm
  have hswap : (w.taken parts).map Prod.swap =
      (w.schedule.running parts.length).filterMap fun i =>
        (parts[i]?).map fun part => (part, i) := by
    rw [taken, List.map_filterMap]
    refine List.filterMap_congr fun i _ => ?_
    rw [Option.map_map]
    rfl
  rw [hswap]
  exact hperm

end Workers

end PlayerLookup
