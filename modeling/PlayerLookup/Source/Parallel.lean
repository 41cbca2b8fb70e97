import PlayerLookup.Batch.Parts
import PlayerLookup.Source

/-! The source that cuts large batches into jobs for several workers. All jobs are run, in the order
in which the workers take them up; then their results are collected in the order in which they
are seen to be complete. The first failure collected is the failure of the whole, once every job
has been heard. -/

set_option autoImplicit false

namespace PlayerLookup

variable {σ K α : Type}

/-- How the workers go about a number of jobs: in which order they take them up, and in which
groups the jobs are seen to be complete. -/
structure Schedule where
  running : Nat → List Nat
  polls : Nat → List (List Nat)

/-- One job after the other, all seen to be complete together. -/
def Schedule.inOrder : Schedule where
  running n := List.range n
  polls n := if n = 0 then [] else [List.range n]

/-- Workers and what they are given. -/
structure Workers (σ : Type) where
  jobSize : Int
  schedule : Schedule
  /-- Whether they have been stopped and take no more jobs. -/
  stopped : Bool
  /-- How to ask whether waiting for them has been cancelled. -/
  cancelled? : Option (Lookup σ Bool)

namespace Workers

/-- The log record of a failure that comes after the first. -/
def warnIgnored (f : Failure) : Lookup σ Unit :=
  Lookup.log .debug .parallelSource ("Additional lookup job failure ignored: " ++ f.message) none

def effectiveSize (w : Workers σ) (limit : Int) : Int := min w.jobSize limit

def jobs (w : Workers σ) (limit : Int) (keys : List K) : Except Failure (List (List K)) := do
  let parts ← Batch.parts (w.effectiveSize limit) keys
  if w.stopped && !parts.isEmpty then throw .workersStopped
  return parts

/-- The jobs in the order in which they are taken up, with their numbers. -/
def taken (w : Workers σ) (jobs : List (List K)) : List (Nat × List K) :=
  (w.schedule.running jobs.length).filterMap fun i => (jobs[i]?).map fun job => (i, job)

/-- The results of completed jobs, the ones that did not fail, and the first failure. A failure
that may not be caught ends the collection. -/
def collectGroup (outcomes : List (Except Failure α)) (done : List α) (first : Option Failure) :
    Lookup σ (List α × Option Failure) :=
  match outcomes with
  | [] => return (done, first)
  | .ok a :: rest => collectGroup rest (done ++ [a]) first
  | .error f :: rest =>
    if !f.isOrdinary then Lookup.fail f
    else match first with
      | none => collectGroup rest done (some f)
      | some _ => do
        warnIgnored f
        collectGroup rest done first

/-- The results of groups of completed jobs; before each group the workers' owner may cancel. -/
def collectGroups (w : Workers σ) (groups : List (List (Except Failure α))) (done : List α)
    (first : Option Failure) : Lookup σ (List α × Option Failure) :=
  match groups with
  | [] => return (done, first)
  | group :: rest => do
    let cancelled ← w.cancelled?.getD (return false)
    if cancelled then Lookup.fail .jobsCancelled
    else do
      let r ← collectGroup group done first
      w.collectGroups rest r.1 r.2

/-- The failure of the whole for the failure of a job. -/
def wholeFailure (f : Failure) : Failure :=
  if f.isIn .inputOutput || f.isIn .lookup then f else .jobFailed f

/-- The results of all jobs, in the order in which they are seen to be complete. -/
def collect (w : Workers σ) (outcomes : List (Nat × Except Failure α)) : Lookup σ (List α) := do
  let groups := (w.schedule.polls outcomes.length).map
    (·.filterMap fun i => outcomes.lookup i)
  let r ← w.collectGroups groups [] none
  match r.2 with
  | some f => Lookup.fail (wholeFailure f)
  | none => return r.1

def logSubmitted (jobs keys : Nat) : Lookup σ Unit :=
  Lookup.log .debug .parallelSource ("Submitted " ++ toString jobs ++ " lookup jobs for "
    ++ toString keys ++ " keys") none

def runAll (jobs : List (Nat × List K)) (work : List K → Lookup σ α) :
    Lookup σ (List (Nat × Except Failure α)) :=
  Lookup.forEach jobs fun job => do
    let outcome ← (work job.2).attempt
    return (job.1, outcome)

def visitAll (jobs : List (Nat × List K)) (work : List K → Delivery σ α) :
    Delivery σ (List (Nat × Except Failure α)) :=
  match jobs with
  | [] => return []
  | job :: rest => do
    let outcome ← (work job.2).attempt
    let more ← visitAll rest work
    return (job.1, outcome) :: more

def findAll [DecidableEq K] (w : Workers σ) (limit : Int) (q : Queries σ K) (keys : List K) :
    Lookup σ (List Profile) := do
  let distinct := Batch.unique keys
  let jobs ← Lookup.ofExcept (w.jobs limit distinct)
  let outcomes ← runAll (w.taken jobs) q.all
  logSubmitted jobs.length distinct.length
  let results ← w.collect outcomes
  return Profile.distinct results.flatten

def visit [DecidableEq K] (w : Workers σ) (limit : Int) (q : Queries σ K) (keys : List K) :
    Delivery σ Unit := do
  let distinct := Batch.unique keys
  let jobs ← Delivery.ofLookup (Lookup.ofExcept (w.jobs limit distinct))
  let outcomes ← visitAll (w.taken jobs) q.visit
  Delivery.ofLookup do
    logSubmitted jobs.length distinct.length
    let _ ← w.collect outcomes

def queries [DecidableEq K] (w : Workers σ) (limit : Int) (q : Queries σ K) : Queries σ K where
  one := q.one
  all := w.findAll limit q
  visit := w.visit limit q

def checkJobSize (size : Int) : Except Failure Int :=
  if size < 1 then .error (.misuse (.jobSize size)) else .ok size

def checkThreads (threads : Amount) : Except Failure Unit :=
  if threads.isNotPositive then .error (.misuse (.threads threads)) else .ok ()

end Workers

def Source.parallel (w : Workers σ) (s : Source σ) : Source σ where
  label := "ParallelProfileService"
  limit := s.limit
  byName := w.queries s.limit s.byName
  byId := w.queries s.limit s.byId

end PlayerLookup
