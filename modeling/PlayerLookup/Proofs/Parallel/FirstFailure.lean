import PlayerLookup.Proofs.Parallel.Calls
import PlayerLookup.Source.Host

/-! Failures among the jobs of a call. All jobs are run, whichever fail; the call fails just if a
job does, and with the failure of the job that is the first of those that failed to be seen to be
complete, which need not be the first to be complete. Other failures than those of input and output
and the library's own are wrapped. -/

set_option autoImplicit false

namespace PlayerLookup

variable {σ K α β : Type}

/-- A call fails just if a job did. Of the first job in an order that failed it raises the failure
itself if that is one of input and output or of lookups, and otherwise one that has it as its
cause. -/
structure DecidedByFirst (order : List Nat) (jobs : List (JobRun σ K α))
    (result : Except Failure β) : Prop where
  raises_iff : (∃ f, result = .error f) ↔ ∃ j ∈ jobs, j.failure? ≠ none
  raised : (∃ j ∈ jobs, j.failure? ≠ none) → ∃ j f, JobRun.FailsFirst order jobs j f ∧
    (f.isIn .inputOutput = true ∨ f.isIn .lookup = true → result = .error f) ∧
    (¬ (f.isIn .inputOutput = true ∨ f.isIn .lookup = true) → result = .error (.jobFailed f))

theorem DecidedByFirst.map {γ : Type} {order : List Nat} {jobs : List (JobRun σ K α)}
    {result : Except Failure β} (h : DecidedByFirst order jobs result) (f : β → γ) :
    DecidedByFirst order jobs (result.map f) := by
  refine ⟨Iff.trans ?_ h.raises_iff, fun hsome => ?_⟩
  · cases result <;> simp [Except.map]
  · obtain ⟨j, e, hfirst, hsame, hwrapped⟩ := h.raised hsome
    exact ⟨j, e, hfirst, fun he => congrArg (Except.map f) (hsame he),
      fun he => congrArg (Except.map f) (hwrapped he)⟩

theorem DecidedByFirst.eq_head {jobs : List (JobRun σ K α)} {j : JobRun σ K α} {rest : List Nat}
    {result : Except Failure β} {f : Failure} (h : DecidedByFirst (j.number :: rest) jobs result)
    (hn : (jobs.map JobRun.number).Nodup) (hj : j ∈ jobs) (hf : j.failure? = some f) :
    (f.isIn .inputOutput = true ∨ f.isIn .lookup = true → result = .error f) ∧
      (¬ (f.isIn .inputOutput = true ∨ f.isIn .lookup = true) →
        result = .error (.jobFailed f)) := by
  have hfailed : j.failure? ≠ none := hf ▸ Option.some_ne_none f
  obtain ⟨i, g, hfirst, hraised⟩ := h.raised ⟨j, hj, hfailed⟩
  obtain rfl := hfirst.eq_head hn hj hfailed
  obtain rfl := Option.some.inj (hfirst.failed.symm.trans hf)
  exact hraised

namespace Workers

variable {w : Workers σ} {limit : Int}

theorem wholeFailure_same {f : Failure} (h : f.isIn .inputOutput = true ∨ f.isIn .lookup = true) :
    wholeFailure f = f := by
  rw [wholeFailure, if_pos (by simpa using h)]

theorem wholeFailure_wrapped {f : Failure}
    (h : ¬ (f.isIn .inputOutput = true ∨ f.isIn .lookup = true)) :
    wholeFailure f = .jobFailed f := by
  rw [wholeFailure, if_neg (by simpa using h)]

theorem decidedByFirst_verdict (hcomplete : w.schedule.Complete) {jobs : List (JobRun σ K α)}
    (hn : (jobs.map JobRun.number).Perm (List.range jobs.length))
    (hordinary : ∀ j ∈ jobs, ∀ f, j.failure? = some f → f.isOrdinary = true) :
    DecidedByFirst (w.schedule.polls jobs.length).flatten jobs
      (verdict (heard [] none (w.inHearingOrder (outcomesOf jobs)))) := by
  have hheard : ∀ f, .error f ∈ w.inHearingOrder (outcomesOf jobs) → f.isOrdinary = true := by
    intro f hf
    obtain ⟨j, hj, hresult⟩ := (mem_inHearingOrder hcomplete hn).mp hf
    refine hordinary j hj f ?_
    rw [JobRun.failure?, hresult]
    rfl
  rw [heard_ordinary hheard]
  cases hfirst : (w.inHearingOrder (outcomesOf jobs)).findSome? failureOf with
  | none =>
    have hnone : ¬ ∃ j ∈ jobs, j.failure? ≠ none := by
      rintro ⟨j, hj, hfailure⟩
      exact hfailure (List.findSome?_eq_none_iff.mp hfirst _
        ((mem_inHearingOrder hcomplete hn).mpr ⟨j, hj, rfl⟩))
    refine ⟨⟨?_, fun h => absurd h hnone⟩, fun h => absurd h hnone⟩
    rintro ⟨f, hf⟩
    cases hf
  | some f =>
    obtain ⟨j, hj⟩ := failsFirst_of_heard (hn.nodup_iff.mpr List.nodup_range) hfirst
    have hsome : ∃ j ∈ jobs, j.failure? ≠ none :=
      ⟨j, hj.mem, by rw [hj.failed]; exact Option.some_ne_none f⟩
    exact ⟨⟨fun _ => hsome, fun _ => ⟨wholeFailure f, rfl⟩⟩, fun _ => ⟨j, f, hj,
      fun h => congrArg Except.error (wholeFailure_same h),
      fun h => congrArg Except.error (wholeFailure_wrapped h)⟩⟩

/-- The call hands every part of the keys over once, whatever becomes of the others, and raises the
failure that is seen first, if all failures may be caught. -/
def RaisesFirstSeen [DecidableEq K] (w : Workers σ) (limit : Int) (work : List K → Lookup σ α)
    (keys : List K) (s : σ) (call : Lookup σ β) : Prop :=
  ∃ parts jobs, w.CutsInto limit keys parts ∧ Worked work parts s call jobs ∧
    ((∀ j ∈ jobs, ∀ f, j.failure? = some f → f.isOrdinary = true) →
      DecidedByFirst (w.schedule.polls parts.length).flatten jobs (call.run s).result)

variable [DecidableEq K]

theorem raisesFirstSeen_workThrough (h : w.Ready limit) (work : List K → Lookup σ α) (keys : List K)
    (s : σ) : w.RaisesFirstSeen limit work keys s (w.workThrough limit work keys) := by
  have hparts := h.jobs_eq (Batch.unique keys)
  obtain ⟨hworked, hresult⟩ := workThrough_run hparts h.complete h.neverCancelled work s
  refine ⟨_, _, h.cutsInto keys, hworked, fun hordinary => ?_⟩
  have hn := hworked.numbers_perm
  rw [← hworked.length_eq] at hn ⊢
  rw [hresult]
  exact decidedByFirst_verdict h.complete hn hordinary

theorem RaisesFirstSeen.map {γ : Type} {work : List K → Lookup σ α} {keys : List K} {s : σ}
    {call : Lookup σ β} (h : w.RaisesFirstSeen limit work keys s call) (f : β → γ) :
    w.RaisesFirstSeen limit work keys s (do return f (← call)) := by
  obtain ⟨parts, jobs, hcuts, hworked, hdecided⟩ := h
  refine ⟨parts, jobs, hcuts, hworked.map f, fun hordinary => ?_⟩
  rw [Lookup.run_map]
  exact (hdecided hordinary).map f

theorem raisesFirstSeen_queries (h : w.Ready limit) (q : Queries σ K) (keys : List K) (s : σ) :
    w.RaisesFirstSeen limit q.all keys s ((w.queries limit q).all keys) ∧
      ∀ visitor, w.RaisesFirstSeen limit (fun part => (q.visit part).run visitor) keys s
        (((w.queries limit q).visit keys).run visitor) := by
  refine ⟨?_, fun visitor => ?_⟩
  · change w.RaisesFirstSeen limit q.all keys s (w.findAll limit q keys)
    rw [findAll_eq]
    exact (raisesFirstSeen_workThrough h q.all keys s).map _
  · change w.RaisesFirstSeen limit _ keys s ((w.visit limit q keys).run visitor)
    rw [run_visit_eq]
    exact (raisesFirstSeen_workThrough h _ keys s).map _

end Workers

/-- **The first failure seen is raised, and no job is given up for it.** Whatever the jobs of a
batch or of the giving of profiles to a visitor come to, by names or by ids, and in whatever order
they are complete and seen to be complete, each of them is run once; the call fails just if a job
does, and with the failure that is seen first. -/
theorem parallel_raises_first_failure_seen (w : Workers σ) (source : Source σ)
    (h : w.Ready source.limit) (s : σ) :
    (∀ names,
      w.RaisesFirstSeen source.limit source.byName.all names s
        ((Source.parallel w source).byName.all names) ∧
      ∀ visitor, w.RaisesFirstSeen source.limit (fun part => (source.byName.visit part).run visitor)
        names s (((Source.parallel w source).byName.visit names).run visitor)) ∧
    ∀ ids,
      w.RaisesFirstSeen source.limit source.byId.all ids s
        ((Source.parallel w source).byId.all ids) ∧
      ∀ visitor, w.RaisesFirstSeen source.limit (fun part => (source.byId.visit part).run visitor)
        ids s (((Source.parallel w source).byId.visit ids).run visitor) :=
  ⟨fun names => Workers.raisesFirstSeen_queries h source.byName names s,
    fun ids => Workers.raisesFirstSeen_queries h source.byId ids s⟩

/-- A registry that fails for two names, in different ways. -/
def Registry.refusing : Registry Unit where
  idOf name :=
    if name = "Alex" then Lookup.fail (.foreign .badValue "ValueError" "no such player")
    else if name = "Steve" then Lookup.fail (.foreign .inputOutput "OSError" "connection lost")
    else return none
  nameOf _ := return none

/-- Of two jobs that fail the one seen first decides, also when the other was submitted earlier. -/
theorem parallel_raises_first_failure_seen_backwards :
    (Workers.backwards 1 : Workers Unit).Ready (Source.host Registry.refusing).limit ∧
      (Workers.backwards 1).RaisesFirstSeen (Source.host Registry.refusing).limit
        (Source.host Registry.refusing).byName.all ["Alex", "Steve", "Notch"] ()
        ((Source.parallel (.backwards 1) (.host Registry.refusing)).byName.all
          ["Alex", "Steve", "Notch"]) ∧
      (((Source.parallel (.backwards 1) (.host Registry.refusing)).byName.all
          ["Alex", "Steve", "Notch"]).run ()).result =
        .error (.foreign .inputOutput "OSError" "connection lost") := by
  have hready : (Workers.backwards 1 : Workers Unit).Ready (Source.host Registry.refusing).limit :=
    Workers.ready_backwards (by decide) (by decide) (by decide)
  refine ⟨hready, ?_, ?_⟩
  · exact ((parallel_raises_first_failure_seen _ _ hready ()).1 ["Alex", "Steve", "Notch"]).1
  · with_unfolding_all rfl

namespace Unraised

/-- The jobs are done from the first to the last, and seen to be complete from the last to the
first. -/
def workers : Workers Unit := ⟨1, .lastSeenFirst, false, none⟩

def source : Source Unit := .host Registry.refusing

def call : Lookup Unit (List Profile) :=
  (Source.parallel workers source).byName.all ["Alex", "Steve", "Notch"]

def jobs : List (JobRun Unit String (List Profile)) :=
  workers.jobsOf source.byName.all () [["Alex"], ["Steve"], ["Notch"]]

theorem failures_eq : jobs.map JobRun.failure? =
    [some (.foreign .badValue "ValueError" "no such player"),
      some (.foreign .inputOutput "OSError" "connection lost"), none] := by
  with_unfolding_all rfl

theorem result_eq :
    (call.run ()).result = .error (.foreign .inputOutput "OSError" "connection lost") := by
  with_unfolding_all rfl

theorem numbers_eq : jobs.map JobRun.number = [0, 1, 2] := by with_unfolding_all rfl

end Unraised

/-- The job that is done first fails, and its failure is not the one that is raised. -/
theorem first_failure_not_raised :
    Unraised.workers.Ready Unraised.source.limit ∧
      Unraised.workers.schedule.running 3 = [0, 1, 2] ∧
      Worked Unraised.source.byName.all [["Alex"], ["Steve"], ["Notch"]] () Unraised.call
        Unraised.jobs ∧
      Unraised.jobs.map JobRun.failure? =
        [some (.foreign .badValue "ValueError" "no such player"),
          some (.foreign .inputOutput "OSError" "connection lost"), none] ∧
      (Unraised.call.run ()).result =
        .error (.foreign .inputOutput "OSError" "connection lost") ∧
      ¬ DecidedByFirst (Unraised.workers.schedule.running 3) Unraised.jobs
        (Unraised.call.run ()).result := by
  have hnever : Unraised.workers.NeverCancelled := nofun
  have hready : Unraised.workers.Ready Unraised.source.limit :=
    ⟨by decide, by decide, by decide, rfl, Schedule.complete_lastSeenFirst, hnever⟩
  have hparts : Unraised.workers.jobs Unraised.source.limit
      (Batch.unique ["Alex", "Steve", "Notch"]) = .ok [["Alex"], ["Steve"], ["Notch"]] := by
    with_unfolding_all rfl
  have hworked : Worked Unraised.source.byName.all [["Alex"], ["Steve"], ["Notch"]] ()
      Unraised.call Unraised.jobs := by
    change Worked _ _ _ (Unraised.workers.findAll _ Unraised.source.byName _) _
    rw [Workers.findAll_eq]
    exact (Workers.workThrough_run hparts hready.complete hnever _ ()).1.map _
  refine ⟨hready, rfl, hworked, Unraised.failures_eq, Unraised.result_eq, fun hdecided => ?_⟩
  obtain ⟨alex, others, hjobs, halex, -⟩ := List.map_eq_cons_iff.mp Unraised.failures_eq
  have hnumbers := Unraised.numbers_eq
  have hzero : alex.number = 0 := by
    rw [hjobs] at hnumbers
    exact (List.cons.inj hnumbers).1
  have hrunning : Unraised.workers.schedule.running 3 = alex.number :: [1, 2] := by
    rw [hzero]
    rfl
  rw [hrunning] at hdecided
  -- By the order in which they are done it would be the failure of the first job, and wrapped.
  have hresult := (hdecided.eq_head (hnumbers ▸ by decide) (hjobs ▸ List.mem_cons_self)
    halex).2 (by decide)
  rw [Unraised.result_eq] at hresult
  cases hresult

end PlayerLookup
