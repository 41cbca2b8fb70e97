import PlayerLookup.CommandLine.Run
import PlayerLookup.Proofs.CommandLine.Order
import PlayerLookup.Proofs.Pipeline.FoundByJobs

/-! What is printed does not depend on the order in which profiles come in. If their folded names
tell them apart, every order of the profiles is printed alike, as lines and as records; so what a
run prints for keys that were looked up in jobs does not depend on the order in which the jobs are
run and seen to be complete, as long as they find no player under two names. -/

set_option autoImplicit false

namespace PlayerLookup

variable {σ K : Type}

/-- No player goes by two names. -/
def Profile.OneNameEach (ps : List Profile) : Prop := ∀ p q, p ∈ ps → q ∈ ps → p.id = q.id → p = q

/-- What is merged from profiles of players with one name is the same but for the order. -/
theorem Profile.MergedFrom.perm {found ps qs : List Profile} (hps : MergedFrom (· ∈ found) ps)
    (hqs : MergedFrom (· ∈ found) qs) (hone : OneNameEach found) : ps.Perm qs := by
  refine Batch.perm_of_mem_iff hps.ids_nodup hqs.ids_nodup fun p => ?_
  rw [hps.mem_iff hone, hqs.mem_iff hone]

namespace CommandLine

/-! ## Reports of the same profiles -/

variable {ps qs : List Profile}

theorem formatProfiles_of_perm (h : ps.Perm qs) (hn : (ps.map Profile.folded).Nodup)
    (json : Bool) : formatProfiles ps json = formatProfiles qs json := by
  unfold formatProfiles
  rw [inOrder_eq_of_perm h hn]

theorem printed_of_perm (h : ps.Perm qs) (hn : (ps.map Profile.folded).Nodup) (json : Bool) :
    printed ps json = printed qs json := by
  unfold printed
  rw [formatProfiles_of_perm h hn json, h.isEmpty_eq]

theorem unresolved_of_perm (h : ps.Perm qs) (keys : Keys) (caseSensitive : Bool) :
    unresolved keys ps caseSensitive = unresolved keys qs caseSensitive := by
  cases keys with
  | names names =>
    unfold unresolved unresolvedNames
    dsimp only
    refine List.filter_congr fun key _ => ?_
    rw [(h.map _).contains_eq]
  | ids ids =>
    unfold unresolved unresolvedIds
    dsimp only
    congr 1
    refine List.filter_congr fun key _ => ?_
    rw [(h.map _).contains_eq]

/-- Two lookups are reported alike: both fail or neither does, the same is printed, and if they do
not fail the runs end the same. -/
structure ReportedAlike (found found' : Except Failure (List Profile)) : Prop where
  ok_iff : (∃ ps, found = .ok ps) ↔ ∃ ps, found' = .ok ps
  output_eq : ∀ around setup invocation caseSensitive log,
    (finishLookup around setup invocation caseSensitive log found).output =
      (finishLookup around setup invocation caseSensitive log found').output
  finish_eq : (∃ ps, found = .ok ps) → ∀ around setup invocation caseSensitive log,
    finishLookup around setup invocation caseSensitive log found =
      finishLookup around setup invocation caseSensitive log found'

theorem reportedAlike_of_perm (h : ps.Perm qs) (hn : (ps.map Profile.folded).Nodup) :
    ReportedAlike (.ok ps) (.ok qs) := by
  have hfinish : ∀ around setup invocation caseSensitive log,
      finishLookup around setup invocation caseSensitive log (.ok ps) =
        finishLookup around setup invocation caseSensitive log (.ok qs) := by
    intro around setup invocation caseSensitive log
    unfold finishLookup
    dsimp only
    rw [printed_of_perm h hn, unresolved_of_perm h]
  refine ⟨iff_of_true ⟨ps, rfl⟩ ⟨qs, rfl⟩, fun around setup invocation caseSensitive log => ?_,
    fun _ => hfinish⟩
  rw [hfinish]

theorem output_error (around : Surroundings) (setup : Log.Setup) (invocation : Invocation)
    (caseSensitive : Bool) (log : String) (f : Failure) :
    (finishLookup around setup invocation caseSensitive log (.error f)).output = "" := by
  unfold finishLookup finishFailed
  dsimp only
  cases failureRecord? f <;> rfl

theorem reportedAlike_of_errors (f g : Failure) : ReportedAlike (.error f) (.error g) := by
  have hnone : ∀ f : Failure, ¬ ∃ ps : List Profile, Except.error f = Except.ok ps :=
    fun f ⟨ps, h⟩ => by cases h
  refine ⟨iff_of_false (hnone f) (hnone g), fun around setup invocation caseSensitive log => ?_,
    fun h => absurd h (hnone f)⟩
  rw [output_error, output_error]

end CommandLine

/-! ## Jobs in another order -/

namespace JobRun

variable {jobs jobs' : List (JobRun σ K (List Profile))}

theorem sameResults_self (hn : (jobs.map JobRun.number).Nodup) : SameResults jobs jobs := by
  intro j hj j' hj' hnumber
  rw [List.inj_on_of_nodup_map hn hj hj' hnumber]

theorem SameResults.succeeded (h : SameResults jobs jobs')
    (hn : (jobs.map JobRun.number).Perm (jobs'.map JobRun.number))
    (hjobs : ∀ j ∈ jobs, j.failure? = none) : ∀ j' ∈ jobs', j'.failure? = none := by
  intro j' hj'
  obtain ⟨j, hj, hnumber⟩ := List.mem_map.mp (hn.mem_iff.mpr (List.mem_map_of_mem hj'))
  rw [failure?, ← h j hj j' hj' hnumber]
  exact hjobs j hj

theorem SameResults.symm (h : SameResults jobs jobs') : SameResults jobs' jobs :=
  fun j' hj' j hj hnumber => (h j hj j' hj' hnumber.symm).symm

end JobRun

namespace Workers

variable [DecidableEq K] {w : Workers σ} {schedule : Schedule} {limit : Int} {q : Queries σ K}
  {keys : List K} {s : σ}

/-- The same workers, going about their jobs in another order. -/
def rescheduled (w : Workers σ) (schedule : Schedule) : Workers σ := { w with schedule := schedule }

theorem jobsFor_rescheduled (h : schedule.running = w.schedule.running) :
    (w.rescheduled schedule).jobsFor limit q.all keys s = w.jobsFor limit q.all keys s := by
  unfold jobsFor jobsOf taken
  dsimp only [rescheduled]
  rw [h]
  rfl

theorem findAll_jobsFor {parts : List (List K)}
    (hparts : w.jobs limit (Batch.unique keys) = .ok parts) (hcomplete : w.schedule.Complete)
    (hnever : w.NeverCancelled) :
    ((w.jobsFor limit q.all keys s).map JobRun.number).Perm (List.range parts.length) ∧
      Worked q.all parts s (w.findAll limit q keys) (w.jobsFor limit q.all keys s) ∧
      ((∀ j ∈ w.jobsFor limit q.all keys s, j.failure? = none) →
        ∃ ps, ((w.findAll limit q keys).run s).result = .ok ps ∧
          Profile.MergedFrom (· ∈ (w.jobsFor limit q.all keys s).flatMap JobRun.answer) ps) ∧
      ((¬ ∀ j ∈ w.jobsFor limit q.all keys s, j.failure? = none) →
        ∃ f, ((w.findAll limit q keys).run s).result = .error f) := by
  have hfor : w.jobsFor limit q.all keys s = w.jobsOf q.all s parts := by
    rw [jobsFor, partsFor, hparts]
    rfl
  obtain ⟨hworked, hmerged⟩ := findAll_run_ok (q := q) hparts hcomplete hnever s
  rw [hfor]
  refine ⟨hworked.numbers_perm, hworked, fun hsucceeded => ?_, fun hfailed => ?_⟩
  · obtain ⟨ps, hps, hfrom⟩ := hmerged hsucceeded
    exact ⟨ps, hps, hfrom.congr fun p => List.mem_flatMap.symm⟩
  · cases hresult : ((w.findAll limit q keys).run s).result with
    | error f => exact ⟨f, rfl⟩
    | ok ps => exact absurd (findAll_answered hparts hcomplete hnever hresult).1 hfailed

/-- The report of a call for keys, and that of the same call with its jobs in another order. If the
jobs come to the same, they are alike, as long as no player was found under two names, of which the
one that is heard first would be printed, and no two names that are printed are the same without
regard to case. The jobs do come to the same if only the order differs in which they are seen to be
complete. -/
structure ReportsAlike (w : Workers σ) (schedule : Schedule) (limit : Int) (q : Queries σ K)
    (keys : List K) (s : σ) : Prop where
  reported : JobRun.SameResults (w.jobsFor limit q.all keys s)
      ((w.rescheduled schedule).jobsFor limit q.all keys s) →
    Profile.OneNameEach ((w.jobsFor limit q.all keys s).flatMap JobRun.answer) →
    (∀ ps, ((w.findAll limit q keys).run s).result = .ok ps → (ps.map Profile.folded).Nodup) →
    CommandLine.ReportedAlike ((w.findAll limit q keys).run s).result
      (((w.rescheduled schedule).findAll limit q keys).run s).result
  same_results : schedule.running = w.schedule.running →
    JobRun.SameResults (w.jobsFor limit q.all keys s)
      ((w.rescheduled schedule).jobsFor limit q.all keys s)

theorem reportsAlike (hcomplete : w.schedule.Complete) (hschedule : schedule.Complete)
    (hnever : w.NeverCancelled) (limit : Int) (q : Queries σ K) (keys : List K) (s : σ) :
    w.ReportsAlike schedule limit q keys s := by
  refine ⟨fun hsame hone hn => ?_, fun hrunning => ?_⟩
  · cases hparts : w.jobs limit (Batch.unique keys) with
    | error f =>
      have hparts' : (w.rescheduled schedule).jobs limit (Batch.unique keys) = .error f := hparts
      rw [findAll_result_of_jobs_error hparts, findAll_result_of_jobs_error hparts']
      exact CommandLine.reportedAlike_of_errors f f
    | ok parts =>
      have hparts' : (w.rescheduled schedule).jobs limit (Batch.unique keys) = .ok parts := hparts
      obtain ⟨hnumbers, hworked, hfound, hfails⟩ :=
        findAll_jobsFor (q := q) (s := s) hparts hcomplete hnever
      obtain ⟨hnumbers', hworked', hfound', hfails'⟩ :=
        findAll_jobsFor (q := q) (s := s) hparts' hschedule hnever
      have hperm := hnumbers.trans hnumbers'.symm
      by_cases hsucceeded : ∀ j ∈ w.jobsFor limit q.all keys s, j.failure? = none
      · obtain ⟨ps, hps, hfrom⟩ := hfound hsucceeded
        obtain ⟨qs, hqs, hfrom'⟩ := hfound' (hsame.succeeded hperm hsucceeded)
        have hperm := hfrom.perm (hfrom'.congr (hsame.mem_answers hworked hworked')) hone
        have halike := CommandLine.reportedAlike_of_perm hperm (hn ps hps)
        rwa [hps, hqs]
      · obtain ⟨f, hf⟩ := hfails hsucceeded
        obtain ⟨g, hg⟩ := hfails' fun hsucceeded' =>
          hsucceeded (hsame.symm.succeeded hperm.symm hsucceeded')
        rw [hf, hg]
        exact CommandLine.reportedAlike_of_errors f g
  · rw [jobsFor_rescheduled hrunning]
    have hnumbers := (worked_runAll hcomplete limit q.all keys s).numbers_perm
    exact JobRun.sameResults_self (hnumbers.nodup_iff.mpr List.nodup_range)

theorem nodup_partsFor (w : Workers σ) (limit : Int) (keys : List K) :
    (w.partsFor limit keys).flatten.Nodup := by
  unfold partsFor
  cases hparts : w.jobs limit (Batch.unique keys) with
  | error f => exact List.nodup_nil
  | ok parts =>
    change parts.flatten.Nodup
    rw [flatten_of_jobs hparts]
    exact Batch.nodup_unique keys

/-- Jobs for ids find no player under two names if each answers only ids that it was asked for, and
each of them once. -/
theorem oneNameEach_of_asked {q : Queries σ PlayerId} {ids : List PlayerId}
    (hcomplete : w.schedule.Complete)
    (hjob : ∀ j ∈ w.jobsFor limit q.all ids s,
      (j.answer.map Profile.id).Nodup ∧ ∀ p ∈ j.answer, p.id ∈ j.keys) :
    Profile.OneNameEach ((w.jobsFor limit q.all ids s).flatMap JobRun.answer) := by
  have hworked := worked_runAll hcomplete limit q.all ids s
  have hn := hworked.nodup_answers (nodup_partsFor w limit ids) hjob
  exact fun p q hp hq hid => List.inj_on_of_nodup_map hn hp hq hid

end Workers

/-- **What is printed does not depend on the order of the profiles**, as lines or as records, if no
two names are the same without regard to case. So it does not depend on the order in which the jobs
of a call are seen to be complete: any order of the jobs in which they come to the same is reported
alike, if they find no player under two names, which jobs for ids do not if they answer each id that
they are asked for once. -/
theorem report_independent_of_order :
    (∀ ps qs : List Profile, ps.Perm qs → (ps.map Profile.folded).Nodup → ∀ json,
      CommandLine.formatProfiles ps json = CommandLine.formatProfiles qs json) ∧
    ∀ (σ : Type) (w : Workers σ) (source : Source σ) (schedule : Schedule),
      w.schedule.Complete → schedule.Complete → w.NeverCancelled → ∀ s,
        (∀ names, w.ReportsAlike schedule source.limit source.byName names s) ∧
        ∀ ids, w.ReportsAlike schedule source.limit source.byId ids s ∧
          ((∀ j ∈ w.jobsFor source.limit source.byId.all ids s,
            (j.answer.map Profile.id).Nodup ∧ ∀ p ∈ j.answer, p.id ∈ j.keys) →
              Profile.OneNameEach
                ((w.jobsFor source.limit source.byId.all ids s).flatMap JobRun.answer)) := by
  refine ⟨fun ps qs hperm hn json => CommandLine.formatProfiles_of_perm hperm hn json,
    fun σ w source schedule hcomplete hschedule hnever s => ⟨fun names => ?_, fun ids => ⟨?_, ?_⟩⟩⟩
  · exact Workers.reportsAlike hcomplete hschedule hnever source.limit source.byName names s
  · exact Workers.reportsAlike hcomplete hschedule hnever source.limit source.byId ids s
  · exact Workers.oneNameEach_of_asked hcomplete

/-! ## Three jobs that are seen to be complete from the last to the first -/

namespace Reordered

def profiles : List Profile := [⟨⟨1⟩, .ash⟩, ⟨⟨2⟩, .birch⟩, ⟨⟨3⟩, .cedar⟩]

def source : Source LocalMap := .localMap Cell.whole

def state : LocalMap := LocalMap.empty.putAll profiles

def workers : Workers LocalMap := ⟨1, .inOrder, false, none⟩

def names : List String := ["Birch", "Ash", "Cedar"]

theorem oneNameEach :
    Profile.OneNameEach ((workers.jobsFor source.limit source.byName.all names state).flatMap
      JobRun.answer) := by
  have hids : (((workers.jobsFor source.limit source.byName.all names state).flatMap
      JobRun.answer).map Profile.id).Nodup := by decide +kernel
  exact fun p q hp hq hid => List.inj_on_of_nodup_map hids hp hq hid

theorem nodup_folded (ps : List Profile)
    (h : ((workers.findAll source.limit source.byName names).run state).result = .ok ps) :
    (ps.map Profile.folded).Nodup := by
  have hreturned : ((((workers.findAll source.limit source.byName names).run
      state).result.toOption.getD []).map Profile.folded).Nodup := by decide +kernel
  rwa [h] at hreturned

end Reordered

/-- The profiles are printed alike in two orders, and whichever job is heard first. -/
theorem report_independent_of_order_three :
    Reordered.profiles.Perm Reordered.profiles.reverse ∧
      (Reordered.profiles.map Profile.folded).Nodup ∧
      CommandLine.formatProfiles Reordered.profiles true =
        CommandLine.formatProfiles Reordered.profiles.reverse true ∧
      CommandLine.ReportedAlike
        ((Reordered.workers.findAll Reordered.source.limit Reordered.source.byName
          Reordered.names).run Reordered.state).result
        (((Reordered.workers.rescheduled .lastSeenFirst).findAll Reordered.source.limit
          Reordered.source.byName Reordered.names).run Reordered.state).result := by
  obtain ⟨hformat, hjobs⟩ := report_independent_of_order
  have hperm : Reordered.profiles.Perm Reordered.profiles.reverse :=
    (List.reverse_perm Reordered.profiles).symm
  have hn : (Reordered.profiles.map Profile.folded).Nodup := by decide +kernel
  obtain ⟨hreported, hsame⟩ := (hjobs LocalMap Reordered.workers Reordered.source .lastSeenFirst
    Schedule.complete_inOrder Schedule.complete_lastSeenFirst (fun ask h => by cases h)
    Reordered.state).1 Reordered.names
  exact ⟨hperm, hn, hformat _ _ hperm hn true, hreported (hsame rfl) Reordered.oneNameEach
    Reordered.nodup_folded⟩

end PlayerLookup
