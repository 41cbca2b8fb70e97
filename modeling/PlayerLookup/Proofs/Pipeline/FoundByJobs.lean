import PlayerLookup.Proofs.Foundations.Streaming
import PlayerLookup.Proofs.Pipeline.RepeatedIds

/-! What jobs leave in a memory that stores what they find. If the profiles of the jobs that did not
fail are of different players with different names, they all are in the memory when the call ends,
whether it fails or not, and the order in which the jobs were run makes no difference. -/

set_option autoImplicit false

namespace PlayerLookup

variable {σ τ K α : Type}

/-! ## Memories that take profiles in -/

/-- A memory after profiles were put into it: each of them is found by its id and by its name, what
shares neither with any of them is found as before, and there is nothing else. -/
structure Memory.TakesIn (m : Memory) (ps : List Profile) (m' : Memory) : Prop where
  coherent : m'.Coherent
  found : ∀ p ∈ ps, m'.profile? p.id = some p ∧ m'.holder? p.name.text = some p
  kept : ∀ p, m.Holds p → (∀ q ∈ ps, q.id ≠ p.id ∧ q.name ≠ p.name) →
    m'.profile? p.id = some p ∧ m'.holder? p.name.text = some p
  only : ∀ p, m'.Holds p →
    p ∈ ps ∨ (m.Holds p ∧ ∀ q ∈ ps, q.id ≠ p.id ∧ q.name ≠ p.name)

theorem Memory.Coherent.finds {m : Memory} (hm : m.Coherent) {p : Profile} (hp : m.Holds p) :
    m.profile? p.id = some p ∧ m.holder? p.name.text = some p :=
  ⟨(m.profile?_eq_some_iff p.id p).mpr ⟨rfl, hp⟩,
    (holder?_eq_some_iff hm p.name.text p).mpr ⟨rfl, hp⟩⟩

/-- None of the profiles displaces another one. -/
def Profile.Compatible (ps : List Profile) : Prop := ∀ p ∈ ps, ∀ q ∈ ps, ¬ q.Displaces p

theorem Profile.compatible_of_nodup {ps : List Profile} (hids : (ps.map Profile.id).Nodup)
    (hnames : (ps.map Profile.name).Nodup) : Compatible ps := fun _ hp _ hq =>
  not_displaces_of_nodup hids hnames hq hp

theorem Memory.Reflects.stands_iff {m m' : Memory} {history ps : List Profile}
    (hm : m.Reflects history) (hm' : m'.Reflects (history ++ ps)) (hps : Profile.Compatible ps)
    (p : Profile) : m'.Holds p ↔
      p ∈ ps ∨ (m.Holds p ∧ ∀ q ∈ ps, q.id ≠ p.id ∧ q.name ≠ p.name) := by
  rw [hm'.holds_iff]
  by_cases hp : p ∈ ps
  · exact iff_of_true (stands_of_mem hps hp) (Or.inl hp)
  · rw [stands_append, hm.holds_iff]
    have hne : ∀ q ∈ ps, q ≠ p := fun q hq heq => hp (heq ▸ hq)
    have hapart : (∀ q ∈ ps, ¬ q.Displaces p) ↔ ∀ q ∈ ps, q.id ≠ p.id ∧ q.name ≠ p.name := by
      refine forall₂_congr fun q hq => ?_
      rw [Profile.displaces_iff, not_and, not_or]
      exact ⟨fun h => h (hne q hq), fun h _ => h⟩
    rw [hapart]
    constructor
    · rintro (hstands | hkept)
      · exact Or.inl hstands.mem
      · exact Or.inr hkept
    · rintro (hmem | hkept)
      · exact absurd hmem hp
      · exact Or.inr hkept

theorem Memory.Reflects.takesIn {m m' : Memory} {history ps : List Profile}
    (hm : m.Reflects history) (hm' : m'.Reflects (history ++ ps)) (hps : Profile.Compatible ps) :
    m.TakesIn ps m' where
  coherent := hm'.coherent
  found p hp := hm'.coherent.finds ((hm.stands_iff hm' hps p).mpr (Or.inl hp))
  kept p hp happart := hm'.coherent.finds ((hm.stands_iff hm' hps p).mpr (Or.inr ⟨hp, happart⟩))
  only p hp := (hm.stands_iff hm' hps p).mp hp

theorem Memory.Reflects.sameAs {m m' m'' : Memory} {history ps qs : List Profile}
    (hm : m.Reflects history) (hm' : m'.Reflects (history ++ ps))
    (hm'' : m''.Reflects (history ++ qs)) (hps : Profile.Compatible ps)
    (hsame : ∀ p, p ∈ qs ↔ p ∈ ps) : m'.SameAs m'' where
  coherent := hm''.coherent
  holds_iff p := by
    have hqs : Profile.Compatible qs := fun p hp q hq =>
      hps p ((hsame p).mp hp) q ((hsame q).mp hq)
    rw [hm.stands_iff hm'' hqs, hm.stands_iff hm' hps]
    simp only [hsame]

/-! ## Jobs in another order -/

/-- A job comes to the same in both runs of the jobs. -/
def JobRun.SameResults (jobs jobs' : List (JobRun σ K α)) : Prop :=
  ∀ j ∈ jobs, ∀ j' ∈ jobs', j.number = j'.number → j.outcome.result = j'.outcome.result

section

variable {work : List K → Lookup σ (List Profile)} {parts : List (List K)} {s : σ} {β : Type}
  {call call' : Lookup σ β} {jobs jobs' : List (JobRun σ K (List Profile))}

theorem JobRun.SameResults.mem_answers (h : SameResults jobs jobs')
    (hjobs : Worked work parts s call jobs) (hjobs' : Worked work parts s call' jobs')
    (p : Profile) : p ∈ jobs'.flatMap answer ↔ p ∈ jobs.flatMap answer := by
  rw [List.mem_flatMap, List.mem_flatMap]
  constructor
  · rintro ⟨j', hj', hp⟩
    have hnumber : j'.number ∈ jobs.map JobRun.number :=
      hjobs.numbers_perm.mem_iff.mpr (hjobs'.numbers_perm.mem_iff.mp (List.mem_map_of_mem hj'))
    obtain ⟨j, hj, hsame⟩ := List.mem_map.mp hnumber
    refine ⟨j, hj, ?_⟩
    rwa [answer, h j hj j' hj' hsame]
  · rintro ⟨j, hj, hp⟩
    have hnumber : j.number ∈ jobs'.map JobRun.number :=
      hjobs'.numbers_perm.mem_iff.mpr (hjobs.numbers_perm.mem_iff.mp (List.mem_map_of_mem hj))
    obtain ⟨j', hj', hsame⟩ := List.mem_map.mp hnumber
    refine ⟨j', hj', ?_⟩
    rwa [answer, ← h j hj j' hj' hsame.symm]

theorem Worked.keys_eq (hjobs : Worked work parts s call jobs)
    (hjobs' : Worked work parts s call' jobs') {j j' : JobRun σ K (List Profile)} (hj : j ∈ jobs)
    (hj' : j' ∈ jobs') (h : j.number = j'.number) : j.keys = j'.keys := by
  have hmem : (j.keys, j.number) ∈ parts.zipIdx :=
    hjobs.each_once.mem_iff.mp (List.mem_map_of_mem hj)
  have hmem' : (j'.keys, j'.number) ∈ parts.zipIdx :=
    hjobs'.each_once.mem_iff.mp (List.mem_map_of_mem hj')
  rw [List.mem_zipIdx_iff_getElem?] at hmem hmem'
  rw [h, hmem'] at hmem
  exact (Option.some.inj hmem).symm

end

/-! ## Jobs that go by what none of them changes -/

/-- What batches come to depends on a part of the state that they leave as it is. -/
structure Queries.GoesBy (d : Cell σ τ) (q : Queries σ K) : Prop where
  leaves : q.LeavesAlone d
  depends : ∀ keys, (q.all keys).DependsOn d.get

section

variable {cell : Cell σ Memory} {q : Queries σ K} {parts : List (List K)} {s : σ} {β : Type}
  {call call' : Lookup σ β} {jobs jobs' : List (JobRun σ K (List Profile))}

theorem Queries.GoesBy.result_eq {d : Cell σ τ} (hgoes : q.GoesBy d) (hapart : cell.Apart d)
    (hq : q.LeavesAlone cell) (hs : (cell.get s).Coherent)
    (hjobs : Worked (q.keeping (.memory cell)).all parts s call jobs)
    {j : JobRun σ K (List Profile)} (hj : j ∈ jobs) :
    j.outcome.result = ((q.all j.keys).run s).result := by
  -- The jobs before this one changed the memory, but nothing that the batch goes by.
  obtain ⟨before, after, hsplit⟩ := List.append_of_mem hj
  have hbefore := hjobs.invariant
    (P := fun _ t => (cell.get t).Coherent ∧ d.get t = d.get s) ⟨hs, rfl⟩
    (fun before i _ ⟨hcoherent, hview⟩ houtcome => by
      obtain ⟨events, t, hrun, ht, hframe⟩ :=
        Queries.keeping_run hq i.keys hcoherent.reflects_all
      rw [houtcome, hrun]
      exact ⟨ht.coherent, (hframe _ d hapart).trans ((hgoes.leaves i.keys _).trans hview)⟩)
    hsplit
  obtain ⟨events, t, hrun, -⟩ := Queries.keeping_run hq j.keys hbefore.1.reflects_all
  rw [hjobs.outcome_eq before j after hsplit, hrun]
  exact (hgoes.depends j.keys s _ hbefore.2).1

theorem Queries.GoesBy.sameResults {d : Cell σ τ} (hgoes : q.GoesBy d) (hapart : cell.Apart d)
    (hq : q.LeavesAlone cell) (hs : (cell.get s).Coherent)
    (hjobs : Worked (q.keeping (.memory cell)).all parts s call jobs)
    (hjobs' : Worked (q.keeping (.memory cell)).all parts s call' jobs') :
    JobRun.SameResults jobs jobs' := by
  intro j hj j' hj' hnumber
  rw [hgoes.result_eq hapart hq hs hjobs hj, hgoes.result_eq hapart hq hs hjobs' hj',
    hjobs.keys_eq hjobs' hj hj' hnumber]

end

/-! ## The call as a whole -/

namespace Workers

variable {w : Workers σ} {limit : Int} {cell : Cell σ Memory}

/-- Hearing the jobs does not change what nobody changes who is asked whether to go on. -/
theorem leavesAlone_collect (h : ∀ ask, w.cancelled? = some ask → ask.LeavesAlone cell)
    (outcomes : List (Nat × Except Failure α)) : (w.collect outcomes).LeavesAlone cell := by
  have hask : (w.cancelled?.getD (return false)).LeavesAlone cell := by
    cases hcancelled : w.cancelled? with
    | none => exact Lookup.leavesAlone_pure false
    | some ask => exact h ask hcancelled
  have hgroups : ∀ groups done first,
      (w.collectGroups (α := α) groups done first).LeavesAlone cell := by
    intro groups
    induction groups with
    | nil => exact fun done first => Lookup.leavesAlone_pure (done, first)
    | cons group rest ih =>
      intro done first
      refine hask.bind fun cancelled => ?_
      cases cancelled with
      | true => exact Lookup.leavesAlone_fail .jobsCancelled
      | false =>
        refine Lookup.LeavesAlone.bind (fun s => ?_) fun r => ih r.1 r.2
        exact congrArg cell.get (collectGroup_run group done first s).1.1
  refine (hgroups _ [] none).bind fun r => ?_
  cases r.2 with
  | none => exact Lookup.leavesAlone_pure r.1
  | some f => exact Lookup.leavesAlone_fail (wholeFailure f)

/-- The parts that are handed over for keys: none if the keys cannot be cut or nobody takes jobs. -/
def partsFor [DecidableEq K] (w : Workers σ) (limit : Int) (keys : List K) : List (List K) :=
  (w.jobs limit (Batch.unique keys)).toOption.getD []

theorem jobsOf_nil (work : List K → Lookup σ α) (s : σ) : w.jobsOf work s [] = [] := by
  have hnone : w.taken ([] : List (List K)) = [] := by simp [taken]
  rw [jobsOf, hnone, JobRun.inTurn]

variable [DecidableEq K]

/-- The jobs for keys as they are run from a state. -/
def jobsFor (w : Workers σ) (limit : Int) (work : List K → Lookup σ α) (keys : List K) (s : σ) :
    List (JobRun σ K α) :=
  w.jobsOf work s (w.partsFor limit keys)

theorem worked_runAll (hcomplete : w.schedule.Complete) (limit : Int)
    (work : List K → Lookup σ α) (keys : List K) (s : σ) :
    Worked work (w.partsFor limit keys) s (runAll (w.taken (w.partsFor limit keys)) work)
      (w.jobsFor limit work keys s) := by
  have hjobs := runAll_run work (w.taken (w.partsFor limit keys)) s
  have hmap := JobRun.map_inTurn work s (w.taken (w.partsFor limit keys))
  have hperm := taken_perm hcomplete (w.partsFor limit keys)
  rw [← hmap, List.map_map] at hperm
  refine ⟨hperm, fun before j after h => JobRun.outcome_of_inTurn work h, ⟨[], ?_, ?_⟩, ?_⟩
  · rw [hjobs, List.append_nil]
    rfl
  · exact fun e he => absurd he List.not_mem_nil
  · rw [hjobs]
    rfl

theorem workThrough_left (h : ∀ ask, w.cancelled? = some ask → ask.LeavesAlone cell)
    (work : List K → Lookup σ α) (keys : List K) (s : σ) :
    cell.get ((w.workThrough limit work keys).run s).state =
      cell.get (JobRun.leftBy s (w.jobsFor limit work keys s)) := by
  unfold workThrough jobsFor partsFor
  cases w.jobs limit (Batch.unique keys) with
  | error f =>
    have hcut : (Lookup.ofExcept (.error f) : Lookup σ (List (List K))).run s =
        ⟨[], s, .error f⟩ := rfl
    change _ = cell.get (JobRun.leftBy s (w.jobsOf work s []))
    rw [Lookup.run_bind_error hcut, jobsOf_nil]
    rfl
  | ok parts =>
    have hcut : (Lookup.ofExcept (.ok parts) : Lookup σ (List (List K))).run s =
        ⟨[], s, .ok parts⟩ := rfl
    have hhearing : ∀ outcomes : List (Nat × Except Failure α),
        (w.hearing parts.length (Batch.unique keys).length outcomes).LeavesAlone cell :=
      fun outcomes => Lookup.leavesAlone_log.bind fun _ => leavesAlone_collect h outcomes
    rw [Lookup.run_bind_quiet hcut, Lookup.run_bind_ok (runAll_run work (w.taken parts) s)]
    exact hhearing _ _

theorem findAll_left (h : ∀ ask, w.cancelled? = some ask → ask.LeavesAlone cell)
    (limit : Int) (q : Queries σ K) (keys : List K) (s : σ) :
    cell.get ((w.findAll limit q keys).run s).state =
      cell.get (JobRun.leftBy s (w.jobsFor limit q.all keys s)) := by
  rw [findAll_eq, Lookup.run_map]
  exact workThrough_left h q.all keys s

/-- The jobs of a call by ids over a source of which the finds are stored. -/
def storingJobs (w : Workers σ) (cell : Cell σ Memory) (source : Source σ) (ids : List PlayerId)
    (s : σ) : List (JobRun σ PlayerId (List Profile)) :=
  w.jobsFor source.limit (source.byId.keeping (.memory cell)).all ids s

/-- The memory when such a call has ended, with an answer or without. -/
def memoryAfter (w : Workers σ) (cell : Cell σ Memory) (source : Source σ) (ids : List PlayerId)
    (s : σ) : Memory :=
  cell.get (((Source.parallel w (.forwarding (.memory cell) source)).byId.all ids).run s).state

/-- Each part of the ids was one job, run from the state that the jobs before it left, and if the
profiles of all jobs are of different players with different names the memory takes them in. -/
structure StoresFound (w : Workers σ) (cell : Cell σ Memory) (source : Source σ)
    (ids : List PlayerId) (s : σ) : Prop where
  worked : Worked (source.byId.keeping (.memory cell)).all (w.partsFor source.limit ids) s
    (runAll (w.taken (w.partsFor source.limit ids)) (source.byId.keeping (.memory cell)).all)
    (w.storingJobs cell source ids s)
  takesIn : (((w.storingJobs cell source ids s).flatMap JobRun.answer).map Profile.id).Nodup →
    (((w.storingJobs cell source ids s).flatMap JobRun.answer).map Profile.name).Nodup →
    (cell.get s).TakesIn ((w.storingJobs cell source ids s).flatMap JobRun.answer)
      (w.memoryAfter cell source ids s)

/-- Other workers leave the same memory if the jobs come to the same with them; and they do if what
the source gives depends on a part of the state that neither it nor the memory changes. -/
structure StoresAlike (w w' : Workers σ) (cell : Cell σ Memory) (source : Source σ)
    (ids : List PlayerId) (s : σ) : Prop where
  same_memory :
    JobRun.SameResults (w.storingJobs cell source ids s) (w'.storingJobs cell source ids s) →
    (((w.storingJobs cell source ids s).flatMap JobRun.answer).map Profile.id).Nodup →
    (((w.storingJobs cell source ids s).flatMap JobRun.answer).map Profile.name).Nodup →
    (w.memoryAfter cell source ids s).SameAs (w'.memoryAfter cell source ids s)
  same_results : ∀ (τ : Type) (d : Cell σ τ), cell.Apart d → source.byId.GoesBy d →
    JobRun.SameResults (w.storingJobs cell source ids s) (w'.storingJobs cell source ids s)

theorem memoryAfter_reflects {source : Source σ} (hsource : source.byId.LeavesAlone cell)
    (hcomplete : w.schedule.Complete)
    (hasks : ∀ ask, w.cancelled? = some ask → ask.LeavesAlone cell) (ids : List PlayerId) {s : σ}
    (hs : (cell.get s).Coherent) :
    (w.memoryAfter cell source ids s).Reflects
      ((cell.get s).all ++ (w.storingJobs cell source ids s).flatMap JobRun.answer) := by
  have hworked := worked_runAll hcomplete source.limit
    (source.byId.keeping (.memory cell)).all ids s
  have hleft := hworked.memory_reflects hsource hs.reflects_all
  rw [hworked.state_eq] at hleft
  have hcall := findAll_left hasks source.limit (source.byId.keeping (.memory cell)) ids s
  change (cell.get ((w.findAll source.limit (source.byId.keeping (.memory cell)) ids).run
    s).state).Reflects _
  rw [hcall]
  exact hleft

end Workers

/-- **Jobs store what they find**, whatever becomes of the other jobs and of the call. If the
profiles that jobs gave are of different players with different names, the memory has them when the
call has ended, and of what it had before all that shares neither with any of them. It has the same
after the jobs were run in any other order. -/
theorem jobs_store_what_they_find (cell : Cell σ Memory) (source : Source σ)
    (hsource : source.byId.LeavesAlone cell) (w : Workers σ) (hcomplete : w.schedule.Complete)
    (hasks : ∀ ask, w.cancelled? = some ask → ask.LeavesAlone cell) (ids : List PlayerId) (s : σ)
    (hs : (cell.get s).Coherent) :
    w.StoresFound cell source ids s ∧
      ∀ schedule : Schedule, schedule.Complete →
        w.StoresAlike { w with schedule := schedule } cell source ids s := by
  have hworked := Workers.worked_runAll hcomplete source.limit
    (source.byId.keeping (.memory cell)).all ids s
  have hafter := Workers.memoryAfter_reflects hsource hcomplete hasks ids hs
  refine ⟨⟨hworked, fun hids hnames => ?_⟩, fun schedule hschedule => ?_⟩
  · exact hs.reflects_all.takesIn hafter (Profile.compatible_of_nodup hids hnames)
  · have hworked' := Workers.worked_runAll (w := { w with schedule := schedule })
      hschedule source.limit (source.byId.keeping (.memory cell)).all ids s
    have hafter' := Workers.memoryAfter_reflects (w := { w with schedule := schedule }) hsource
      hschedule hasks ids hs
    refine ⟨fun hsame hids hnames => ?_, fun τ d hapart hgoes => ?_⟩
    · exact hs.reflects_all.sameAs hafter hafter' (Profile.compatible_of_nodup hids hnames)
        (hsame.mem_answers hworked hworked')
    · exact hgoes.sameResults hapart hsource hs hworked hworked'

/-! ## Three jobs of which one fails -/

namespace Harvest

def host : Registry (Memory × LocalMap) where
  idOf _ := return none
  nameOf id := do
    let m ← Cell.second.read
    match m.names.get? id with
    | some n => return some n.text
    | none => Lookup.fail (.foreign .inputOutput "ConnectionError" "nobody is there")

def source : Source (Memory × LocalMap) := .host host

def workers : Workers (Memory × LocalMap) := .backwards 1

/-- Two players are in the memory, one of them with a name that is now another one's. -/
def memory : Memory :=
  ⟨[(⟨6⟩, .cedar), (⟨5⟩, .ash)], [(.cedar, ⟨6⟩), (.ash, ⟨5⟩)]⟩

def state : Memory × LocalMap :=
  (memory, LocalMap.empty.putAll [⟨⟨1⟩, .ash⟩, ⟨⟨3⟩, .birch⟩])

theorem coherent_memory : memory.Coherent := by
  obtain ⟨m, hstore, hm, -⟩ :=
    Memory.store_spec (Memory.coherent_single ⟨⟨5⟩, .ash⟩) ⟨⟨6⟩, .cedar⟩
  have hmemory : (Memory.single ⟨⟨5⟩, .ash⟩).store ⟨⟨6⟩, .cedar⟩ = .ok memory := rfl
  rw [hmemory] at hstore
  rwa [Except.ok.inj hstore]

theorem leavesAlone {τ : Type} (d : Cell (Memory × LocalMap) τ) :
    source.byId.LeavesAlone d := by
  refine (Source.leavesAlone_host (fun _ => Lookup.leavesAlone_pure none) fun id => ?_).2
  refine (Lookup.leavesAlone_read .second).bind fun m => ?_
  cases m.names.get? id with
  | some n => exact Lookup.leavesAlone_pure (some n.text)
  | none => exact Lookup.leavesAlone_fail _

theorem goesBy : source.byId.GoesBy .second where
  leaves := leavesAlone .second
  depends keys := by
    refine Queries.dependsOn_collect (Registry.dependsOn_findId fun id => ?_) _
    refine (Lookup.dependsOn_read fun m : LocalMap => m).bind fun m => ?_
    cases m.names.get? id with
    | some n => exact Lookup.dependsOn_pure (some n.text)
    | none => exact Lookup.dependsOn_ofExcept _

theorem answers_eq :
    (workers.storingJobs .first source [⟨1⟩, ⟨2⟩, ⟨3⟩] state).flatMap JobRun.answer =
      [⟨⟨3⟩, .birch⟩, ⟨⟨1⟩, .ash⟩] := by decide +kernel

end Harvest

/-- The call fails, but what the other two jobs found is stored, in either order of the jobs. -/
theorem jobs_store_what_they_find_harvest :
    Harvest.source.byId.LeavesAlone Cell.first ∧ Harvest.memory.Coherent ∧
      (((Source.parallel Harvest.workers (.forwarding (.memory .first) Harvest.source)).byId.all
        [⟨1⟩, ⟨2⟩, ⟨3⟩]).run Harvest.state).result.toOption = none ∧
      Harvest.memory.TakesIn [⟨⟨3⟩, .birch⟩, ⟨⟨1⟩, .ash⟩]
        (Harvest.workers.memoryAfter .first Harvest.source [⟨1⟩, ⟨2⟩, ⟨3⟩] Harvest.state) ∧
      (Harvest.workers.memoryAfter .first Harvest.source [⟨1⟩, ⟨2⟩, ⟨3⟩] Harvest.state).SameAs
        (({ Harvest.workers with schedule := .inOrder } : Workers _).memoryAfter .first
          Harvest.source [⟨1⟩, ⟨2⟩, ⟨3⟩] Harvest.state) := by
  have hasks : ∀ ask, Harvest.workers.cancelled? = some ask →
      ask.LeavesAlone (Cell.first : Cell (Memory × LocalMap) Memory) := fun ask h => by
    rw [← Option.some.inj h]
    exact Lookup.leavesAlone_pure false
  obtain ⟨hfound, halike⟩ := jobs_store_what_they_find .first Harvest.source
    (Harvest.leavesAlone .first) Harvest.workers Schedule.complete_backwards hasks
    [⟨1⟩, ⟨2⟩, ⟨3⟩] Harvest.state Harvest.coherent_memory
  obtain ⟨hsame, hresults⟩ := halike .inOrder Schedule.complete_inOrder
  have htakes := hfound.takesIn
  rw [Harvest.answers_eq] at htakes hsame
  exact ⟨Harvest.leavesAlone .first, Harvest.coherent_memory, by decide +kernel,
    htakes (by decide) (by decide),
    hsame (hresults _ .second (fun _ _ => rfl) Harvest.goesBy) (by decide) (by decide)⟩

end PlayerLookup
