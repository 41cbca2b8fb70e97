import Mathlib.Data.List.Pairwise
import PlayerLookup.Proofs.Pipeline.Unresolved

/-! Names in the answer of a chain. A job gives no two profiles whose names count as one, but the
answers of jobs are merged by id, without regard to how names are compared. So two spellings of a
name may both be answered, if they fell to different jobs, and this is the only way. -/

set_option autoImplicit false

namespace PlayerLookup

variable {σ K : Type}

/-! ## The keys of different jobs -/

namespace Worked

variable {work : List K → Lookup σ (List Profile)} {parts : List (List K)} {s : σ}
  {call : Lookup σ (List Profile)} {jobs : List (JobRun σ K (List Profile))}
  {i j : JobRun σ K (List Profile)}

theorem eq_of_number (h : Worked work parts s call jobs) (hi : i ∈ jobs) (hj : j ∈ jobs)
    (hnumber : i.number = j.number) : i = j :=
  List.inj_on_of_nodup_map (h.numbers_perm.nodup_iff.mpr List.nodup_range) hi hj hnumber

theorem disjoint_keys (h : Worked work parts s call jobs) (hparts : parts.flatten.Nodup)
    (hi : i ∈ jobs) (hj : j ∈ jobs) (hnumber : i.number ≠ j.number) : i.keys.Disjoint j.keys := by
  have hsymm : Std.Symm fun i j : JobRun σ K (List Profile) => i.keys.Disjoint j.keys :=
    ⟨fun _ _ hdisjoint k hi hj => hdisjoint hj hi⟩
  have hne : i ≠ j := fun heq => hnumber (congrArg JobRun.number heq)
  exact List.Pairwise.forall (h.pairwise_disjoint_keys hparts) hi hj hne

theorem number_eq_of_one_part (h : Worked work parts s call jobs) (hone : parts.length ≤ 1)
    (hi : i ∈ jobs) (hj : j ∈ jobs) : i.number = j.number := by
  have hzero : ∀ k ∈ jobs, k.number = 0 := by
    intro k hk
    have hmem := h.numbers_perm.mem_iff.mp (List.mem_map_of_mem (f := JobRun.number) hk)
    have hlt := List.mem_range.mp hmem
    omega
  rw [hzero i hi, hzero j hj]

end Worked

/-! ## What jobs found under one name -/

/-- The names of the profiles differ, also when compared as the case policy has it. -/
def DistinctNames (caseSensitive : Bool) (ps : List Profile) : Prop :=
  (ps.map fun p => matchingForm caseSensitive p.name.text).Nodup

theorem DistinctNames.eq_of_answers {caseSensitive : Bool} {ps : List Profile}
    (h : DistinctNames caseSensitive ps) {p q : Profile} (hp : p ∈ ps) (hq : q ∈ ps)
    (hname : p.Answers caseSensitive q.name.text) : p = q :=
  List.inj_on_of_nodup_map h hp hq hname

/-- Two jobs found the profiles; and if jobs give only what they are asked for, they were asked for
the name in two spellings. -/
def FoundApart (caseSensitive : Bool) (jobs : List (JobRun σ String (List Profile)))
    (p q : Profile) : Prop :=
  ∃ i ∈ jobs, ∃ j ∈ jobs, i.number ≠ j.number ∧ p ∈ i.answer ∧ q ∈ j.answer ∧
    ((∀ job ∈ jobs, ∀ a ∈ job.answer, ∃ key ∈ job.keys, a.Answers caseSensitive key) →
      ∃ k ∈ i.keys, ∃ l ∈ j.keys, k ≠ l ∧ p.Answers caseSensitive k ∧ q.Answers caseSensitive l)

section

variable {caseSensitive : Bool} {members : List (Source σ)} {cache : Cache σ}
  {parts : List (List String)} {s : σ} {call : Lookup σ (List Profile)}
  {jobs : List (JobRun σ String (List Profile))}

theorem Worked.distinctNames
    (h : Worked (Source.forwarding cache (Source.combined caseSensitive members)).byName.all
      parts s call jobs)
    {j : JobRun σ String (List Profile)} (hj : j ∈ jobs) (hsucceeded : j.failure? = none) :
    DistinctNames caseSensitive j.answer := by
  obtain ⟨before, after, hsplit⟩ := List.append_of_mem hj
  obtain ⟨turns, hturns⟩ := combined_answeredInTurn (matchingForm caseSensitive) (·.name.text)
    (members.map fun m => (m.label, m.byName)) j.keys (JobRun.leftBy s before)
  exact (hturns.firstOfEach (h.combined_result hsplit hsucceeded)).distinct

theorem Worked.foundApart
    (h : Worked (Source.forwarding cache (Source.combined caseSensitive members)).byName.all
      parts s call jobs)
    (hparts : parts.flatten.Nodup) (hsucceeded : ∀ j ∈ jobs, j.failure? = none) {p q : Profile}
    (hp : JobRun.Answered jobs p) (hq : JobRun.Answered jobs q) (hne : p ≠ q)
    (hname : p.Answers caseSensitive q.name.text) : FoundApart caseSensitive jobs p q := by
  obtain ⟨i, hi, hpi⟩ := hp
  obtain ⟨j, hj, hqj⟩ := hq
  have hnumber : i.number ≠ j.number := by
    intro hnumber
    obtain rfl := h.eq_of_number hi hj hnumber
    have hdistinct := h.distinctNames hi (hsucceeded i hi)
    exact hne (hdistinct.eq_of_answers hpi hqj hname)
  refine ⟨i, hi, j, hj, hnumber, hpi, hqj, fun hasked => ?_⟩
  obtain ⟨k, hk, hpk⟩ := hasked i hi p hpi
  obtain ⟨l, hl, hql⟩ := hasked j hj q hqj
  refine ⟨k, hk, l, hl, ?_, hpk, hql⟩
  rintro rfl
  exact h.disjoint_keys hparts hi hj hnumber hk hl

end

/-! ## A whole call -/

/-- Names are handed over in jobs, and each job answers a name once, however it is spelled. Two
profiles of one name are returned only if two jobs found them; there are none if all keys fit into
one job. -/
def NamedOnceInEachJob (caseSensitive : Bool) (cache : Cache σ) (members : List (Source σ))
    (w : Workers σ) (names : List String) (s : σ) (call : Lookup σ (List Profile))
    (ps : List Profile) : Prop :=
  let limit := smallestLimit members
  ∃ parts jobs, w.CutsInto limit names parts ∧
    Worked (Source.forwarding cache (Source.combined caseSensitive members)).byName.all parts s
      call jobs ∧
    (∀ j ∈ jobs, DistinctNames caseSensitive j.answer) ∧
    (∀ p ∈ ps, ∀ q ∈ ps, p ≠ q → p.Answers caseSensitive q.name.text →
      FoundApart caseSensitive jobs p q) ∧
    ((names.eraseDups.length : Int) ≤ min w.jobSize limit → DistinctNames caseSensitive ps)

theorem Workers.namedOnceInEachJob {caseSensitive : Bool} {cache : Cache σ}
    {members : List (Source σ)} {w : Workers σ} (hcomplete : w.schedule.Complete)
    (hnever : w.NeverCancelled) {names : List String} {s : σ} {ps : List Profile}
    (hok : ((w.findAll (smallestLimit members)
      (Source.forwarding cache
        (Source.combined caseSensitive members)).byName names).run s).result =
        .ok ps) :
    NamedOnceInEachJob caseSensitive cache members w names s
      (w.findAll (smallestLimit members)
        (Source.forwarding cache (Source.combined caseSensitive members)).byName names) ps := by
  obtain ⟨parts, hparts⟩ := Workers.jobs_of_findAll hok
  obtain ⟨hsucceeded, hmerged⟩ := Workers.findAll_answered hparts hcomplete hnever hok
  have hworked := (Workers.findAll_run_ok (q :=
    (Source.forwarding cache (Source.combined caseSensitive members)).byName)
    hparts hcomplete hnever s).1
  have hcuts := Workers.cutsInto_of_jobs hparts
  have hnodup : parts.flatten.Nodup := by
    rw [Workers.flatten_of_jobs hparts]
    exact Batch.nodup_unique names
  have hapart : ∀ p ∈ ps, ∀ q ∈ ps, p ≠ q → p.Answers caseSensitive q.name.text →
      FoundApart caseSensitive _ p q := fun p hp q hq =>
    hworked.foundApart hnodup hsucceeded (hmerged.found_of_mem p hp) (hmerged.found_of_mem q hq)
  refine ⟨parts, _, hcuts, hworked, fun j hj => hworked.distinctNames hj (hsucceeded j hj), hapart,
    fun hfits => ?_⟩
  have hpos := (Workers.parts_of_jobs hparts).1
  have hone : parts.length ≤ 1 := by
    rw [Workers.length_of_jobs hparts, Batch.unique_eq_eraseDups]
    exact Nat.lt_succ_iff.mp (Nat.div_lt_of_lt_mul (by omega))
  refine List.Nodup.map_on (fun p hp q hq hname => ?_) (List.Nodup.of_map _ hmerged.ids_nodup)
  by_contra hne
  obtain ⟨i, hi, j, hj, hnumber, -⟩ := hapart p hp q hq hne hname
  exact hnumber (hworked.number_eq_of_one_part hone hi hj)

/-- **A name is returned twice only if two jobs found it.** -/
theorem chain_names_apart_within_jobs (host : Option (Registry σ)) (cache : Cache σ)
    (pinned : Cell σ LocalMap) (remote : Remote σ) (caseSensitive : Bool) (w : Workers σ)
    (hcomplete : w.schedule.Complete) (hnever : w.NeverCancelled) (names : List String) (s : σ)
    (ps : List Profile)
    (hok : (((Pipeline.chain host cache pinned remote caseSensitive w).byName.all names).run
      s).result = .ok ps) :
    NamedOnceInEachJob caseSensitive cache (Pipeline.members host cache pinned remote) w names s
      ((Pipeline.chain host cache pinned remote caseSensitive w).byName.all names) ps :=
  Workers.namedOnceInEachJob hcomplete hnever hok

/-! ## A name in two spellings -/

namespace Spelled

def upper : Profile := ⟨⟨1⟩, .steve⟩

def lower : Profile := ⟨⟨2⟩, ⟨"steve", by decide⟩⟩

/-- The cache knows two players whose names differ only in case. -/
def state : Memory × LocalMap :=
  (⟨[(upper.id, upper.name), (lower.id, lower.name)],
    [(upper.name, upper.id), (lower.name, lower.id)]⟩, .empty)

def workers (jobSize : Int) : Workers (Memory × LocalMap) := ⟨jobSize, .inOrder, false, none⟩

def names : List String := ["Steve", "steve"]

/-- The batch of both names with jobs of a size. -/
def call (jobSize : Int) : Lookup (Memory × LocalMap) (List Profile) :=
  (Pipeline.chain none (.memory .first) .second Renamed.remote false (workers jobSize)).byName.all
    names

theorem result_of_two_jobs : ((call 1).run state).result = .ok [upper, lower] :=
  Except.eq_ok_of_toOption (by decide +kernel)

theorem result_of_one_job : ((call 2).run state).result = .ok [upper] :=
  Except.eq_ok_of_toOption (by decide +kernel)

end Spelled

/-- Both spellings are returned if each is a job of its own. -/
theorem chain_names_apart_within_jobs_steve :
    (Spelled.workers 1).schedule.Complete ∧ (Spelled.workers 1).NeverCancelled ∧
      ((Spelled.call 1).run Spelled.state).result = .ok [Spelled.upper, Spelled.lower] ∧
      NamedOnceInEachJob false (.memory .first)
        (Pipeline.members none (.memory .first) .second Renamed.remote) (Spelled.workers 1)
        Spelled.names Spelled.state (Spelled.call 1) [Spelled.upper, Spelled.lower] := by
  have hnever : (Spelled.workers 1).NeverCancelled := fun ask h => by cases h
  exact ⟨Schedule.complete_inOrder, hnever, Spelled.result_of_two_jobs,
    chain_names_apart_within_jobs none (.memory .first) .second Renamed.remote false
      (Spelled.workers 1) Schedule.complete_inOrder hnever Spelled.names Spelled.state _
      Spelled.result_of_two_jobs⟩

/-- Names that count as one are returned or not, according to how they are cut into jobs. -/
theorem names_apart_depends_on_jobs :
    ((Spelled.call 1).run Spelled.state).result = .ok [Spelled.upper, Spelled.lower] ∧
      ¬ DistinctNames false [Spelled.upper, Spelled.lower] ∧
      ((Spelled.call 2).run Spelled.state).result = .ok [Spelled.upper] := by
  have hname : matchingForm false Spelled.upper.name.text =
      matchingForm false Spelled.lower.name.text := by decide +kernel
  refine ⟨Spelled.result_of_two_jobs, fun hdistinct => ?_, Spelled.result_of_one_job⟩
  have heq := hdistinct.eq_of_answers (p := Spelled.upper) (q := Spelled.lower)
    List.mem_cons_self (List.mem_cons_of_mem _ List.mem_cons_self) hname
  exact absurd heq (by decide)

end PlayerLookup
