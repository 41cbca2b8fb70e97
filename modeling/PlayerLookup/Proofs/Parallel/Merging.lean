import PlayerLookup.Proofs.Parallel.Calls
import PlayerLookup.Source.LocalMap

/-! What a batch comes to whose jobs all succeed: one profile for each id that some job answered
with, whatever the order and the groups in which the jobs are seen to be complete. If the source
answers a batch with its answers for single keys, these are the ids that one call for all keys
gives. -/

set_option autoImplicit false

namespace PlayerLookup

variable {σ K α : Type}

/-! ## Profiles from several answers -/

/-- The profiles that a job answered with; a job that failed answered with none. -/
def JobRun.answer (j : JobRun σ K (List Profile)) : List Profile :=
  j.outcome.result.toOption.getD []

theorem JobRun.answer_of_ok {j : JobRun σ K (List Profile)} {ps : List Profile}
    (h : j.outcome.result = .ok ps) : j.answer = ps := by
  rw [answer, h]
  rfl

theorem JobRun.result_of_succeeded {j : JobRun σ K (List Profile)} (h : j.failure? = none) :
    j.outcome.result = .ok j.answer := by
  cases hresult : j.outcome.result with
  | ok ps => rw [answer_of_ok hresult]
  | error f =>
    rw [failure?, hresult] at h
    cases h

/-- Some job answered with the profile. -/
def JobRun.Answered (jobs : List (JobRun σ K (List Profile))) (p : Profile) : Prop :=
  ∃ j ∈ jobs, p ∈ j.answer

/-- One profile for each id among the profiles that were found, and only such as were found. -/
structure Profile.MergedFrom (found : Profile → Prop) (ps : List Profile) : Prop where
  ids_nodup : (ps.map Profile.id).Nodup
  found_of_mem : ∀ p ∈ ps, found p
  id_mem : ∀ p, found p → p.id ∈ ps.map Profile.id

namespace Profile

theorem mergedFrom_distinct (ps : List Profile) : MergedFrom (· ∈ ps) (distinct ps) :=
  ⟨Batch.nodup_map_uniqueBy Profile.id ps,
    fun _ hp => (Batch.uniqueFrom_sublist Profile.id [] ps).subset hp,
    fun _ hp => (Batch.mem_map_uniqueBy Profile.id ps _).mpr (List.mem_map_of_mem hp)⟩

theorem MergedFrom.congr {found found' : Profile → Prop} {ps : List Profile}
    (h : MergedFrom found ps) (hiff : ∀ p, found p ↔ found' p) : MergedFrom found' ps :=
  ⟨h.ids_nodup, fun p hp => (hiff p).mp (h.found_of_mem p hp),
    fun p hp => h.id_mem p ((hiff p).mpr hp)⟩

theorem MergedFrom.mem_ids_iff {found : Profile → Prop} {ps : List Profile}
    (h : MergedFrom found ps) (id : PlayerId) :
    id ∈ ps.map Profile.id ↔ ∃ p, found p ∧ p.id = id := by
  constructor
  · intro hid
    obtain ⟨p, hp, rfl⟩ := List.mem_map.mp hid
    exact ⟨p, h.found_of_mem p hp, rfl⟩
  · rintro ⟨p, hp, rfl⟩
    exact h.id_mem p hp

theorem MergedFrom.mem_iff {found : Profile → Prop} {ps : List Profile} (h : MergedFrom found ps)
    (hone : ∀ p q, found p → found q → p.id = q.id → p = q) (p : Profile) : p ∈ ps ↔ found p := by
  constructor
  · exact h.found_of_mem p
  · intro hp
    obtain ⟨q, hq, hid⟩ := List.mem_map.mp (h.id_mem p hp)
    rwa [hone p q hp (h.found_of_mem q hq) hid.symm]

end Profile

namespace Workers

variable {w : Workers σ} {limit : Int}

theorem verdict_heard_ok (hcomplete : w.schedule.Complete) {jobs : List (JobRun σ K α)}
    (hn : (jobs.map JobRun.number).Perm (List.range jobs.length))
    (hsucceeded : ∀ j ∈ jobs, j.failure? = none) :
    ∃ answers, verdict (heard [] none (w.inHearingOrder (outcomesOf jobs))) = .ok answers ∧
      ∀ a, a ∈ answers ↔ ∃ j ∈ jobs, j.outcome.result = .ok a := by
  have hheard : ∀ result ∈ w.inHearingOrder (outcomesOf jobs), failureOf result = none := by
    intro result hresult
    obtain ⟨j, hj, rfl⟩ := (mem_inHearingOrder hcomplete hn).mp hresult
    exact hsucceeded j hj
  have hordinary : ∀ f, .error f ∈ w.inHearingOrder (outcomesOf jobs) → f.isOrdinary = true :=
    fun f hf => absurd (hheard _ hf) (Option.some_ne_none f)
  rw [heard_ordinary hordinary, List.findSome?_eq_none_iff.mpr hheard]
  refine ⟨_, rfl, fun a => ?_⟩
  rw [List.nil_append, List.mem_filterMap, ← mem_inHearingOrder hcomplete hn]
  constructor
  · rintro ⟨result, hresult, ha⟩
    cases result with
    | error f => cases ha
    | ok b =>
      cases ha
      exact hresult
  · exact fun ha => ⟨.ok a, ha, rfl⟩

theorem succeeded_of_verdict (hcomplete : w.schedule.Complete) {jobs : List (JobRun σ K α)}
    (hn : (jobs.map JobRun.number).Perm (List.range jobs.length)) {answers : List α}
    (h : verdict (heard [] none (w.inHearingOrder (outcomesOf jobs))) = .ok answers) :
    ∀ j ∈ jobs, j.failure? = none := by
  intro j hj
  cases hheard : heard [] none (w.inHearingOrder (outcomesOf jobs)) with
  | error f =>
    rw [hheard] at h
    cases h
  | ok r =>
    rw [heard_ordinary fun f hf => ordinary_of_heard hheard hf] at h
    cases hfirst : (w.inHearingOrder (outcomesOf jobs)).findSome? failureOf with
    | some f =>
      rw [hfirst] at h
      cases h
    | none =>
      exact List.findSome?_eq_none_iff.mp hfirst _
        ((mem_inHearingOrder hcomplete hn).mpr ⟨j, hj, rfl⟩)

variable [DecidableEq K]

theorem findAll_run_ok {q : Queries σ K} {keys : List K} {parts : List (List K)}
    (hparts : w.jobs limit (Batch.unique keys) = .ok parts) (hcomplete : w.schedule.Complete)
    (hnever : w.NeverCancelled) (s : σ) :
    Worked q.all parts s (w.findAll limit q keys) (w.jobsOf q.all s parts) ∧
      ((∀ j ∈ w.jobsOf q.all s parts, j.failure? = none) →
        ∃ ps, ((w.findAll limit q keys).run s).result = .ok ps ∧
          Profile.MergedFrom (JobRun.Answered (w.jobsOf q.all s parts)) ps) := by
  obtain ⟨hworked, hresult⟩ := workThrough_run hparts hcomplete hnever q.all s
  have hn := hworked.numbers_perm
  rw [← hworked.length_eq] at hn
  rw [findAll_eq]
  refine ⟨hworked.map _, fun hsucceeded => ?_⟩
  obtain ⟨answers, hverdict, hanswers⟩ := verdict_heard_ok hcomplete hn hsucceeded
  rw [Lookup.run_map, hresult, hverdict]
  refine ⟨_, rfl, (Profile.mergedFrom_distinct answers.flatten).congr fun p => ?_⟩
  rw [List.mem_flatten]
  constructor
  · rintro ⟨a, ha, hp⟩
    obtain ⟨j, hj, hresult⟩ := (hanswers a).mp ha
    exact ⟨j, hj, by rwa [JobRun.answer_of_ok hresult]⟩
  · rintro ⟨j, hj, hp⟩
    cases hfound : j.outcome.result with
    | error f =>
      rw [JobRun.answer, hfound] at hp
      exact absurd hp List.not_mem_nil
    | ok a =>
      rw [JobRun.answer_of_ok hfound] at hp
      exact ⟨a, (hanswers a).mpr ⟨j, hj, hfound⟩, hp⟩

theorem findAll_answered {q : Queries σ K} {keys : List K} {parts : List (List K)}
    (hparts : w.jobs limit (Batch.unique keys) = .ok parts) (hcomplete : w.schedule.Complete)
    (hnever : w.NeverCancelled) {s : σ} {ps : List Profile}
    (h : ((w.findAll limit q keys).run s).result = .ok ps) :
    (∀ j ∈ w.jobsOf q.all s parts, j.failure? = none) ∧
      Profile.MergedFrom (JobRun.Answered (w.jobsOf q.all s parts)) ps := by
  obtain ⟨-, hmerged⟩ := findAll_run_ok (q := q) hparts hcomplete hnever s
  obtain ⟨hthrough, hresult⟩ := workThrough_run hparts hcomplete hnever q.all s
  have hn := hthrough.numbers_perm
  rw [← hthrough.length_eq] at hn
  have hsucceeded : ∀ j ∈ w.jobsOf q.all s parts, j.failure? = none := by
    rw [findAll_eq, Lookup.run_map, hresult] at h
    cases hverdict :
        verdict (heard [] none (w.inHearingOrder (outcomesOf (w.jobsOf q.all s parts)))) with
    | error f =>
      rw [hverdict] at h
      cases h
    | ok answers => exact succeeded_of_verdict hcomplete hn hverdict
  obtain ⟨qs, hqs, hfrom⟩ := hmerged hsucceeded
  rw [h] at hqs
  obtain rfl := Except.ok.inj hqs
  exact ⟨hsucceeded, hfrom⟩

theorem findAll_result_of_jobs_error {q : Queries σ K} {keys : List K} {s : σ} {f : Failure}
    (h : w.jobs limit (Batch.unique keys) = .error f) :
    ((w.findAll limit q keys).run s).result = .error f := by
  have hcut : (Lookup.ofExcept (w.jobs limit (Batch.unique keys)) :
      Lookup σ (List (List K))).run s = ⟨[], s, .error f⟩ := by
    rw [h]
    rfl
  rw [findAll, Lookup.run_bind_error hcut]

theorem jobs_of_findAll {q : Queries σ K} {keys : List K} {s : σ} {ps : List Profile}
    (h : ((w.findAll limit q keys).run s).result = .ok ps) :
    ∃ parts, w.jobs limit (Batch.unique keys) = .ok parts := by
  cases hparts : w.jobs limit (Batch.unique keys) with
  | ok parts => exact ⟨parts, rfl⟩
  | error f =>
    rw [findAll_result_of_jobs_error hparts] at h
    cases h

theorem merged_of_findAll {q : Queries σ K} {keys : List K} (hcomplete : w.schedule.Complete)
    (hnever : w.NeverCancelled) {s : σ} {ps : List Profile}
    (h : ((w.findAll limit q keys).run s).result = .ok ps) :
    ∃ parts jobs, parts.flatten = keys.eraseDups ∧
      Worked q.all parts s (w.findAll limit q keys) jobs ∧ (∀ j ∈ jobs, j.failure? = none) ∧
      Profile.MergedFrom (JobRun.Answered jobs) ps := by
  obtain ⟨parts, hparts⟩ := jobs_of_findAll h
  obtain ⟨hsucceeded, hfrom⟩ := findAll_answered hparts hcomplete hnever h
  refine ⟨parts, _, ?_, (findAll_run_ok hparts hcomplete hnever s).1, hsucceeded, hfrom⟩
  rw [flatten_of_jobs hparts, Batch.unique_eq_eraseDups]

end Workers

/-! ## Compared with one call for all keys -/

/-- From states of a kind that batches keep, the answer for each key alone is fixed, and a batch is
answered with the answers for its keys alone. -/
structure Queries.Pointwise (q : Queries σ K) (kept : σ → Prop) (answer : K → Option Profile) :
    Prop where
  one_eq : ∀ s k found, kept s → ((q.one k).run s).result = .ok found → found = answer k
  mem_all_iff : ∀ s keys ps, kept s → ((q.all keys).run s).result = .ok ps →
    ∀ p, p ∈ ps ↔ ∃ k ∈ keys, answer k = some p
  all_kept : ∀ s keys, kept s → kept ((q.all keys).run s).state

section

variable {one : K → Lookup σ (Option Profile)} {kept : σ → Prop} {answer : K → Option Profile}

theorem Queries.collect_pointwise
    (heq : ∀ s k found, kept s → ((one k).run s).result = .ok found → found = answer k)
    (hkept : ∀ s k, kept s → kept ((one k).run s).state) (keys : List K) {s : σ} (hs : kept s) :
    kept ((collect one keys).run s).state ∧
      ∀ ps, ((collect one keys).run s).result = .ok ps → ps = keys.filterMap answer := by
  induction keys generalizing s with
  | nil => exact ⟨hs, fun ps h => (Except.ok.inj h).symm⟩
  | cons k rest ih =>
    have hstate := hkept s k hs
    have hanswer := heq s k
    rcases hone : (one k).run s with ⟨events, t, result⟩
    rw [hone] at hstate hanswer
    cases result with
    | error f =>
      rw [collect, Lookup.run_bind_error hone]
      exact ⟨hstate, fun ps h => by cases h⟩
    | ok found =>
      obtain ⟨hrest, hmore⟩ := ih hstate
      rw [collect, Lookup.run_bind_ok hone, Lookup.run_map]
      refine ⟨hrest, fun ps h => ?_⟩
      dsimp only at h
      cases hresult : ((collect one rest).run t).result with
      | error f =>
        rw [hresult] at h
        cases h
      | ok more =>
        rw [hresult] at h
        rw [← Except.ok.inj h, hmore more hresult, List.filterMap_cons, hanswer found hs rfl]
        cases answer k <;> rfl

theorem Queries.pointwise_ofOne [DecidableEq K]
    (heq : ∀ s k found, kept s → ((one k).run s).result = .ok found → found = answer k)
    (hkept : ∀ s k, kept s → kept ((one k).run s).state) : (ofOne one).Pointwise kept answer := by
  refine ⟨heq, fun s keys ps hs h p => ?_, fun s keys hs => ?_⟩
  · rw [(collect_pointwise heq hkept _ hs).2 ps h, List.mem_filterMap]
    simp only [Batch.mem_unique]
  · exact (collect_pointwise heq hkept _ hs).1

end

namespace Worked

variable {q : Queries σ K} {parts : List (List K)} {s : σ} {call : Lookup σ (List Profile)}
  {jobs : List (JobRun σ K (List Profile))}

theorem kept_leftBy {kept : σ → Prop} (h : Worked q.all parts s call jobs)
    (hkept : ∀ s keys, kept s → kept ((q.all keys).run s).state) (hs : kept s)
    {before after : List (JobRun σ K (List Profile))} (hjobs : jobs = before ++ after) :
    kept (JobRun.leftBy s before) := by
  refine h.invariant (P := fun _ t => kept t) hs (fun before j _ hbefore houtcome => ?_) hjobs
  rw [houtcome]
  exact hkept _ _ hbefore

theorem exists_mem_keys_iff (h : Worked q.all parts s call jobs) (k : K) :
    (∃ j ∈ jobs, k ∈ j.keys) ↔ k ∈ parts.flatten := by
  rw [List.mem_flatten]
  constructor
  · rintro ⟨j, hj, hk⟩
    exact ⟨j.keys, h.keys_mem hj, hk⟩
  · rintro ⟨part, hpart, hk⟩
    obtain ⟨j, hj, rfl⟩ := List.mem_map.mp (h.keys_perm.mem_iff.mpr hpart)
    exact ⟨j, hj, hk⟩

theorem nodup_answers {β : Type} {call : Lookup σ β} {keyOf : Profile → K}
    (h : Worked q.all parts s call jobs) (hparts : parts.flatten.Nodup)
    (hjob : ∀ j ∈ jobs, (j.answer.map keyOf).Nodup ∧ ∀ p ∈ j.answer, keyOf p ∈ j.keys) :
    ((jobs.flatMap JobRun.answer).map keyOf).Nodup := by
  have hkeys := h.pairwise_disjoint_keys hparts
  rw [List.map_flatMap, List.nodup_flatMap]
  refine ⟨fun j hj => (hjob j hj).1, hkeys.imp_of_mem fun hi hj hdisjoint k hki hkj => ?_⟩
  obtain ⟨p, hp, rfl⟩ := List.mem_map.mp hki
  obtain ⟨q, hq, hqp⟩ := List.mem_map.mp hkj
  refine hdisjoint ((hjob _ hi).2 p hp) ?_
  rw [← hqp]
  exact (hjob _ hj).2 q hq

theorem answered_iff {kept : σ → Prop} {answer : K → Option Profile}
    (h : Worked q.all parts s call jobs) (hq : q.Pointwise kept answer) (hs : kept s)
    (hsucceeded : ∀ j ∈ jobs, j.failure? = none) (p : Profile) :
    JobRun.Answered jobs p ↔ ∃ k ∈ parts.flatten, answer k = some p := by
  have hjob : ∀ j ∈ jobs, (p ∈ j.answer ↔ ∃ k ∈ j.keys, answer k = some p) := by
    intro j hj
    obtain ⟨before, after, hsplit⟩ := List.append_of_mem hj
    have hfrom := h.kept_leftBy hq.all_kept hs hsplit
    have houtcome := h.outcome_eq before j after hsplit
    have hfailure := hsucceeded j hj
    cases hfound : j.outcome.result with
    | error f =>
      rw [JobRun.failure?, hfound] at hfailure
      cases hfailure
    | ok ps =>
      rw [JobRun.answer_of_ok hfound]
      refine hq.mem_all_iff _ j.keys ps hfrom ?_ p
      rw [← houtcome, hfound]
  constructor
  · rintro ⟨j, hj, hp⟩
    obtain ⟨k, hk, hanswer⟩ := (hjob j hj).mp hp
    exact ⟨k, (h.exists_mem_keys_iff k).mp ⟨j, hj, hk⟩, hanswer⟩
  · rintro ⟨k, hk, hanswer⟩
    obtain ⟨j, hj, hkj⟩ := (h.exists_mem_keys_iff k).mpr hk
    exact ⟨j, hj, (hjob j hj).mpr ⟨k, hkj, hanswer⟩⟩

end Worked

namespace Workers

variable [DecidableEq K]

/-- The call hands the distinct keys over in parts. If all jobs succeed, it gives one profile for
each id that they answered with; and these are the ids of a single call for all keys, if batches
are answered key by key. -/
def Merges (w : Workers σ) (limit : Int) (q : Queries σ K) (keys : List K) (s : σ)
    (call : Lookup σ (List Profile)) : Prop :=
  ∃ parts jobs, w.CutsInto limit keys parts ∧ Worked q.all parts s call jobs ∧
    ((∀ j ∈ jobs, j.failure? = none) →
      ∃ ps, (call.run s).result = .ok ps ∧ Profile.MergedFrom (JobRun.Answered jobs) ps ∧
        ∀ kept answer, q.Pointwise kept answer → kept s →
          ∀ t qs, kept t → ((q.all keys).run t).result = .ok qs →
            ∀ id, id ∈ ps.map Profile.id ↔ id ∈ qs.map Profile.id)

theorem merges_findAll {w : Workers σ} {limit : Int} (h : w.Ready limit) (q : Queries σ K)
    (keys : List K) (s : σ) : w.Merges limit q keys s (w.findAll limit q keys) := by
  obtain ⟨hworked, hmerged⟩ :=
    findAll_run_ok (h.jobs_eq (Batch.unique keys)) h.complete h.neverCancelled s
  have hcuts := h.cutsInto keys
  refine ⟨_, _, hcuts, hworked, fun hsucceeded => ?_⟩
  obtain ⟨ps, hresult, hps⟩ := hmerged hsucceeded
  refine ⟨ps, hresult, hps, fun kept answer hq hs t qs ht hserial id => ?_⟩
  have hanswered := hworked.answered_iff hq hs hsucceeded
  have hflat := hcuts.flatten_eq
  rw [hps.mem_ids_iff, List.mem_map]
  refine exists_congr fun p => and_congr_left fun _ => ?_
  rw [hanswered p, hq.mem_all_iff t keys qs ht hserial p, hflat]
  simp only [List.mem_eraseDups]

end Workers

/-- **Batches in jobs come to what one call comes to.** A batch by names or by ids, or one for a
visitor, is cut into the distinct keys, in parts that fit a job. The jobs of a batch together give
one profile for each id that they answered with, however they are taken up and seen to be complete;
these are the ids that one call for all keys gives. -/
theorem parallel_merges_answers (w : Workers σ) (source : Source σ) (h : w.Ready source.limit)
    (s : σ) :
    (∀ names,
      w.Merges source.limit source.byName names s
        ((Source.parallel w source).byName.all names) ∧
      ∀ visitor, w.SharesOut source.limit (fun part => (source.byName.visit part).run visitor)
        names s (((Source.parallel w source).byName.visit names).run visitor)) ∧
    ∀ ids,
      w.Merges source.limit source.byId ids s ((Source.parallel w source).byId.all ids) ∧
      ∀ visitor, w.SharesOut source.limit (fun part => (source.byId.visit part).run visitor)
        ids s (((Source.parallel w source).byId.visit ids).run visitor) :=
  ⟨fun names => ⟨Workers.merges_findAll h source.byName names s,
      Workers.sharesOut_visit h source.byName names s⟩,
    fun ids => ⟨Workers.merges_findAll h source.byId ids s,
      Workers.sharesOut_visit h source.byId ids s⟩⟩

def Name.steve : Name := ⟨"Steve", by decide⟩

def Name.alex : Name := ⟨"Alex", by decide⟩

/-- Two pinned names of one player, and one of another. -/
def LocalMap.twoNames : LocalMap :=
  empty.putAll [⟨⟨1⟩, ⟨"Steve", by decide⟩⟩, ⟨⟨1⟩, ⟨"Alex", by decide⟩⟩,
    ⟨⟨2⟩, ⟨"Notch", by decide⟩⟩]

def Source.twoNames : Source LocalMap := localMap Cell.whole

theorem Source.twoNames_pointwise :
    twoNames.byName.Pointwise (· = LocalMap.twoNames) LocalMap.twoNames.byName? := by
  refine Queries.pointwise_ofOne ?_ ?_
  · rintro _ name found rfl h
    exact (Except.ok.inj h).symm
  · rintro _ name rfl
    rfl

/-- Of a player who answers to two of the names one profile is given. -/
theorem parallel_merges_twoNames :
    (Workers.backwards 1 : Workers LocalMap).Ready Source.twoNames.limit ∧
      Source.twoNames.byName.Pointwise (· = LocalMap.twoNames) LocalMap.twoNames.byName? ∧
      (Workers.backwards 1).Merges Source.twoNames.limit Source.twoNames.byName
        ["Notch", "Steve", "Alex", "Steve"] LocalMap.twoNames
        ((Source.parallel (.backwards 1) .twoNames).byName.all
          ["Notch", "Steve", "Alex", "Steve"]) ∧
      (((Source.parallel (.backwards 1) .twoNames).byName.all
          ["Notch", "Steve", "Alex", "Steve"]).run LocalMap.twoNames).result =
        .ok [⟨⟨1⟩, ⟨"Alex", by decide⟩⟩, ⟨⟨2⟩, ⟨"Notch", by decide⟩⟩] := by
  have hready : (Workers.backwards 1 : Workers LocalMap).Ready Source.twoNames.limit :=
    Workers.ready_backwards (by decide) (by decide) (by decide)
  refine ⟨hready, Source.twoNames_pointwise, ?_, ?_⟩
  · exact ((parallel_merges_answers _ _ hready LocalMap.twoNames).1
      ["Notch", "Steve", "Alex", "Steve"]).1
  · with_unfolding_all rfl

end PlayerLookup
