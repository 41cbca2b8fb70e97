import PlayerLookup.Proofs.Cache.History
import PlayerLookup.Proofs.Parallel.Merging
import PlayerLookup.Proofs.Remote.Untouched

/-! What a call leaves in a memory that stores what the jobs of the call find: all that they
answered with, in order, after what was there before. -/

set_option autoImplicit false

namespace PlayerLookup

variable {σ K : Type}

/-! ## Memories that hold the same -/

namespace Memory

theorem Coherent.not_displaces {m : Memory} (hm : m.Coherent) {p q : Profile} (hp : m.Holds p)
    (hq : m.Holds q) : ¬ q.Displaces p := by
  rintro (⟨hid, hname⟩ | ⟨hname, hid⟩)
  · rw [Holds, hid, hp] at hq
    exact hname (Option.some.inj hq).symm
  · rw [hm.holds_iff] at hp hq
    rw [hname, hp] at hq
    exact hid (Option.some.inj hq).symm

theorem Coherent.reflects_all {m : Memory} (hm : m.Coherent) : m.Reflects m.all where
  coherent := hm
  holds_iff p := by
    rw [← mem_all hm]
    constructor
    · intro hp
      obtain ⟨before, after, hsplit⟩ := List.append_of_mem hp
      refine ⟨before, after, hsplit, fun q hq => hm.not_displaces ((mem_all hm p).mp hp) ?_⟩
      rw [← mem_all hm, hsplit]
      exact List.mem_append_right _ (List.mem_cons_of_mem p hq)
    · rintro ⟨before, after, hsplit, -⟩
      rw [hsplit]
      exact List.mem_append_right _ List.mem_cons_self

/-- The other memory is coherent and holds just the same profiles. -/
structure SameAs (m m' : Memory) : Prop where
  coherent : m'.Coherent
  holds_iff : ∀ p, m'.Holds p ↔ m.Holds p

variable {m m' : Memory}

theorem SameAs.names_get? (h : m.SameAs m') (id : PlayerId) :
    m'.names.get? id = m.names.get? id :=
  Option.ext fun n => h.holds_iff ⟨id, n⟩

theorem SameAs.ids_get? (hm : m.Coherent) (h : m.SameAs m') (n : Name) :
    m'.ids.get? n = m.ids.get? n := by
  refine Option.ext fun id => ?_
  rw [← h.coherent.inverse, ← hm.inverse]
  exact h.holds_iff ⟨id, n⟩

theorem SameAs.profile?_eq (h : m.SameAs m') : m'.profile? = m.profile? := by
  funext id
  rw [profile?, profile?, h.names_get?]

theorem SameAs.holder?_eq (hm : m.Coherent) (h : m.SameAs m') : m'.holder? = m.holder? := by
  funext name
  unfold holder?
  simp only [h.ids_get? hm]

end Memory

/-! ## Histories that go on -/

theorem stands_append_iff {history : List Profile} {m : Memory} (hm : m.Reflects history)
    {ps : List Profile} (hps : ∀ p ∈ ps, Stands history p) (p : Profile) :
    Stands (history ++ ps) p ↔ Stands history p := by
  rw [stands_append]
  constructor
  · rintro (hp | ⟨hp, -⟩)
    · exact hps p hp.mem
    · exact hp
  · intro hp
    refine Or.inr ⟨hp, fun q hq => hm.coherent.not_displaces ?_ ?_⟩
    · exact (hm.holds_iff p).mpr hp
    · exact (hm.holds_iff q).mpr (hps q hq)

theorem stands_of_mem {history ps : List Profile}
    (h : ∀ p ∈ ps, ∀ q ∈ ps, ¬ q.Displaces p) {p : Profile} (hp : p ∈ ps) :
    Stands (history ++ ps) p :=
  (stands_append history ps p).mpr (Or.inl (stands_of_not_displaced hp (h p hp)))

/-! ## Storing what was found -/

variable {cell : Cell σ Memory} {history : List Profile} {s : σ}

namespace Cache

theorem keep_memory_run (ps : List Profile) (h : (cell.get s).Reflects history) :
    ∃ t, ((memory cell).keep ps).run s = ⟨[], t, .ok ()⟩ ∧
      (cell.get t).Reflects (history ++ ps) ∧
      ∀ (β : Type) (d : Cell σ β), cell.Apart d → d.get t = d.get s := by
  obtain ⟨t, hrun, ht, hframe⟩ := storeInMemory_run cell ps history s h
  unfold keep
  by_cases hempty : ps.isEmpty = true
  · obtain rfl := List.isEmpty_iff.mp hempty
    refine ⟨s, rfl, ?_, fun _ _ _ => rfl⟩
    rw [List.append_nil]
    exact h
  · refine ⟨t, ?_, ht, hframe⟩
    rw [if_neg hempty]
    exact Lookup.rescue_run_ok hrun

theorem gives_keep_held {m : Memory} {own : Event → Prop} {ps : List Profile}
    (h : ∀ p ∈ ps, m.Holds p) :
    ((memory cell).keep ps).Gives (fun s => m.SameAs (cell.get s)) own () := by
  intro s hs
  have hreflects := hs.coherent.reflects_all
  have hstand : ∀ p ∈ ps, Stands (cell.get s).all p := fun p hp =>
    (hreflects.holds_iff p).mp ((hs.holds_iff p).mpr (h p hp))
  obtain ⟨t, hrun, ht, -⟩ := keep_memory_run ps hreflects
  refine ⟨[], t, hrun, ⟨ht.coherent, fun p => ?_⟩, fun e he => absurd he List.not_mem_nil⟩
  rw [ht.holds_iff, stands_append_iff hreflects hstand, ← hreflects.holds_iff, hs.holds_iff]

end Cache

/-- A batch whose profiles are stored comes to the same as the batch alone, and the memory has what
it came to after what it had before. -/
theorem Queries.keeping_run {q : Queries σ K} (hq : q.LeavesAlone cell) (keys : List K)
    (h : (cell.get s).Reflects history) :
    ∃ events t, ((q.keeping (.memory cell)).all keys).run s =
        ⟨events, t, ((q.all keys).run s).result⟩ ∧
      (cell.get t).Reflects (history ++ ((q.all keys).run s).result.toOption.getD []) ∧
      ∀ (β : Type) (d : Cell σ β), cell.Apart d → d.get t = d.get ((q.all keys).run s).state := by
  have hleft := hq keys s
  change ∃ events t, (do
      let found ← q.all keys
      (Cache.memory cell).keep found
      return found : Lookup σ (List Profile)).run s = ⟨events, t, _⟩ ∧ _
  rcases hrun : (q.all keys).run s with ⟨events, t, result⟩
  rw [hrun] at hleft
  dsimp only at hleft ⊢
  have ht : (cell.get t).Reflects history := by rwa [hleft]
  cases result with
  | error f =>
    refine ⟨events, t, Lookup.run_bind_error hrun _, ?_, fun _ _ _ => rfl⟩
    change (cell.get t).Reflects (history ++ [])
    rwa [List.append_nil]
  | ok found =>
    obtain ⟨u, hkeep, hu, hframe⟩ := Cache.keep_memory_run found ht
    refine ⟨events ++ [], u, ?_, hu, hframe⟩
    rw [Lookup.run_bind_ok hrun, Lookup.run_bind_quiet hkeep]
    rfl

theorem Queries.keeping_reflects {q : Queries σ K} (hq : q.LeavesAlone cell) (keys : List K)
    (h : (cell.get s).Reflects history) :
    (cell.get (((q.keeping (.memory cell)).all keys).run s).state).Reflects
      (history ++
        ((((q.keeping (.memory cell)).all keys).run s).result.toOption.getD [])) := by
  obtain ⟨events, t, hrun, ht, -⟩ := keeping_run hq keys h
  rw [hrun]
  exact ht

theorem Worked.memory_reflects {β : Type} {q : Queries σ K} (hq : q.LeavesAlone cell)
    {parts : List (List K)} {call : Lookup σ β} {jobs : List (JobRun σ K (List Profile))}
    (h : Worked (q.keeping (.memory cell)).all parts s call jobs)
    (hs : (cell.get s).Reflects history) :
    (cell.get (call.run s).state).Reflects (history ++ jobs.flatMap JobRun.answer) := by
  rw [h.state_eq]
  refine h.invariant
    (P := fun before t => (cell.get t).Reflects (history ++ before.flatMap JobRun.answer))
    (by simpa using hs) (fun before j _ hbefore houtcome => ?_) (List.append_nil jobs).symm
  have hafter := Queries.keeping_reflects hq j.keys hbefore
  rw [← houtcome] at hafter
  rw [List.flatMap_append, List.flatMap_singleton, ← List.append_assoc]
  exact hafter

/-! ## Calls of which every job gives something -/

namespace Workers

variable {w : Workers σ} {limit : Int}

theorem jobs_ok_of_ok {keys keys' : List K} {parts : List (List K)}
    (h : w.jobs limit keys = .ok parts) (hne : keys = [] → keys' = []) :
    ∃ parts', w.jobs limit keys' = .ok parts' := by
  have hflat := flatten_of_jobs h
  unfold jobs Batch.parts at h ⊢
  by_cases hsmall : w.effectiveSize limit < 1
  · rw [if_pos hsmall] at h
    cases h
  · rw [if_neg hsmall] at h ⊢
    by_cases hlarge : Word.largest < w.effectiveSize limit
    · rw [if_pos hlarge] at h
      cases h
    · rw [if_neg hlarge] at h ⊢
      change (if (w.stopped && !(Batch.chunks _ keys).isEmpty) = true then _ else _) = _ at h
      by_cases hstopped : w.stopped = true
      · have hnone : (Batch.chunks (w.effectiveSize limit).toNat keys).isEmpty = true := by
          by_contra hsome
          rw [if_pos (by simpa [hstopped] using hsome)] at h
          cases h
        have hkeys : keys = [] := by
          rw [← Batch.flatten_chunks (w.effectiveSize limit).toNat keys, List.isEmpty_iff.mp hnone]
          rfl
        rw [hne hkeys, Batch.chunks]
        refine ⟨[], ?_⟩
        change (if (w.stopped && !true) = true then _ else _) = _
        rw [if_neg (by simp)]
        rfl
      · refine ⟨Batch.chunks (w.effectiveSize limit).toNat keys', ?_⟩
        change (if (w.stopped && _) = true then _ else _) = _
        rw [if_neg (by simp [hstopped])]
        rfl

variable [DecidableEq K] {q : Queries σ K} {kept : σ → Prop} {own : Event → Prop}
  {answer : List K → List Profile}

/-- If from kept states every part of the keys is answered in the same way, the call has these
answers, one profile of each id, and leads to a kept state. -/
theorem findAll_of_gives {keys : List K} {parts : List (List K)}
    (hparts : w.jobs limit (Batch.unique keys) = .ok parts) (hcomplete : w.schedule.Complete)
    (hnever : w.NeverCancelled) (h : ∀ part ∈ parts, (q.all part).Gives kept own (answer part))
    {s : σ} (hs : kept s) :
    ∃ events t ps, (w.findAll limit q keys).run s = ⟨events, t, .ok ps⟩ ∧ kept t ∧
      (∀ e ∈ events, own e ∨ e.IsLogOf .parallelSource) ∧
      Profile.MergedFrom (fun p => ∃ part ∈ parts, p ∈ answer part) ps := by
  obtain ⟨hworked, hmerged⟩ := findAll_run_ok (q := q) hparts hcomplete hnever s
  generalize w.jobsOf q.all s parts = jobs at hworked hmerged
  have hpart : ∀ j ∈ jobs, j.keys ∈ parts := fun j hj => hworked.keys_mem hj
  have hkept : ∀ before after, jobs = before ++ after → kept (JobRun.leftBy s before) := by
    intro before after hsplit
    refine hworked.invariant (P := fun _ t => kept t) hs
      (fun before j hj hbefore houtcome => ?_) hsplit
    obtain ⟨events, t, hrun, ht, -⟩ := h j.keys (hpart j hj) _ hbefore
    rw [houtcome, hrun]
    exact ht
  have hjob : ∀ j ∈ jobs, j.outcome.result = .ok (answer j.keys) ∧
      ∀ e ∈ j.outcome.events, own e := by
    intro j hj
    obtain ⟨before, after, hsplit⟩ := List.append_of_mem hj
    obtain ⟨events, t, hrun, -, hevents⟩ :=
      h j.keys (hpart j hj) _ (hkept before (j :: after) hsplit)
    rw [hworked.outcome_eq before j after hsplit, hrun]
    exact ⟨rfl, hevents⟩
  obtain ⟨ps, hps, hfrom⟩ := hmerged fun j hj => by
    rw [JobRun.failure?, (hjob j hj).1]
    rfl
  obtain ⟨logged, hevents, hlogged⟩ := hworked.events_eq
  have hstate := hworked.state_eq
  rcases hrun : (w.findAll limit q keys).run s with ⟨events, t, result⟩
  rw [hrun] at hps hevents hstate
  dsimp only at hps hevents hstate
  subst hps hevents hstate
  refine ⟨_, _, ps, rfl, hkept jobs [] (List.append_nil jobs).symm, fun e he => ?_,
    hfrom.congr fun p => ?_⟩
  · rcases List.mem_append.mp he with he | he
    · obtain ⟨j, hj, he⟩ := List.mem_flatMap.mp he
      exact Or.inl ((hjob j hj).2 e he)
    · exact Or.inr (hlogged e he)
  · constructor
    · rintro ⟨j, hj, hp⟩
      rw [JobRun.answer_of_ok (hjob j hj).1] at hp
      exact ⟨j.keys, hpart j hj, hp⟩
    · rintro ⟨part, hmem, hp⟩
      obtain ⟨j, hj, rfl⟩ := List.mem_map.mp (hworked.keys_perm.mem_iff.mpr hmem)
      refine ⟨j, hj, ?_⟩
      rw [JobRun.answer_of_ok (hjob j hj).1]
      exact hp

end Workers

end PlayerLookup
