import PlayerLookup.Proofs.Combined.Leaves
import PlayerLookup.Proofs.Pipeline.Stored

/-! Calls that get no further than the members of a chain that have fixed answers. If the memory
holds all that these answer, the call stores nothing new, and nothing is seen of it but the log. -/

set_option autoImplicit false

namespace PlayerLookup

variable {σ K κ : Type} [DecidableEq κ]

/-- The source that is asked in each job of a chain with a cache in memory. -/
def Pipeline.jobSource (host : Option (Registry σ)) (cell : Cell σ Memory)
    (pinned : Cell σ LocalMap) (remote : Remote σ) (caseSensitive : Bool) : Source σ :=
  Source.forwarding (.memory cell)
    (Source.combined caseSensitive (Pipeline.members host (.memory cell) pinned remote))

/-- The call gives profiles that the memory holds, one for each id, and only log records are seen of
it; afterwards the memory holds just what it held before. -/
structure AnsweredFromMemory (cell : Cell σ Memory) (s : σ) (call : Lookup σ (List Profile))
    (ps : List Profile) : Prop where
  result_eq : (call.run s).result = .ok ps
  ids_nodup : (ps.map Profile.id).Nodup
  held : ∀ p ∈ ps, (cell.get s).Holds p
  only_logs : ∀ e ∈ (call.run s).events, ∃ component, e.IsLogOf component
  same : (cell.get s).SameAs (cell.get (call.run s).state)

variable {cell : Cell σ Memory} {m : Memory} {keyOf : Profile → K}
  {home : List (String × Queries σ K)} {answers : List (K → Option Profile)}

/-- Members answer from all states that have the same memory. -/
def AnswerAtHome (cell : Cell σ Memory) (m : Memory) (keyOf : Profile → K)
    (home : List (String × Queries σ K)) (answers : List (K → Option Profile)) : Prop :=
  List.Forall₂ (fun member answer => member.2.Answers (fun t => m.SameAs (cell.get t))
    (·.IsLogOf .combinedSource) keyOf answer) home answers

theorem AnswerAtHome.gives (h : AnswerAtHome cell m keyOf home answers) (normal : K → κ)
    (others : List (String × Queries σ K)) {keys : List K}
    (hall : ∀ k ∈ keys, ∃ p, firstAnswer answers k = some p ∧ m.Holds p) :
    ∃ ps, FoundFor keyOf (firstAnswer answers) (Batch.uniqueBy normal keys) ps ∧
      (((Queries.combined normal keyOf (home ++ others)).keeping (.memory cell)).all keys).Gives
        (fun t => m.SameAs (cell.get t)) (·.IsLogOf .combinedSource) ps := by
  have hsome : ∀ k ∈ Batch.uniqueBy normal keys,
      ∃ p, firstAnswer answers k = some p ∧ m.Holds p := fun k hk =>
    hall k ((Batch.uniqueFrom_sublist normal [] keys).subset hk)
  have hknows := Progress.knows_ofKeys normal keyOf keys
  obtain ⟨ps, hps, hcome⟩ := Queries.comeTo_firstAnswers (fun _ he => he) h others [] _ hknows rfl
    (Or.inr fun k hk => by
      rw [openKeys_nil] at hk
      obtain ⟨p, hp, -⟩ := hsome k hk
      rw [hp]
      rfl)
  rw [openKeys_nil] at hps
  have hheld : ∀ p ∈ ps, m.Holds p := by
    intro p hp
    obtain ⟨hk, hanswer⟩ := (hps.mem_iff p).mp hp
    obtain ⟨q, hq, hholds⟩ := hsome _ hk
    rw [hanswer] at hq
    rwa [Option.some.inj hq]
  refine ⟨ps, hps, ?_⟩
  exact hcome.batch.bind ((Cache.gives_keep_held hheld).bind (Lookup.gives_pure ps))

theorem AnswerAtHome.answered [DecidableEq K] {w : Workers σ} {limit : Int} {s : σ}
    (h : AnswerAtHome cell (cell.get s) keyOf home answers) (hs : (cell.get s).Coherent)
    (normal : K → κ) (others : List (String × Queries σ K)) {keys : List K}
    {parts : List (List K)} (hparts : w.jobs limit (Batch.unique keys) = .ok parts)
    (hcomplete : w.schedule.Complete) (hnever : w.NeverCancelled)
    (hall : ∀ k ∈ keys, ∃ p, firstAnswer answers k = some p ∧ (cell.get s).Holds p) :
    ∃ ps, AnsweredFromMemory cell s (w.findAll limit
        ((Queries.combined normal keyOf (home ++ others)).keeping (.memory cell)) keys) ps ∧
      Profile.MergedFrom (fun p => ∃ part ∈ parts, keyOf p ∈ Batch.uniqueBy normal part ∧
        firstAnswer answers (keyOf p) = some p) ps := by
  have hflat := Workers.flatten_of_jobs hparts
  have hpart : ∀ part ∈ parts, ∀ k ∈ part, k ∈ keys := fun part hmem k hk => by
    rw [← Batch.mem_unique, ← hflat]
    exact List.mem_flatten.mpr ⟨part, hmem, hk⟩
  have hgives := fun part (hmem : part ∈ parts) =>
    h.gives normal others fun k hk => hall k (hpart part hmem k hk)
  choose! answer hfound hbatch using hgives
  obtain ⟨events, t, ps, hrun, ht, hevents, hmerged⟩ :=
    Workers.findAll_of_gives hparts hcomplete hnever hbatch (s := s) ⟨hs, fun _ => Iff.rfl⟩
  have hfrom : Profile.MergedFrom (fun p => ∃ part ∈ parts,
      keyOf p ∈ Batch.uniqueBy normal part ∧ firstAnswer answers (keyOf p) = some p) ps :=
    hmerged.congr fun p => exists_congr fun part =>
      and_congr_right fun hmem => (hfound part hmem).mem_iff p
  refine ⟨ps, ⟨?_, hfrom.ids_nodup, fun p hp => ?_, fun e he => ?_, ?_⟩, hfrom⟩
  · rw [hrun]
  · obtain ⟨part, hmem, hk, hanswer⟩ := hfrom.found_of_mem p hp
    have hkey := hpart part hmem _ ((Batch.uniqueFrom_sublist normal [] part).subset hk)
    obtain ⟨q, hq, hholds⟩ := hall _ hkey
    rw [hanswer] at hq
    rwa [Option.some.inj hq]
  · rw [hrun] at he
    rcases hevents e he with hlog | hlog
    · exact ⟨_, hlog⟩
    · exact ⟨_, hlog⟩
  · rw [hrun]
    exact ht

end PlayerLookup
