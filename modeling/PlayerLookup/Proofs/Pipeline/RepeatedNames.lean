import PlayerLookup.Proofs.Foundations.Traffic
import PlayerLookup.Proofs.Pipeline.AtHome
import PlayerLookup.Proofs.Pipeline.Unresolved

/-! Names that are asked for twice. The cache knows a name only as it was spelled by who answered
it, so names that were answered in other spellings are asked for again; the others are found where
the first call stored them. -/

set_option autoImplicit false

namespace PlayerLookup

variable {σ K : Type}

/-- No player was found under two names by the jobs of a call. -/
def OneNameEach (jobs : List (JobRun σ K (List Profile))) : Prop :=
  ∀ p q, JobRun.Answered jobs p → JobRun.Answered jobs q → p.id = q.id → p = q

theorem exists_stands_of_name (history : List Profile) {ps : List Profile}
    (hone : ∀ p ∈ ps, ∀ q ∈ ps, p.id = q.id → p = q) {p : Profile} (hp : p ∈ ps) :
    ∃ q ∈ ps, q.name = p.name ∧ Stands (history ++ ps) q := by
  induction ps using List.reverseRecOn with
  | nil => exact absurd hp List.not_mem_nil
  | append_singleton ps last ih =>
    have hlast : last ∈ ps ++ [last] := List.mem_append_right _ (List.mem_singleton_self last)
    simp only [← List.append_assoc, stands_concat]
    by_cases hname : last.name = p.name
    · exact ⟨last, hlast, hname, Or.inl rfl⟩
    · have hearlier : p ∈ ps := by
        rcases List.mem_append.mp hp with hp | hp
        · exact hp
        · rw [List.mem_singleton.mp hp] at hname
          exact absurd rfl hname
      obtain ⟨q, hq, hqname, hstands⟩ := ih
        (fun a ha b hb => hone a (List.mem_append_left _ ha) b (List.mem_append_left _ hb)) hearlier
      refine ⟨q, List.mem_append_left _ hq, hqname, Or.inr ⟨hstands, ?_⟩⟩
      rintro (⟨hid, hne⟩ | ⟨hsame, -⟩)
      · exact hne (by rw [hone last hlast q (List.mem_append_left _ hq) hid])
      · exact hname (hsame.trans hqname)

/-! ## Names that are not reported -/

theorem CommandLine.unresolvedNames_eq_nil_iff {names : List String} {ps : List Profile}
    {caseSensitive : Bool} :
    unresolvedNames names ps caseSensitive = [] ↔
      ∀ name ∈ names, ∃ p ∈ ps, p.Answers caseSensitive name := by
  simp only [unresolvedNames, List.filter_eq_nil_iff, Bool.not_eq_true', Bool.not_eq_false,
    List.contains_eq_mem, decide_eq_true_eq, List.mem_map, Profile.Answers]

/-! ## The first call -/

section

variable {cell : Cell σ Memory} {pinned : Cell σ LocalMap} {remote : Remote σ} {w : Workers σ}
  {caseSensitive : Bool} {names : List String} {s : σ}

theorem Source.leavesAlone_chain_names {τ : Type} {d : Cell σ τ} (cell : Cell σ Memory)
    (pinned : Cell σ LocalMap) (hremote : remote.LeavesAlone d) (caseSensitive : Bool) :
    (Source.combined caseSensitive
      (Pipeline.members none (.memory cell) pinned remote)).byName.LeavesAlone d := by
  refine Queries.leavesAlone_combined _ _ fun m hm => ?_
  simp only [Pipeline.members, Option.map_none, Option.toList_none, List.nil_append, List.map_cons,
    List.map_nil, List.mem_cons, List.not_mem_nil, or_false] at hm
  rcases hm with rfl | rfl | rfl
  · exact (Source.leavesAlone_cached cell).1
  · exact (Source.leavesAlone_localMap pinned).1
  · exact hremote.byName

/-- Afterwards the cache holds of each name that some job answered the last profile stored. -/
theorem Workers.names_held (hremote : remote.LeavesAlone cell) {limit : Int}
    {parts : List (List String)} (hparts : w.jobs limit (Batch.unique names) = .ok parts)
    (hcomplete : w.schedule.Complete) (hnever : w.NeverCancelled) (hs : (cell.get s).Coherent)
    (hone : OneNameEach (w.jobsOf
      (Pipeline.jobSource none cell pinned remote caseSensitive).byName.all s parts)) :
    let after := cell.get ((w.findAll limit
      (Pipeline.jobSource none cell pinned remote caseSensitive).byName names).run s).state
    after.Coherent ∧ ∀ p, JobRun.Answered (w.jobsOf
      (Pipeline.jobSource none cell pinned remote caseSensitive).byName.all s parts) p →
        ∃ q, q.name = p.name ∧ after.Holds q := by
  intro after
  obtain ⟨hworked, -⟩ := Workers.findAll_run_ok
    (q := (Pipeline.jobSource none cell pinned remote caseSensitive).byName) hparts hcomplete
    hnever s
  have hleft : after.Reflects _ := hworked.memory_reflects
    (Source.leavesAlone_chain_names cell pinned hremote caseSensitive) hs.reflects_all
  refine ⟨hleft.coherent, fun p hp => ?_⟩
  obtain ⟨q, -, hname, hstands⟩ := exists_stands_of_name (cell.get s).all
    (fun a ha b hb => hone a b (List.mem_flatMap.mp ha) (List.mem_flatMap.mp hb))
    (List.mem_flatMap.mpr hp)
  exact ⟨q, hname, (hleft.holds_iff q).mpr hstands⟩

/-! ## The second call -/

theorem Workers.held_names_answered {limit : Int} {parts : List (List String)}
    (hparts : w.jobs limit (Batch.unique names) = .ok parts) (hcomplete : w.schedule.Complete)
    (hnever : w.NeverCancelled) (hs : (cell.get s).Coherent)
    (hheld : ∀ name ∈ names, ∃ p, p.name.text = name ∧ (cell.get s).Holds p) :
    ∃ qs, AnsweredFromMemory cell s (w.findAll limit
        (Pipeline.jobSource none cell pinned remote caseSensitive).byName names) qs ∧
      (∀ q ∈ qs, q.name.text ∈ names) ∧
      CommandLine.unresolvedNames names qs caseSensitive = [] := by
  have hholder : ∀ name ∈ names, ∃ p,
      firstAnswer [(cell.get s).holder?] name = some p ∧ (cell.get s).Holds p := by
    intro name hname
    obtain ⟨p, hp, hholds⟩ := hheld name hname
    refine ⟨p, ?_, hholds⟩
    rw [firstAnswer_singleton, Memory.holder?_eq_some_iff hs]
    exact ⟨hp, hholds⟩
  have hhome : AnswerAtHome cell (cell.get s) (·.name.text)
      [("CacheLookupService", (Source.cached (.memory cell)).byName)] [(cell.get s).holder?] := by
    refine .cons (Source.answers_cached_names fun t ht => ?_) .nil
    exact ht.holder?_eq hs
  obtain ⟨qs, hqs, hfrom⟩ := hhome.answered hs (matchingForm caseSensitive)
    [("HashMapService", (Source.localMap pinned).byName),
      ("HttpRepositoryService", (Source.remote remote).byName)] hparts hcomplete hnever hholder
  have hflat := Workers.flatten_of_jobs hparts
  have hpart : ∀ part ∈ parts, ∀ k ∈ part, k ∈ names := fun part hmem k hk => by
    rw [← Batch.mem_unique, ← hflat]
    exact List.mem_flatten.mpr ⟨part, hmem, hk⟩
  refine ⟨qs, hqs, fun q hq => ?_, CommandLine.unresolvedNames_eq_nil_iff.mpr fun name hname => ?_⟩
  · obtain ⟨part, hmem, hkey, -⟩ := hfrom.found_of_mem q hq
    exact hpart part hmem _ ((Batch.uniqueFrom_sublist _ [] part).subset hkey)
  · rw [← Batch.mem_unique, ← hflat] at hname
    obtain ⟨part, hmem, hin⟩ := List.mem_flatten.mp hname
    -- Asked for was perhaps another spelling, which comes earlier in the same job.
    obtain ⟨k, hk, hnormal⟩ := List.mem_map.mp
      ((Batch.mem_map_uniqueBy (matchingForm caseSensitive) part _).mpr (List.mem_map_of_mem hin))
    obtain ⟨p, hp, hholds⟩ :=
      hholder k (hpart part hmem k ((Batch.uniqueFrom_sublist _ [] part).subset hk))
    have hpname : p.name.text = k := by
      rw [firstAnswer_singleton] at hp
      exact Memory.name_of_holder? hp
    -- Two profiles of one id that are both held are the same, so merging by id loses none.
    obtain ⟨q, hq, hid⟩ := List.mem_map.mp
      (hfrom.id_mem p ⟨part, hmem, by rwa [hpname], by rwa [hpname]⟩)
    have hreflects := hs.reflects_all
    have hqp : q = p := hreflects.id_injective ((hreflects.holds_iff q).mp (hqs.held q hq))
      ((hreflects.holds_iff p).mp hholds) hid
    refine ⟨q, hq, ?_⟩
    rw [Profile.Answers, hqp, hpname]
    exact hnormal

end

/-- **Names that were answered as they are spelled are not asked for again.** If every name of a
call is the name of a profile that was returned, letter by letter, and no player was found under two
names, then the same call is answered from the cache without a request, whatever the case policy. -/
theorem repeated_names_need_no_request (cell : Cell σ Memory) (pinned : Cell σ LocalMap)
    (remote : Remote σ) (hremote : remote.LeavesAlone cell) (caseSensitive : Bool) (w : Workers σ)
    (hcomplete : w.schedule.Complete) (hnever : w.NeverCancelled) (names : List String) (s : σ)
    (hs : (cell.get s).Coherent) {ps : List Profile} {parts : List (List String)}
    (hok : (((Pipeline.chain none (.memory cell) pinned remote caseSensitive w).byName.all
      names).run s).result = .ok ps)
    (hspelled : CommandLine.unresolvedNames names ps true = [])
    (hparts : w.jobs (Pipeline.jobSource none cell pinned remote caseSensitive).limit
      (Batch.unique names) = .ok parts)
    (hone : OneNameEach (w.jobsOf
      (Pipeline.jobSource none cell pinned remote caseSensitive).byName.all s parts)) :
    let call := (Pipeline.chain none (.memory cell) pinned remote caseSensitive w).byName.all names
    ∃ qs, AnsweredFromMemory cell (call.run s).state call qs ∧
      (∀ q ∈ qs, q.name.text ∈ names) ∧
      CommandLine.unresolvedNames names qs caseSensitive = [] := by
  obtain ⟨-, hmerged⟩ := Workers.findAll_answered hparts hcomplete hnever hok
  obtain ⟨hcoherent, hheld⟩ := Workers.names_held hremote hparts hcomplete hnever hs hone
  refine Workers.held_names_answered hparts hcomplete hnever hcoherent fun name hname => ?_
  obtain ⟨p, hp, hspelled⟩ := CommandLine.unresolvedNames_eq_nil_iff.mp hspelled name hname
  obtain ⟨q, hname, hholds⟩ := hheld p (hmerged.found_of_mem p hp)
  refine ⟨q, ?_, hholds⟩
  rw [hname]
  exact hspelled

/-! ## Names that are asked for again -/

namespace Repeated

def ash : Profile := ⟨⟨1⟩, .ash⟩

def cedar : Profile := ⟨⟨3⟩, .cedar⟩

-- The remote service may know of Cedar only, or of Ash too, who is called Birch now.
def alone : Document := .list [Remote.entryOf cedar]

def both : Document := .list [Remote.entryOf cedar, Remote.entryOf ⟨ash.id, .birch⟩]

def workers : Workers (Memory × LocalMap) := ⟨100, .inOrder, false, none⟩

def chain (answer : Document) (caseSensitive : Bool) : Source (Memory × LocalMap) :=
  Pipeline.chain none (.memory .first) .second (.saying answer) caseSensitive workers

def state : Memory × LocalMap := (.single ash, .empty)

def first (answer : Document) (caseSensitive : Bool) (names : List String) :
    Run (Memory × LocalMap) (List Profile) :=
  ((chain answer caseSensitive).byName.all names).run state

def again (answer : Document) (caseSensitive : Bool) (names : List String) :
    Run (Memory × LocalMap) (List Profile) :=
  ((chain answer caseSensitive).byName.all names).run (first answer caseSensitive names).state

end Repeated

/-- Of two names that were answered as they are spelled one was known and the other one was not. -/
theorem repeated_names_need_no_request_cedar :
    let jobs := Repeated.workers.jobsOf (Pipeline.jobSource none .first .second
      (.saying Repeated.alone) false).byName.all Repeated.state [["Cedar", "Ash"]]
    let call := (Repeated.chain Repeated.alone false).byName.all ["Cedar", "Ash"]
    OneNameEach jobs ∧ (call.run Repeated.state).result = .ok [Repeated.ash, Repeated.cedar] ∧
      ∃ qs, AnsweredFromMemory .first (call.run Repeated.state).state call qs ∧
        (∀ q ∈ qs, q.name.text ∈ ["Cedar", "Ash"]) ∧
        CommandLine.unresolvedNames ["Cedar", "Ash"] qs false = [] := by
  intro jobs call
  obtain ⟨hanswers, hresult⟩ : jobs.flatMap JobRun.answer = [Repeated.ash, Repeated.cedar] ∧
      (call.run Repeated.state).result.toOption = some [Repeated.ash, Repeated.cedar] := by
    decide +kernel
  have hone : OneNameEach jobs := by
    intro p q hp hq
    have hall : ∀ p ∈ [Repeated.ash, Repeated.cedar], ∀ q ∈ [Repeated.ash, Repeated.cedar],
        p.id = q.id → p = q := by decide
    rw [← hanswers] at hall
    exact hall p (List.mem_flatMap.mpr hp) q (List.mem_flatMap.mpr hq)
  have hok : (call.run Repeated.state).result = .ok [Repeated.ash, Repeated.cedar] :=
    Except.eq_ok_of_toOption hresult
  have hparts : Repeated.workers.jobs (Pipeline.jobSource none .first .second
      (.saying Repeated.alone) false).limit (Batch.unique ["Cedar", "Ash"]) =
        .ok [["Cedar", "Ash"]] := by with_unfolding_all rfl
  exact ⟨hone, hok, repeated_names_need_no_request .first .second (.saying Repeated.alone)
    (Remote.leavesAlone_saying _) false Repeated.workers Schedule.complete_inOrder
    (fun ask h => by cases h) ["Cedar", "Ash"] Repeated.state (Memory.coherent_single _) hok
    (by decide +kernel) hparts hone⟩

/-- A name that was answered in another spelling is asked for again, and so is one of a player who
was found under another name too, though no name was reported as unresolved. -/
theorem answered_names_requested_again :
    (∃ ps, (Repeated.first Repeated.alone false ["cedar"]).result = .ok ps ∧
      CommandLine.unresolvedNames ["cedar"] ps false = [] ∧
      requestsOf (Repeated.again Repeated.alone false ["cedar"]).events =
        [.profiles "https://api.mojang.com/profiles/minecraft" ["cedar"]]) ∧
    ∃ ps, (Repeated.first Repeated.both true ["Ash", "Cedar"]).result = .ok ps ∧
      CommandLine.unresolvedNames ["Ash", "Cedar"] ps true = [] ∧
      requestsOf (Repeated.again Repeated.both true ["Ash", "Cedar"]).events =
        [.profiles "https://api.mojang.com/profiles/minecraft" ["Ash"]] := by
  obtain ⟨hfirst, hunresolved, hagain⟩ :
      (Repeated.first Repeated.alone false ["cedar"]).result.toOption = some [Repeated.cedar] ∧
        CommandLine.unresolvedNames ["cedar"] [Repeated.cedar] false = [] ∧
        requestsOf (Repeated.again Repeated.alone false ["cedar"]).events =
          [.profiles "https://api.mojang.com/profiles/minecraft" ["cedar"]] := by
    decide +kernel
  obtain ⟨hfirst', hunresolved', hagain'⟩ :
      (Repeated.first Repeated.both true ["Ash", "Cedar"]).result.toOption =
          some [Repeated.ash, Repeated.cedar] ∧
        CommandLine.unresolvedNames ["Ash", "Cedar"] [Repeated.ash, Repeated.cedar] true = [] ∧
        requestsOf (Repeated.again Repeated.both true ["Ash", "Cedar"]).events =
          [.profiles "https://api.mojang.com/profiles/minecraft" ["Ash"]] := by
    decide +kernel
  exact ⟨⟨_, Except.eq_ok_of_toOption hfirst, hunresolved, hagain⟩,
    _, Except.eq_ok_of_toOption hfirst', hunresolved', hagain'⟩

end PlayerLookup
