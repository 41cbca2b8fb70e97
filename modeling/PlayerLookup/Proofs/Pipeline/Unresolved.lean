import PlayerLookup.CommandLine.Report
import PlayerLookup.Pipeline
import PlayerLookup.Proofs.Combined.Turns
import PlayerLookup.Proofs.Parallel.Merging
import PlayerLookup.Proofs.Remote.Histories

/-! Names that are reported as unresolved. Within a job a combination keeps one profile of each
name, but jobs and the answers of a job are merged by id: of a player who was found under two names
one is dropped. So a name may be reported that a source has answered, and this is the only way. -/

set_option autoImplicit false

namespace PlayerLookup

variable {σ K : Type}

/-! ## What sources give in the course of a call -/

/-- A profile has a name that counts as the one asked for. -/
def Profile.Answers (caseSensitive : Bool) (p : Profile) (key : String) : Prop :=
  matchingForm caseSensitive p.name.text = matchingForm caseSensitive key

/-- The members of a combination take turns in a job for names. -/
def NamesInTurn (caseSensitive : Bool) (members : List (Source σ)) (names : List String) (s : σ)
    (turns : List (Turn σ String)) : Prop :=
  AnsweredInTurn (matchingForm caseSensitive) (·.name.text) names
    (members.map fun m => (m.label, m.byName))
    ((Source.combined caseSensitive members).byName.all names) s turns

/-- A source was asked in the course of the jobs, in its turn, and gave the profile. -/
def GivenInJobs (caseSensitive : Bool) (members : List (Source σ)) (s : σ)
    (jobs : List (JobRun σ String (List Profile))) (p : Profile) : Prop :=
  ∃ before j after turns, jobs = before ++ j :: after ∧
    NamesInTurn caseSensitive members j.keys (JobRun.leftBy s before) turns ∧
    ∃ t ∈ turns, p ∈ t.found

/-! ## One job -/

theorem Queries.result_of_keeping {q : Queries σ K} {c : Cache σ} {keys : List K} {s : σ}
    {ps : List Profile} (h : (((q.keeping c).all keys).run s).result = .ok ps) :
    ((q.all keys).run s).result = .ok ps := by
  change ((do
    let found ← q.all keys
    c.keep found
    return found : Lookup σ (List Profile)).run s).result = _ at h
  rcases hrun : (q.all keys).run s with ⟨events, t, result⟩
  cases result with
  | error f =>
    rw [Lookup.run_bind_error hrun] at h
    cases h
  | ok found =>
    rw [Lookup.run_bind_ok hrun] at h
    rcases hkeep : (c.keep found).run t with ⟨more, u, kept⟩
    cases kept with
    | error f =>
      rw [Lookup.run_bind_error hkeep] at h
      cases h
    | ok _ =>
      rw [Lookup.run_bind_ok hkeep] at h
      exact h

section

variable {caseSensitive : Bool} {members : List (Source σ)} {cache : Cache σ}
  {parts : List (List String)} {s : σ} {call : Lookup σ (List Profile)}
  {jobs before after : List (JobRun σ String (List Profile))}
  {j : JobRun σ String (List Profile)}

theorem Worked.combined_result
    (h : Worked (Source.forwarding cache (Source.combined caseSensitive members)).byName.all
      parts s call jobs)
    (hj : jobs = before ++ j :: after) (hsucceeded : j.failure? = none) :
    (((Source.combined caseSensitive members).byName.all j.keys).run
      (JobRun.leftBy s before)).result = .ok j.answer := by
  have houtcome := h.outcome_eq before j after hj
  cases hfound : j.outcome.result with
  | error f =>
    rw [JobRun.failure?, hfound] at hsucceeded
    cases hsucceeded
  | ok ps =>
    rw [JobRun.answer_of_ok hfound]
    refine Queries.result_of_keeping (c := cache) ?_
    rw [houtcome] at hfound
    exact hfound

theorem GivenInJobs.of_answered
    (h : Worked (Source.forwarding cache (Source.combined caseSensitive members)).byName.all
      parts s call jobs)
    (hsucceeded : ∀ j ∈ jobs, j.failure? = none) {p : Profile} (hp : JobRun.Answered jobs p) :
    GivenInJobs caseSensitive members s jobs p := by
  obtain ⟨j, hmem, hp⟩ := hp
  obtain ⟨before, after, hj⟩ := List.append_of_mem hmem
  obtain ⟨turns, hturns⟩ := combined_answeredInTurn (matchingForm caseSensitive) (·.name.text)
    (members.map fun m => (m.label, m.byName)) j.keys (JobRun.leftBy s before)
  have hfirst := hturns.firstOfEach (h.combined_result hj (hsucceeded j hmem))
  exact ⟨before, j, after, turns, hj, hturns, hfirst.exists_turn hp⟩

theorem GivenInJobs.exists_answer
    (h : Worked (Source.forwarding cache (Source.combined caseSensitive members)).byName.all
      parts s call jobs)
    (hsucceeded : ∀ j ∈ jobs, j.failure? = none) {p : Profile}
    (hp : GivenInJobs caseSensitive members s jobs p) :
    ∃ p₁, JobRun.Answered jobs p₁ ∧ p₁.Answers caseSensitive p.name.text := by
  obtain ⟨before, j, after, turns, hj, hturns, t, ht, hpt⟩ := hp
  have hmem : j ∈ jobs := by rw [hj]; exact List.mem_append_right _ List.mem_cons_self
  have hfirst := AnsweredInTurn.firstOfEach hturns (h.combined_result hj (hsucceeded j hmem))
  obtain ⟨p₁, hp₁, hname⟩ := List.mem_map.mp (hfirst.kept t ht p hpt)
  exact ⟨p₁, ⟨j, hmem, hp₁⟩, hname⟩

end

/-! ## A whole call -/

/-- Of a profile that was given for the name the id was returned with another name. -/
def RenamedInJobs (caseSensitive : Bool) (members : List (Source σ)) (s : σ)
    (jobs : List (JobRun σ String (List Profile))) (ps : List Profile) (key : String) : Prop :=
  ∃ p₁ p₂, GivenInJobs caseSensitive members s jobs p₁ ∧ p₁.Answers caseSensitive key ∧
    p₂ ∈ ps ∧ GivenInJobs caseSensitive members s jobs p₂ ∧ p₂.id = p₁.id ∧
    ¬ p₂.Answers caseSensitive key

/-- The names of a call are handed over in jobs, and one that is then reported as unresolved, though
a source gave a profile for it, belongs to a player who was returned with another name. -/
def UnresolvedUnlessRenamed (caseSensitive : Bool) (cache : Cache σ) (members : List (Source σ))
    (names : List String) (s : σ) (call : Lookup σ (List Profile)) (ps : List Profile) : Prop :=
  ∃ parts jobs, parts.flatten = names.eraseDups ∧
    Worked (Source.forwarding cache (Source.combined caseSensitive members)).byName.all parts s
      call jobs ∧
    ∀ key ∈ CommandLine.unresolvedNames names ps caseSensitive,
      (∃ p, GivenInJobs caseSensitive members s jobs p ∧ p.Answers caseSensitive key) →
        RenamedInJobs caseSensitive members s jobs ps key

theorem Workers.unresolvedUnlessRenamed {caseSensitive : Bool} {cache : Cache σ}
    {members : List (Source σ)} {w : Workers σ} {limit : Int} (hcomplete : w.schedule.Complete)
    (hnever : w.NeverCancelled) {names : List String} {s : σ} {ps : List Profile}
    (hok : ((w.findAll limit
      (Source.forwarding cache
        (Source.combined caseSensitive members)).byName names).run s).result =
        .ok ps) :
    UnresolvedUnlessRenamed caseSensitive cache members names s
      (w.findAll limit (Source.forwarding cache (Source.combined caseSensitive members)).byName
        names) ps := by
  obtain ⟨parts, jobs, hflatten, hworked, hsucceeded, hmerged⟩ :=
    merged_of_findAll hcomplete hnever hok
  refine ⟨parts, jobs, hflatten, hworked, fun key hkey hgiven => ?_⟩
  obtain ⟨p, hgiven, hanswers⟩ := hgiven
  obtain ⟨p₁, hanswered₁, hname⟩ := hgiven.exists_answer hworked hsucceeded
  obtain ⟨p₂, hp₂, hid⟩ := List.mem_map.mp (hmerged.id_mem p₁ hanswered₁)
  have hgiven₁ := GivenInJobs.of_answered hworked hsucceeded hanswered₁
  have hgiven₂ := GivenInJobs.of_answered hworked hsucceeded (hmerged.found_of_mem p₂ hp₂)
  refine ⟨p₁, p₂, hgiven₁, hname.trans hanswers, hp₂, hgiven₂, hid, fun hsame => ?_⟩
  have hmissing := (List.mem_filter.mp hkey).2
  rw [Bool.not_eq_true', List.contains_eq_mem, decide_eq_false_iff_not] at hmissing
  exact hmissing (List.mem_map.mpr ⟨p₂, hp₂, hsame⟩)

/-- **A name is unresolved only if nobody answered it, or its player goes by another name.** -/
theorem chain_unresolved_unless_renamed (host : Option (Registry σ)) (cache : Cache σ)
    (pinned : Cell σ LocalMap) (remote : Remote σ) (caseSensitive : Bool) (w : Workers σ)
    (hcomplete : w.schedule.Complete) (hnever : w.NeverCancelled) (names : List String) (s : σ)
    (ps : List Profile)
    (hok : (((Pipeline.chain host cache pinned remote caseSensitive w).byName.all names).run
      s).result = .ok ps) :
    UnresolvedUnlessRenamed caseSensitive cache (Pipeline.members host cache pinned remote) names s
      ((Pipeline.chain host cache pinned remote caseSensitive w).byName.all names) ps :=
  Workers.unresolvedUnlessRenamed hcomplete hnever hok

/-! ## A player with two names -/

namespace Renamed

def cache : Cache (Memory × LocalMap) :=
  Cache.memory ⟨Prod.fst, fun s m => (m, s.2), fun _ _ => rfl⟩

def pinned : Cell (Memory × LocalMap) LocalMap := ⟨Prod.snd, fun s m => (s.1, m), fun _ _ => rfl⟩

def steve : Profile := ⟨⟨1⟩, .steve⟩

def alex : Profile := ⟨⟨1⟩, .alex⟩

-- The cache knows the player by one name, and the remote service by another.
def state : Memory × LocalMap := (⟨[(steve.id, steve.name)], [(steve.name, steve.id)]⟩, .empty)

def remote : Remote (Memory × LocalMap) := .saying (.list [Remote.entryOf alex])

def workers : Workers (Memory × LocalMap) := ⟨100, .inOrder, false, none⟩

def names : List String := ["Steve", "Alex"]

def members : List (Source (Memory × LocalMap)) := Pipeline.members none cache pinned remote

def chain : Source (Memory × LocalMap) := Pipeline.chain none cache pinned remote false workers

def jobs : List (JobRun (Memory × LocalMap) String (List Profile)) :=
  workers.jobsOf (Source.forwarding cache (Source.combined false members)).byName.all state [names]

theorem result_eq : ((chain.byName.all names).run state).result = .ok [steve] := by
  have hsome : ((chain.byName.all names).run state).result.toOption = some [steve] := by
    decide +kernel
  cases hresult : ((chain.byName.all names).run state).result with
  | error f =>
    rw [hresult] at hsome
    cases hsome
  | ok ps =>
    rw [hresult] at hsome
    rw [Option.some.inj hsome]

theorem worked : Worked (Source.forwarding cache (Source.combined false members)).byName.all
    [names] state (chain.byName.all names) jobs := by
  have hparts : workers.jobs 100 (Batch.unique names) = .ok [names] := by with_unfolding_all rfl
  exact (Workers.findAll_run_ok hparts Schedule.complete_inOrder
    (fun ask h => by cases h) state).1

theorem given_alex : GivenInJobs false members state jobs alex := by
  have hsucceeded : ∀ j ∈ jobs, j.failure? = none := by
    have hall : (jobs.all fun j => j.failure?.isNone) = true := by decide +kernel
    exact fun j hj => Option.isNone_iff_eq_none.mp (List.all_eq_true.mp hall j hj)
  have hanswered : alex ∈ jobs.flatMap JobRun.answer := by decide +kernel
  exact GivenInJobs.of_answered worked hsucceeded (List.mem_flatMap.mp hanswered)

end Renamed

/-- The name that the remote service gave is reported, and its player stands under the other. -/
theorem chain_unresolved_unless_renamed_alex :
    Renamed.workers.schedule.Complete ∧ Renamed.workers.NeverCancelled ∧
      ((Renamed.chain.byName.all Renamed.names).run Renamed.state).result = .ok [Renamed.steve] ∧
      UnresolvedUnlessRenamed false Renamed.cache Renamed.members Renamed.names Renamed.state
        (Renamed.chain.byName.all Renamed.names) [Renamed.steve] := by
  have hnever : Renamed.workers.NeverCancelled := fun ask h => by cases h
  exact ⟨Schedule.complete_inOrder, hnever, Renamed.result_eq,
    chain_unresolved_unless_renamed none Renamed.cache Renamed.pinned Renamed.remote false
      Renamed.workers Schedule.complete_inOrder hnever Renamed.names Renamed.state _
      Renamed.result_eq⟩

/-- A name may be reported as unresolved that a source has answered. -/
theorem answered_name_unresolved :
    ((Renamed.chain.byName.all Renamed.names).run Renamed.state).result = .ok [Renamed.steve] ∧
      "Alex" ∈ CommandLine.unresolvedNames Renamed.names [Renamed.steve] false ∧
      Renamed.alex.Answers false "Alex" ∧
      Worked (Source.forwarding Renamed.cache (Source.combined false Renamed.members)).byName.all
        [Renamed.names] Renamed.state (Renamed.chain.byName.all Renamed.names) Renamed.jobs ∧
      GivenInJobs false Renamed.members Renamed.state Renamed.jobs Renamed.alex :=
  ⟨Renamed.result_eq, by decide +kernel, rfl, Renamed.worked, Renamed.given_alex⟩

end PlayerLookup
