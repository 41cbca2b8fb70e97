import PlayerLookup.Proofs.Pipeline.Asked
import PlayerLookup.Proofs.Pipeline.AtHome

/-! Ids that are asked for again. What a call returned is still in the cache when it ends, if no two
of the profiles have one name, and a registry gives the same answers as before; so the ids of
returned profiles are answered without a request. -/

set_option autoImplicit false

namespace PlayerLookup

variable {σ : Type}

/-! ## The registry -/

/-- The registry always tells the same, and no empty name. -/
def Registry.Fixed (r : Registry σ) : Prop :=
  ∃ idOf nameOf, r = .fixed idOf nameOf ∧ ∀ id, nameOf id ≠ some ""

/-- The members of a chain that come before the cache, of which there may be none. -/
def hostQueries (host : Option (Registry σ)) : List (String × Queries σ PlayerId) :=
  ((host.map Source.host).toList).map fun source => (source.label, source.byId)

theorem hostQueries_answer {host : Option (Registry σ)} (h : ∀ r, host = some r → r.Fixed) :
    ∀ m ∈ hostQueries host, ∃ answer, ∀ kept own, m.2.Answers kept own Profile.id answer := by
  intro m hm
  cases host with
  | none => exact absurd hm List.not_mem_nil
  | some r =>
    obtain ⟨idOf, nameOf, rfl, hne⟩ := h r rfl
    obtain rfl := List.mem_singleton.mp hm
    refine ⟨Registry.named nameOf, fun kept own => ?_⟩
    exact Source.answers_host (fun id => Lookup.gives_pure (nameOf id)) hne

/-! ## What each job answers -/

section

variable {host : Option (Registry σ)} {cell : Cell σ Memory} {pinned : Cell σ LocalMap}
  {remote : Remote σ} {caseSensitive : Bool}

def chainQueries (host : Option (Registry σ)) (cell : Cell σ Memory) (pinned : Cell σ LocalMap)
    (remote : Remote σ) : List (String × Queries σ PlayerId) :=
  hostQueries host ++
    ("CacheLookupService", (Source.cached (.memory cell)).byId) ::
      [("HashMapService", (Source.localMap pinned).byId),
        ("HttpRepositoryService", (Source.remote remote).byId)]

theorem jobSource_byId :
    (Pipeline.jobSource host cell pinned remote caseSensitive).byId =
      (Queries.combined id Profile.id (chainQueries host cell pinned remote)).keeping
        (.memory cell) := by
  unfold Pipeline.jobSource Pipeline.members chainQueries hostQueries
  change (Queries.combined id Profile.id (List.map _ _)).keeping _ = _
  rw [List.map_append]
  rfl

theorem chainQueries_cases {P : String × Queries σ PlayerId → Prop}
    (hhost : ∀ m ∈ hostQueries host, P m)
    (hcached : P ("CacheLookupService", (Source.cached (.memory cell)).byId))
    (hpinned : P ("HashMapService", (Source.localMap pinned).byId))
    (hremote : P ("HttpRepositoryService", (Source.remote remote).byId)) :
    ∀ m ∈ chainQueries host cell pinned remote, P m := by
  intro m hm
  simp only [chainQueries, List.mem_append, List.mem_cons, List.not_mem_nil, or_false] at hm
  rcases hm with hm | rfl | rfl | rfl
  · exact hhost m hm
  · exact hcached
  · exact hpinned
  · exact hremote

/-- The members that come before the cache have fixed answers. -/
def HostAnswers (host : Option (Registry σ)) (answers : List (PlayerId → Option Profile)) : Prop :=
  ∀ kept own, List.Forall₂ (fun m answer => m.2.Answers kept own Profile.id answer)
    (hostQueries host) answers

theorem exists_hostAnswers (h : ∀ r, host = some r → r.Fixed) :
    ∃ answers, HostAnswers host answers := by
  have hanswer := hostQueries_answer h
  choose! answer hanswer using hanswer
  refine ⟨(hostQueries host).map answer, fun kept own => ?_⟩
  rw [List.forall₂_map_right_iff, List.forall₂_same]
  exact fun m hm => hanswer m hm kept own

theorem chainQueries_leaveAlone (hhost : ∀ r, host = some r → r.Fixed)
    (hremote : remote.LeavesAlone cell) :
    (Queries.combined id Profile.id (chainQueries host cell pinned remote)).LeavesAlone cell := by
  refine Queries.leavesAlone_combined _ _ (chainQueries_cases (fun m hm => ?_) ?_ ?_ ?_)
  · obtain ⟨answer, hanswer⟩ := hostQueries_answer hhost m hm
    exact Queries.Answers.leavesAlone fun v => hanswer _ (fun _ => True)
  · exact (Source.leavesAlone_cached cell).2
  · exact (Source.leavesAlone_localMap pinned).2
  · exact hremote.byId

theorem chainQueries_answerAsked (hhost : ∀ r, host = some r → r.Fixed) :
    (Queries.combined id Profile.id (chainQueries host cell pinned remote)).AnswersAsked
      Profile.id := by
  refine Queries.answersAsked_combined (chainQueries_cases (fun m hm => ?_) ?_ ?_ ?_)
  · obtain ⟨answer, hanswer⟩ := hostQueries_answer hhost m hm
    exact (hanswer _ (fun _ => True)).answersAsked
  · exact Source.answersAsked_cached cell
  · exact Source.answersAsked_localMap pinned
  · exact Source.answersAsked_remote remote

/-- A batch has each id once, and only such as were asked for; and nobody whom the registry knows
has another name in it. -/
structure ChainAnswered (answers : List (PlayerId → Option Profile)) (ids : List PlayerId)
    (ps : List Profile) : Prop where
  ids_nodup : (ps.map Profile.id).Nodup
  asked : ∀ p ∈ ps, p.id ∈ ids
  registered : ∀ p ∈ ps, ∀ q, firstAnswer answers p.id = some q → q = p

theorem chainAnswered (hhost : ∀ r, host = some r → r.Fixed)
    {answers : List (PlayerId → Option Profile)} (hanswers : HostAnswers host answers)
    {ids : List PlayerId} {s : σ} {ps : List Profile}
    (hok : (((Queries.combined id Profile.id (chainQueries host cell pinned remote)).all
      ids).run s).result = .ok ps) : ChainAnswered answers ids ps := by
  obtain ⟨turns, hturns⟩ :=
    combined_answeredInTurn id Profile.id (chainQueries host cell pinned remote) ids s
  have hnodup : (ps.map Profile.id).Nodup := (hturns.firstOfEach hok).distinct
  have hasked := chainQueries_answerAsked hhost ids s ps hok
  refine ⟨hnodup, hasked, fun p hp q hq => ?_⟩
  have hall := hanswers (fun _ => True) (fun _ => True)
  have hopen : p.id ∈ openKeys id Profile.id ids [] := by
    rw [openKeys_nil]
    exact (Batch.mem_unique ids _).mpr (hasked p hp)
  have hmem := Queries.mem_of_firstAnswer hall _ (Progress.knows_ofKeys id Profile.id ids) hok
    hopen hq
  have hid := Queries.key_of_firstAnswer (List.forall₂_map_left_iff.mpr hall) hq
  exact List.inj_on_of_nodup_map hnodup hmem hp hid

theorem Worked.chainAnswered (hhost : ∀ r, host = some r → r.Fixed)
    {answers : List (PlayerId → Option Profile)} (hanswers : HostAnswers host answers)
    {parts : List (List PlayerId)} {s : σ} {call : Lookup σ (List Profile)}
    {jobs : List (JobRun σ PlayerId (List Profile))}
    (h : Worked ((Queries.combined id Profile.id (chainQueries host cell pinned remote)).keeping
      (.memory cell)).all parts s call jobs) {j : JobRun σ PlayerId (List Profile)} (hj : j ∈ jobs)
    (hsucceeded : j.failure? = none) : ChainAnswered answers j.keys j.answer := by
  obtain ⟨before, after, hsplit⟩ := List.append_of_mem hj
  have hresult := JobRun.result_of_succeeded hsucceeded
  rw [h.outcome_eq before j after hsplit] at hresult
  exact PlayerLookup.chainAnswered hhost hanswers (Queries.result_of_keeping hresult)

/-! ## The first call -/

/-- Of profiles with different ids and different names none takes a name or a holder away. -/
theorem Profile.not_displaces_of_nodup {ps : List Profile} (hids : (ps.map Profile.id).Nodup)
    (hnames : (ps.map Profile.name).Nodup) {p q : Profile} (hp : p ∈ ps) (hq : q ∈ ps) :
    ¬ p.Displaces q := by
  rw [displaces_iff]
  rintro ⟨hne, hid | hname⟩
  · exact hne (List.inj_on_of_nodup_map hids hp hq hid)
  · exact hne (List.inj_on_of_nodup_map hnames hp hq hname)

variable {w : Workers σ} {limit : Int} {ids : List PlayerId} {s : σ} {ps : List Profile}

/-- What a call comes to of which the profiles have different names: they are all held, and nobody
whom the registry knows is among them with another name. -/
structure ReturnedAndHeld (cell : Cell σ Memory) (answers : List (PlayerId → Option Profile))
    (t : σ) (ps : List Profile) : Prop where
  coherent : (cell.get t).Coherent
  ids_nodup : (ps.map Profile.id).Nodup
  held : ∀ p ∈ ps, (cell.get t).Holds p
  registered : ∀ p ∈ ps, ∀ q, firstAnswer answers p.id = some q → q = p

theorem returnedAndHeld (hhost : ∀ r, host = some r → r.Fixed)
    (hremote : remote.LeavesAlone cell) {answers : List (PlayerId → Option Profile)}
    (hanswers : HostAnswers host answers) {parts : List (List PlayerId)}
    (hparts : w.jobs limit (Batch.unique ids) = .ok parts) (hcomplete : w.schedule.Complete)
    (hnever : w.NeverCancelled) (hs : (cell.get s).Coherent)
    (hok : ((w.findAll limit (Pipeline.jobSource host cell pinned remote caseSensitive).byId
      ids).run s).result = .ok ps) (hnames : (ps.map Profile.name).Nodup) :
    ReturnedAndHeld cell answers ((w.findAll limit
      (Pipeline.jobSource host cell pinned remote caseSensitive).byId ids).run s).state ps ∧
      ∀ p ∈ ps, p.id ∈ ids := by
  rw [jobSource_byId] at hok ⊢
  have hworked := (Workers.findAll_run_ok (q := (Queries.combined id Profile.id
    (chainQueries host cell pinned remote)).keeping (.memory cell)) hparts hcomplete hnever s).1
  obtain ⟨hsucceeded, hmerged⟩ := Workers.findAll_answered hparts hcomplete hnever hok
  generalize w.jobsOf _ s parts = jobs at hworked hsucceeded hmerged
  have hjob : ∀ j ∈ jobs, ChainAnswered answers j.keys j.answer := fun j hj =>
    hworked.chainAnswered hhost hanswers hj (hsucceeded j hj)
  have hflat := Workers.flatten_of_jobs hparts
  have hnodup := hworked.nodup_answers (by rw [hflat]; exact Batch.nodup_unique ids)
    fun j hj => ⟨(hjob j hj).ids_nodup, (hjob j hj).asked⟩
  have hiff : ∀ p, p ∈ ps ↔ p ∈ jobs.flatMap JobRun.answer := by
    intro p
    rw [List.mem_flatMap]
    refine hmerged.mem_iff (fun a b ha hb hid => ?_) p
    exact List.inj_on_of_nodup_map hnodup (List.mem_flatMap.mpr ha) (List.mem_flatMap.mpr hb) hid
  have hleft := hworked.memory_reflects (chainQueries_leaveAlone hhost hremote) hs.reflects_all
  refine ⟨⟨hleft.coherent, hmerged.ids_nodup, fun p hp => ?_, fun p hp q hq => ?_⟩,
    fun p hp => ?_⟩
  · refine (hleft.holds_iff p).mpr (stands_of_mem (fun a ha b hb => ?_) ((hiff p).mp hp))
    exact Profile.not_displaces_of_nodup hmerged.ids_nodup hnames ((hiff b).mpr hb)
      ((hiff a).mpr ha)
  · obtain ⟨j, hj, hp⟩ := hmerged.found_of_mem p hp
    exact (hjob j hj).registered p hp q hq
  · obtain ⟨j, hj, hp⟩ := hmerged.found_of_mem p hp
    rw [← Batch.mem_unique, ← hflat]
    exact (hworked.exists_mem_keys_iff p.id).mp ⟨j, hj, (hjob j hj).asked p hp⟩

/-! ## The second call -/

theorem HostAnswers.atHome {answers : List (PlayerId → Option Profile)}
    (h : HostAnswers host answers) (cell : Cell σ Memory) (m : Memory) :
    AnswerAtHome cell m Profile.id
      (hostQueries host ++ [("CacheLookupService", (Source.cached (.memory cell)).byId)])
      (answers ++ [m.profile?]) := by
  refine List.rel_append (h _ _) (.cons ?_ .nil)
  exact Source.answers_cached fun t ht => ht.profile?_eq

theorem ReturnedAndHeld.firstAnswer_eq {answers : List (PlayerId → Option Profile)}
    (h : ReturnedAndHeld cell answers s ps) {p : Profile} (hp : p ∈ ps) :
    firstAnswer (answers ++ [(cell.get s).profile?]) p.id = some p := by
  have hholds : (cell.get s).profile? p.id = some p :=
    ((cell.get s).profile?_eq_some_iff p.id p).mpr ⟨rfl, h.held p hp⟩
  rw [firstAnswer_append, firstAnswer_singleton, hholds]
  cases hq : firstAnswer answers p.id with
  | none => rfl
  | some q => rw [h.registered p hp q hq]; rfl

theorem ReturnedAndHeld.answered {answers : List (PlayerId → Option Profile)}
    (h : ReturnedAndHeld cell answers s ps) (hanswers : HostAnswers host answers)
    {parts : List (List PlayerId)} (hparts : w.jobs limit (Batch.unique ids) = .ok parts)
    (hcomplete : w.schedule.Complete) (hnever : w.NeverCancelled)
    (hids : ∀ id ∈ ids, id ∈ ps.map Profile.id) :
    ∃ qs, AnsweredFromMemory cell s (w.findAll limit
        (Pipeline.jobSource host cell pinned remote caseSensitive).byId ids) qs ∧
      ∀ p, p ∈ qs ↔ p ∈ ps ∧ p.id ∈ ids := by
  have hhome := hanswers.atHome cell (cell.get s)
  have hall : ∀ id ∈ ids, ∃ p,
      firstAnswer (answers ++ [(cell.get s).profile?]) id = some p ∧ (cell.get s).Holds p := by
    intro id hid
    obtain ⟨p, hp, rfl⟩ := List.mem_map.mp (hids id hid)
    exact ⟨p, h.firstAnswer_eq hp, h.held p hp⟩
  obtain ⟨qs, hqs, hfrom⟩ := hhome.answered h.coherent id
    [("HashMapService", (Source.localMap pinned).byId),
      ("HttpRepositoryService", (Source.remote remote).byId)] hparts hcomplete hnever hall
  have hchain : hostQueries host ++ [("CacheLookupService", (Source.cached (.memory cell)).byId)] ++
      [("HashMapService", (Source.localMap pinned).byId),
        ("HttpRepositoryService", (Source.remote remote).byId)] =
      chainQueries host cell pinned remote := List.append_assoc ..
  rw [hchain, ← jobSource_byId] at hqs
  have hflat := Workers.flatten_of_jobs hparts
  have hfound : ∀ p, (∃ part ∈ parts, p.id ∈ Batch.uniqueBy id part ∧
      firstAnswer (answers ++ [(cell.get s).profile?]) p.id = some p) ↔ p ∈ ps ∧ p.id ∈ ids := by
    intro p
    rw [← Batch.mem_unique ids, ← hflat, List.mem_flatten]
    constructor
    · rintro ⟨part, hpart, hk, hanswer⟩
      have hmem := (Batch.mem_unique part p.id).mp hk
      refine ⟨?_, part, hpart, hmem⟩
      have hid : p.id ∈ ids := by
        rw [← Batch.mem_unique, ← hflat]
        exact List.mem_flatten.mpr ⟨part, hpart, hmem⟩
      obtain ⟨q, hq, hqp⟩ := List.mem_map.mp (hids p.id hid)
      rw [← hqp, h.firstAnswer_eq hq] at hanswer
      rwa [← Option.some.inj hanswer]
    · rintro ⟨hp, part, hpart, hmem⟩
      exact ⟨part, hpart, (Batch.mem_unique part p.id).mpr hmem, h.firstAnswer_eq hp⟩
  refine ⟨qs, hqs, fun p => ?_⟩
  rw [← hfound]
  refine hfrom.mem_iff (fun a b ha hb hid => ?_) p
  exact List.inj_on_of_nodup_map h.ids_nodup ((hfound a).mp ha).1 ((hfound b).mp hb).1 hid

end

/-- **Returned ids are not asked for again.** If a call by ids returns profiles of which no two have
one name, then a call for any of their ids gives the same profiles again, without a request, and
leaves the cache as it was. -/
theorem repeated_ids_need_no_request (host : Option (Registry σ))
    (hhost : ∀ r, host = some r → r.Fixed) (cell : Cell σ Memory) (pinned : Cell σ LocalMap)
    (remote : Remote σ) (hremote : remote.LeavesAlone cell) (caseSensitive : Bool) (w : Workers σ)
    (hcomplete : w.schedule.Complete) (hnever : w.NeverCancelled) (ids : List PlayerId) (s : σ)
    (hs : (cell.get s).Coherent) {ps : List Profile}
    (hok : (((Pipeline.chain host (.memory cell) pinned remote caseSensitive w).byId.all
      ids).run s).result = .ok ps)
    (hnames : (ps.map Profile.name).Nodup) (again : List PlayerId)
    (hagain : ∀ id ∈ again, id ∈ ps.map Profile.id) :
    let chain := Pipeline.chain host (.memory cell) pinned remote caseSensitive w
    ∃ qs, AnsweredFromMemory cell ((chain.byId.all ids).run s).state (chain.byId.all again) qs ∧
      ∀ p, p ∈ qs ↔ p ∈ ps ∧ p.id ∈ again := by
  obtain ⟨answers, hanswers⟩ := exists_hostAnswers hhost
  obtain ⟨parts, hparts⟩ := Workers.jobs_of_findAll hok
  obtain ⟨hheld, hasked⟩ :=
    returnedAndHeld hhost hremote hanswers hparts hcomplete hnever hs hok hnames
  have hnone : Batch.unique ids = [] → Batch.unique again = [] := by
    intro hnil
    refine List.eq_nil_iff_forall_not_mem.mpr fun id hid => ?_
    obtain ⟨p, hp, rfl⟩ := List.mem_map.mp (hagain id ((Batch.mem_unique again id).mp hid))
    have hmem := (Batch.mem_unique ids p.id).mpr (hasked p hp)
    rw [hnil] at hmem
    exact absurd hmem List.not_mem_nil
  obtain ⟨parts', hparts'⟩ := Workers.jobs_ok_of_ok hparts hnone
  exact hheld.answered hanswers hparts' hcomplete hnever hagain

/-! ## A name that changes hands -/

namespace Returned

def ash : Profile := ⟨⟨1⟩, .ash⟩

def birch : Profile := ⟨⟨2⟩, .birch⟩

def host : Registry (Memory × LocalMap) :=
  .fixed (fun _ => none) fun id => if id = ash.id then some "Ash" else none

theorem fixed_host : host.Fixed := by
  refine ⟨_, _, rfl, fun id => ?_⟩
  split <;> decide

def remote : Remote (Memory × LocalMap) := .saying (.list [Remote.called "Birch"])

def workers : Workers (Memory × LocalMap) := .backwards 1

def chain : Source (Memory × LocalMap) :=
  Pipeline.chain (some host) (.memory .first) .second remote true workers

def state : Memory × LocalMap := (.single ⟨⟨3⟩, ash.name⟩, .empty)

end Returned

theorem repeated_ids_need_no_request_ash :
    ((Returned.chain.byId.all [⟨2⟩, ⟨1⟩]).run Returned.state).result =
        .ok [Returned.ash, Returned.birch] ∧
      ∃ qs, AnsweredFromMemory .first
          ((Returned.chain.byId.all [⟨2⟩, ⟨1⟩]).run Returned.state).state
          (Returned.chain.byId.all [⟨1⟩, ⟨2⟩, ⟨1⟩]) qs ∧
        ∀ p, p ∈ qs ↔ p ∈ [Returned.ash, Returned.birch] ∧
          p.id ∈ [(⟨1⟩ : PlayerId), ⟨2⟩, ⟨1⟩] := by
  have hok : ((Returned.chain.byId.all [⟨2⟩, ⟨1⟩]).run Returned.state).result =
      .ok [Returned.ash, Returned.birch] := Except.eq_ok_of_toOption (by decide +kernel)
  have hhost : ∀ r, some Returned.host = some r → r.Fixed := fun r h => by
    rw [← Option.some.inj h]
    exact Returned.fixed_host
  have hnever : Returned.workers.NeverCancelled := fun ask h s => by
    cases h
    rfl
  exact ⟨hok, repeated_ids_need_no_request (some Returned.host) hhost .first .second
    Returned.remote (Remote.leavesAlone_saying _) true Returned.workers Schedule.complete_backwards
      hnever _
    Returned.state (Memory.coherent_single _) hok (by decide) _ (by decide)⟩

end PlayerLookup
