import PlayerLookup.Proofs.Combined.Leaves
import PlayerLookup.Proofs.Remote.Histories

/-! Names in the answers of sources that ask no others. Pinned profiles and caches in memory answer
a name with a profile of just this name, so no name is answered twice. A registry may spell names in
its own way, and a remote service may send any records; what they answer is told apart by the
spelling asked for and by id, and so it may have a name twice. -/

set_option autoImplicit false

namespace PlayerLookup

variable {σ K : Type}

/-! ## Sources that find just what is asked -/

theorem LocalMap.name_of_byName? {m : LocalMap} {name : String} {p : Profile}
    (h : m.byName? name = some p) : p.name.text = name := by
  obtain ⟨n, hn, hid⟩ := Option.bind_eq_some_iff.mp h
  obtain ⟨id, -, hp⟩ := Option.bind_eq_some_iff.mp hid
  cases hp
  exact (Memory.ofText?_eq_some_iff name n).mp hn

theorem Source.answers_localMap_names {kept : σ → Prop} {own : Event → Prop}
    {cell : Cell σ LocalMap} {m : LocalMap} (h : ∀ s, kept s → cell.get s = m) :
    (Source.localMap cell).byName.Answers kept own (·.name.text) m.byName? := by
  refine Queries.answers_ofOne (fun _ _ => LocalMap.name_of_byName?) fun name => ?_
  refine Lookup.gives_of_still fun s hs => ?_
  rw [Lookup.run_bind_quiet (cell.run_read s), h s hs]
  rfl

theorem Queries.Answers.exists_result {kept : σ → Prop} {own : Event → Prop} {keyOf : Profile → K}
    {answer : K → Option Profile} {q : Queries σ K} (h : q.Answers kept own keyOf answer) {s : σ}
    (hs : kept s) (keys : List K) :
    ∃ ps, ((q.all keys).run s).result = .ok ps ∧ FoundFor keyOf answer keys ps := by
  obtain ⟨ps, hfound, hbatch, -⟩ := h.batch keys
  obtain ⟨events, t, hrun, -, -⟩ := hbatch s hs
  refine ⟨ps, ?_, hfound⟩
  rw [hrun]

/-! ## Keys asked one by one -/

theorem Queries.exists_found_of_collect {one : K → Lookup σ (Option Profile)} {keys : List K}
    {s : σ} {ps : List Profile} (hok : ((collect one keys).run s).result = .ok ps) :
    ∃ found : List (K × Profile), found.map Prod.snd = ps ∧
      (found.map Prod.fst).Sublist keys ∧
      ∀ f ∈ found, ∃ t, ((one f.1).run t).result = .ok (some f.2) := by
  induction keys generalizing s ps with
  | nil =>
    obtain rfl := Except.ok.inj hok
    exact ⟨[], rfl, List.Sublist.refl [], fun f hf => absurd hf List.not_mem_nil⟩
  | cons k rest ih =>
    obtain ⟨_, t, answer, hone, hrest⟩ := Lookup.result_bind_eq_ok hok
    obtain ⟨_, u, more, hmore, hpure⟩ := Lookup.result_bind_eq_ok hrest
    obtain rfl := Except.ok.inj hpure
    obtain ⟨found, rfl, hsublist, hfound⟩ := ih (s := t) (by rw [hmore])
    cases answer with
    | none => exact ⟨found, rfl, hsublist.cons k, hfound⟩
    | some p =>
      refine ⟨(k, p) :: found, rfl, hsublist.cons_cons k, fun f hf => ?_⟩
      rcases List.mem_cons.mp hf with rfl | hf
      · exact ⟨s, by rw [hone]⟩
      · exact hfound f hf

/-- In some state the registry knows a player by the name, and has this profile for it. -/
def Registry.Finds (r : Registry σ) (name : String) (p : Profile) : Prop :=
  ∃ s, ((r.findName name).run s).result = .ok (some p)

/-- The two profiles were found for two spellings. -/
def Registry.FindsBoth (r : Registry σ) (names : List String) (p q : Profile) : Prop :=
  ∃ k ∈ names, ∃ l ∈ names, k ≠ l ∧ r.Finds k p ∧ r.Finds l q

theorem Source.host_finds_both (r : Registry σ) {names : List String} {s : σ} {ps : List Profile}
    (hok : (((Source.host r).byName.all names).run s).result = .ok ps) :
    ps.Pairwise (r.FindsBoth names) := by
  obtain ⟨found, rfl, hsublist, hfound⟩ := Queries.exists_found_of_collect hok
  have hmem : ∀ f ∈ found, f.1 ∈ names := fun f hf =>
    (Batch.mem_unique names f.1).mp (hsublist.subset (List.mem_map_of_mem hf))
  have hkeys : (found.map Prod.fst).Nodup := (Batch.nodup_unique names).sublist hsublist
  rw [List.nodup_iff_pairwise_ne, List.pairwise_map] at hkeys
  rw [List.pairwise_map]
  exact hkeys.imp_of_mem fun {f g} hf hg hne =>
    ⟨f.1, hmem f hf, g.1, hmem g hg, hne, hfound f hf, hfound g hg⟩

/-! ## Names asked of the remote service -/

/-- In some state a request for the names of a body brings a record of the profile. -/
def Remote.Brings (r : Remote σ) (bodies : List (List String)) (p : Profile) : Prop :=
  ∃ body ∈ bodies, ∃ s ps, ((r.queryNames body).run s).result = .ok ps ∧ p ∈ ps

theorem Remote.brings_of_queryBodies {r : Remote σ} {bodies : List (List String)} {s : σ}
    {ps : List Profile} (hok : ((r.queryBodies bodies).run s).result = .ok ps) {p : Profile}
    (hp : p ∈ ps) : r.Brings bodies p := by
  induction bodies generalizing s ps with
  | nil =>
    obtain rfl := Except.ok.inj hok
    exact absurd hp List.not_mem_nil
  | cons body rest ih =>
    obtain ⟨_, t, found, hfound, hrest⟩ := Lookup.result_bind_eq_ok hok
    obtain ⟨_, u, more, hmore, hpure⟩ := Lookup.result_bind_eq_ok hrest
    obtain rfl := Except.ok.inj hpure
    rcases List.mem_append.mp hp with hp | hp
    · exact ⟨body, List.mem_cons_self, s, found, by rw [hfound], hp⟩
    · obtain ⟨later, hlater, hbrings⟩ := ih (s := t) (by rw [hmore]) hp
      exact ⟨later, List.mem_cons_of_mem body hlater, hbrings⟩

/-- The two profiles are of different players, and the remote service has sent both. -/
def Remote.BringsBoth (r : Remote σ) (names : List String) (p q : Profile) : Prop :=
  p.id ≠ q.id ∧ r.Brings (Remote.bodies names) p ∧ r.Brings (Remote.bodies names) q

theorem Source.remote_brings_both (r : Remote σ) {names : List String} {s : σ} {ps : List Profile}
    (hok : (((Source.remote r).byName.all names).run s).result = .ok ps) :
    ps.Pairwise (r.BringsBoth names) := by
  obtain ⟨_, t, all, hall, hpure⟩ := Lookup.result_bind_eq_ok hok
  obtain rfl := Except.ok.inj hpure
  have hbrings : ∀ p ∈ Profile.distinct all, r.Brings (Remote.bodies names) p := fun p hp =>
    Remote.brings_of_queryBodies (s := s) (by rw [hall])
      ((Batch.uniqueFrom_sublist Profile.id [] all).subset hp)
  have hids : ((Profile.distinct all).map Profile.id).Nodup :=
    Batch.nodup_map_uniqueBy Profile.id all
  rw [List.nodup_iff_pairwise_ne, List.pairwise_map] at hids
  exact hids.imp_of_mem fun {p q} hp hq hne => ⟨hne, hbrings p hp, hbrings q hq⟩

/-! ## All of them -/

/-- What is known of any two profiles of a list; and if it tells their names apart, no name stands
in the list twice. -/
structure ToldApart (both : Profile → Profile → Prop) (ps : List Profile) : Prop where
  pairwise : ps.Pairwise both
  nodup : (∀ p q, both p q → p.name.text ≠ q.name.text) → (ps.map (·.name.text)).Nodup

theorem toldApart_of_pairwise {both : Profile → Profile → Prop} {ps : List Profile}
    (h : ps.Pairwise both) : ToldApart both ps where
  pairwise := h
  nodup hnames := by
    rw [List.nodup_iff_pairwise_ne, List.pairwise_map]
    exact h.imp fun {p q} hboth => hnames p q hboth

/-- **What a name that is answered twice comes from.** Pinned profiles and a cache in memory have
one profile for each requested name that they know. Two profiles in the answer of a host's registry
were found for two spellings, and two in the answer of the remote service are of two players; so a
name stands in an answer twice only if the registry has two spellings under it, or the remote
service has sent it for two players. -/
theorem leaf_names_repeated_only_by_answers (pinned : Cell σ LocalMap) (cell : Cell σ Memory)
    (registry : Registry σ) (remote : Remote σ) (names : List String) (s : σ) :
    (∃ ps, (((Source.localMap pinned).byName.all names).run s).result = .ok ps ∧
      FoundFor (·.name.text) (pinned.get s).byName? names ps) ∧
    (∃ ps, (((Source.cached (.memory cell)).byName.all names).run s).result = .ok ps ∧
      FoundFor (·.name.text) (cell.get s).holder? names ps) ∧
    (∀ ps, (((Source.host registry).byName.all names).run s).result = .ok ps →
      ToldApart (registry.FindsBoth names) ps) ∧
    ∀ ps, (((Source.remote remote).byName.all names).run s).result = .ok ps →
      ToldApart (remote.BringsBoth names) ps := by
  have hpinned : (Source.localMap pinned).byName.Answers (pinned.get · = pinned.get s)
      (fun _ => True) (·.name.text) (pinned.get s).byName? :=
    Source.answers_localMap_names fun _ ht => ht
  have hcached : (Source.cached (.memory cell)).byName.Answers (cell.get · = cell.get s)
      (fun _ => True) (·.name.text) (cell.get s).holder? :=
    Source.answers_cached_names fun t ht => by rw [ht]
  refine ⟨hpinned.exists_result rfl names, hcached.exists_result rfl names, fun ps hps => ?_,
    fun ps hps => ?_⟩
  · exact toldApart_of_pairwise (Source.host_finds_both registry hps)
  · exact toldApart_of_pairwise (Source.remote_brings_both remote hps)

/-! ## A name in two spellings, and a name of two players -/

namespace TwoAnswers

def rowan : Profile := ⟨⟨1⟩, ⟨"Rowan", by decide⟩⟩

def registry : Registry Memory :=
  .fixed (fun name => if Text.fold name = "rowan" then some rowan.id else none)
    fun id => if id = rowan.id then some rowan.name.text else none

def firstHazel : Profile := ⟨⟨1⟩, ⟨"Hazel", by decide⟩⟩

def secondHazel : Profile := ⟨⟨2⟩, ⟨"Hazel", by decide⟩⟩

def records : Document := .list [Remote.entryOf firstHazel, Remote.entryOf secondHazel]

end TwoAnswers

/-- A registry answers two spellings with one profile, and a remote service one name with two. -/
theorem leaf_names_repeated :
    (((Source.host TwoAnswers.registry).byName.all ["rowan", "ROWAN"]).run .empty).result =
        .ok [TwoAnswers.rowan, TwoAnswers.rowan] ∧
      ¬ ([TwoAnswers.rowan, TwoAnswers.rowan].map Profile.name).Nodup ∧
      (((Source.remote (.saying TwoAnswers.records)).byName.all ["Hazel"]).run
        Memory.empty).result = .ok [TwoAnswers.firstHazel, TwoAnswers.secondHazel] ∧
      ¬ ([TwoAnswers.firstHazel, TwoAnswers.secondHazel].map Profile.name).Nodup :=
  ⟨Except.eq_ok_of_toOption (by decide +kernel), by decide,
    Except.eq_ok_of_toOption (by decide +kernel), by decide⟩

end PlayerLookup
