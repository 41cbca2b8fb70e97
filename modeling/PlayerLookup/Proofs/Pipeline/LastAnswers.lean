import PlayerLookup.Proofs.Combined.Answering
import PlayerLookup.Proofs.Pipeline.Asked
import PlayerLookup.Proofs.Pipeline.Freshness

/-! Jobs of a chain by turns: the cache is asked first, then the pinned profiles, then the remote
source. Once all jobs are over, a profile that the remote source gave is held by the cache, unless
the source gave something else for its name or its player, or a job overtook it that had read an
older profile. -/

set_option autoImplicit false

namespace PlayerLookup

variable {σ : Type}

/-! ## The members of a chain -/

/-- What the jobs of a chain without a registry ask for names, in order. -/
def Pipeline.nameMembers (cell : Cell σ Memory) (pinned : Cell σ LocalMap) (remote : Remote σ) :
    List (String × Queries σ String) :=
  (members none (.memory cell) pinned remote).map fun s => (s.label, s.byName)

theorem Queries.collect_none {K : Type} {one : K → Lookup σ (Option Profile)} {s : σ}
    (h : ∀ k, (one k).run s = ⟨[], s, .ok none⟩) (keys : List K) :
    (collect one keys).run s = ⟨[], s, .ok []⟩ := by
  induction keys with
  | nil => rfl
  | cons k rest ih =>
    rw [collect, Lookup.run_bind_quiet (h k), Lookup.run_bind_quiet ih]
    rfl

theorem Source.localMap_empty_run {pinned : Cell σ LocalMap} {s : σ} (h : pinned.get s = .empty)
    (names : List String) :
    ((Source.localMap pinned).byName.all names).run s = ⟨[], s, .ok []⟩ := by
  refine Queries.collect_none (fun name => ?_) (Batch.unique names)
  rw [Lookup.run_bind_quiet (pinned.run_read s), h]
  change Run.mk [] s (.ok (LocalMap.empty.byName? name)) = _
  unfold LocalMap.byName?
  cases Name.ofText? name <;> rfl

/-! ## Jobs of a chain -/

section

variable (cell : Cell σ Memory) (pinned : Cell σ LocalMap) (remote : Remote σ)
    (caseSensitive : Bool)

/-- A job of a chain: how far it has come, and what it knows of its names. -/
structure Asking.OnTheWay (a : Asking σ String String) : Prop where
  place : (a.members = Pipeline.nameMembers cell pinned remote ∧ a.found = []) ∨
    a.members = (Pipeline.nameMembers cell pinned remote).tail ∨
    a.members = (Pipeline.nameMembers cell pinned remote).tail.tail ∨ a.members = []
  knows : ∃ names earlier,
    a.progress.Knows (matchingForm caseSensitive) (·.name.text) names earlier

/-- Jobs of a chain without pinned profiles, with every profile accounted for. -/
structure Pool.OnTheWay (s : σ) (pool : Pool σ String String) : Prop where
  coherent : (cell.get s).Coherent
  pinned_eq : pinned.get s = .empty
  asking : ∀ i a, pool.AtWork i a → a.OnTheWay cell pinned remote caseSensitive
  ended : ∀ i ps, (i, Deed.stored ps) ∈ pool.deeds → ∀ a, ¬ pool.AtWork i a
  accounted : ∀ p, pool.Accounted "CacheLookupService" "HttpRepositoryService" (cell.get s) p

end

section

variable {cell : Cell σ Memory} {pinned : Cell σ LocalMap} {remote : Remote σ}
    {caseSensitive : Bool}
  {a : Asking σ String String} {pool : Pool σ String String} {s t : σ} {i : Nat}

theorem Asking.OnTheWay.told (h : a.OnTheWay cell pinned remote caseSensitive)
    (hmembers : a.members ≠ []) (answer : List Profile) :
    (a.told (matchingForm caseSensitive) (·.name.text) answer).OnTheWay cell pinned remote
      caseSensitive where
  place := by
    change (a.members.tail = _ ∧ _) ∨ a.members.tail = _ ∨ a.members.tail = _ ∨ a.members.tail = _
    rcases h.place with ⟨hall, -⟩ | hall | hall | hall
    · exact Or.inr (Or.inl (by rw [hall]))
    · exact Or.inr (Or.inr (Or.inl (by rw [hall])))
    · exact Or.inr (Or.inr (Or.inr (by rw [hall]; rfl)))
    · exact absurd hall hmembers
  knows := by
    obtain ⟨names, earlier, hknows⟩ := h.knows
    exact ⟨names, earlier ++ answer, (hknows.accept answer).2⟩

namespace Pool

theorem OnTheWay.workedOn (h : pool.OnTheWay cell pinned remote caseSensitive s)
    (hi : pool.AtWork i a) {d : Deed} {next : Course σ String String}
    (hcoherent : (cell.get t).Coherent) (hpinned : pinned.get t = .empty)
    (hnext : ∀ b, next = .asking b → b.OnTheWay cell pinned remote caseSensitive ∧
      ∀ ps, d ≠ .stored ps)
    (hstep : ∀ p, pool.Unharmed "CacheLookupService" "HttpRepositoryService" (cell.get s) p →
      (pool.workedOn i d next).Rivalled "HttpRepositoryService" p ∨
        (pool.workedOn i d next).Overtaken "CacheLookupService" p ∨
          pool.Harmless "CacheLookupService" "HttpRepositoryService" (cell.get t) p i a d next) :
    (pool.workedOn i d next).OnTheWay cell pinned remote caseSensitive t where
  coherent := hcoherent
  pinned_eq := hpinned
  asking j b hj := by
    rcases (atWork_workedOn hi d next j b).mp hj with ⟨-, hb⟩ | ⟨-, hj⟩
    · exact (hnext b hb).1
    · exact h.asking j b hj
  ended j ps hdeed b hj := by
    rcases mem_deeds_workedOn.mp hdeed with hold | hnew
    · rcases (atWork_workedOn hi d next j b).mp hj with ⟨rfl, -⟩ | ⟨-, hj⟩
      · exact h.ended j ps hold a hi
      · exact h.ended j ps hold b hj
    · obtain ⟨rfl, rfl⟩ := Prod.mk.inj hnew
      rcases (atWork_workedOn hi _ next j b).mp hj with ⟨-, hb⟩ | ⟨hne, -⟩
      · exact (hnext b hb).2 ps rfl
      · exact hne rfl

  accounted p := (h.accounted p).workedOn hi (hstep p)

/-- A step of one job leads from a state to one in which the jobs are on their way again. -/
def GoesOn (cell : Cell σ Memory) (pinned : Cell σ LocalMap) (remote : Remote σ)
    (caseSensitive : Bool) (i : Nat) (s : σ) (pool : Pool σ String String) : Prop :=
  ∃ events t pool',
    (pool.workOn (matchingForm caseSensitive) (·.name.text) (.memory cell) i).run s =
    ⟨events, t, .ok pool'⟩ ∧ pool'.OnTheWay cell pinned remote caseSensitive t

theorem OnTheWay.store (h : pool.OnTheWay cell pinned remote caseSensitive s)
    (hi : pool.AtWork i a) (hlast : a.members = [] ∨ a.progress.isComplete = true)
    (hapart : cell.Apart pinned) : pool.GoesOn cell pinned remote caseSensitive i s := by
  obtain ⟨t, hkeep, ht, hframe⟩ := Cache.keep_memory_run a.found h.coherent.reflects_all
  refine ⟨_, t, _, workOn_run hi (Asking.step_stored hlast hkeep), ?_⟩
  refine h.workedOn hi ht.coherent ((hframe _ pinned hapart).trans h.pinned_eq)
    (fun b hb => by cases hb) fun p hp => Or.inr ?_
  by_cases hlate : pool.Threatened a p
  · exact Or.inl (hp.overtaken hi h.ended hlate _)
  · exact Or.inr (hp.stored hi h.coherent ht hlate _)

variable {label : String} {q : Queries σ String} {rest : List (String × Queries σ String)}

theorem OnTheWay.ask (h : pool.OnTheWay cell pinned remote caseSensitive s)
    (hi : pool.AtWork i a) (hmembers : a.members = (label, q) :: rest)
    (hopen : ¬ a.progress.isComplete = true) (hcell : q.LeavesAlone cell)
    (hpinned : q.LeavesAlone pinned)
    (htold : ∀ answer, ((q.all a.progress.missing).run s).result = .ok answer → ∀ p,
      pool.Unharmed "CacheLookupService" "HttpRepositoryService" (cell.get s) p →
        (label = "HttpRepositoryService" ∧ ∃ q ∈ answer, q.Displaces p) ∨
          pool.Harmless "CacheLookupService" "HttpRepositoryService" (cell.get s) p i a
            (.answered label answer)
            (.asking (a.told (matchingForm caseSensitive) (·.name.text) answer))) :
    pool.GoesOn cell pinned remote caseSensitive i s := by
  have hne : a.members ≠ [] := by
    rw [hmembers]
    exact List.cons_ne_nil _ _
  have hcell' := hcell a.progress.missing s
  have hpinned' := hpinned a.progress.missing s
  rcases hrun : (q.all a.progress.missing).run s with ⟨events, t, result⟩
  rw [hrun] at hcell' hpinned' htold
  dsimp only at hcell' hpinned' htold
  have hcoherent : (cell.get t).Coherent := by
    rw [hcell']
    exact h.coherent
  have hempty := hpinned'.trans h.pinned_eq
  rw [← hcell'] at htold
  cases result with
  | error f =>
    refine ⟨_, t, _, workOn_run hi (Asking.step_not_answered hmembers hopen hrun), ?_⟩
    refine h.workedOn hi hcoherent hempty (fun b hb => by cases hb) fun p hp => ?_
    rw [← hcell'] at hp
    exact Or.inr (Or.inr (hp.failed hne f _))
  | ok answer =>
    refine ⟨_, t, _, workOn_run hi (Asking.step_answered hmembers hopen hrun), ?_⟩
    refine h.workedOn hi hcoherent hempty (fun b hb => ?_) fun p hp => ?_
    · cases hb
      exact ⟨(h.asking i a hi).told hne answer, fun ps hd => by cases hd⟩
    · rw [← hcell'] at hp
      rcases htold answer rfl p hp with ⟨rfl, q, hq, hdisplaces⟩ | hharmless
      · refine Or.inl ⟨q, mem_answers.mpr ⟨i, answer, ?_, hq⟩, hdisplaces⟩
        exact mem_deeds_workedOn.mpr (Or.inr rfl)
      · exact Or.inr (Or.inr hharmless)

/-! ## The members in turn -/

theorem OnTheWay.mem_of_accepted (h : pool.OnTheWay cell pinned remote caseSensitive s)
    (hi : pool.AtWork i a) {answer : List Profile} {q : Profile}
    (hq : q ∈ (a.progress.accept (matchingForm caseSensitive) (·.name.text) answer).1) :
    q ∈ answer := by
  obtain ⟨names, earlier, hknows⟩ := (h.asking i a hi).knows
  rw [(hknows.accept answer).1] at hq
  exact (Batch.uniqueFrom_sublist _ _ answer).subset hq

/-- What a member gave for a name that is missing is accepted if it gave nothing else for it. -/
theorem OnTheWay.mem_accepted (h : pool.OnTheWay cell pinned remote caseSensitive s)
    (hi : pool.AtWork i a) {answer : List Profile} {p : Profile} (hp : p ∈ answer)
    (hasked : ∀ q ∈ answer, q.name.text ∈ a.progress.missing)
    (honly : ∀ q ∈ answer, q.name = p.name → q = p) :
    p ∈ (a.progress.accept (matchingForm caseSensitive) (·.name.text) answer).1 := by
  obtain ⟨names, earlier, hknows⟩ := (h.asking i a hi).knows
  rw [hknows.missing_eq] at hasked
  have hnew : matchingForm caseSensitive p.name.text ∉
      earlier.map fun q => matchingForm caseSensitive q.name.text := by
    have hopen := (List.mem_filter.mp (hasked p hp)).2
    exact of_decide_eq_true hopen
  have hkey : matchingForm caseSensitive p.name.text ∈
      (Batch.uniqueFrom (fun q => matchingForm caseSensitive q.name.text)
        (earlier.map fun q => matchingForm caseSensitive q.name.text) answer).map
          fun q => matchingForm caseSensitive q.name.text :=
    (Batch.mem_map_uniqueFrom _ _ answer _).mpr ⟨List.mem_map.mpr ⟨p, hp, rfl⟩, hnew⟩
  -- Missing names have different normal forms, so what has its normal form has the name itself.
  rw [(hknows.accept answer).1]
  obtain ⟨q, hq, hnormal⟩ := List.mem_map.mp hkey
  have hmem : q ∈ answer := (Batch.uniqueFrom_sublist _ _ answer).subset hq
  have htext : q.name.text = p.name.text :=
    normal_injOn_openKeys (hasked q hmem) (hasked p hp) hnormal
  obtain rfl := honly q hmem (Name.ext_text htext)
  exact hq

theorem OnTheWay.askCache (h : pool.OnTheWay cell pinned remote caseSensitive s)
    (hi : pool.AtWork i a) (hplace : a.members = Pipeline.nameMembers cell pinned remote)
    (hfound : a.found = []) (hopen : ¬ a.progress.isComplete = true) :
    pool.GoesOn cell pinned remote caseSensitive i s := by
  refine h.ask hi hplace hopen (Source.leavesAlone_cached cell).1 (Source.leavesAlone_cached cell).1
    fun answer hanswer p hp => Or.inr ?_
  have hheld : ∀ q ∈ answer, (cell.get s).Holds q := by
    obtain rfl := Except.ok.inj hanswer
    exact fun q hq => ((Memory.mem_holders h.coherent _ q).mp hq).2
  have hlabel : "CacheLookupService" ≠ "HttpRepositoryService" := by decide
  refine hp.told hi (by rw [hplace]; exact List.cons_ne_nil _ _) h.coherent
    (fun heq => absurd heq hlabel) (fun q hq _ => ?_) fun haccepted q hq => ?_
  · exact ⟨rfl, h.mem_of_accepted hi hq, hheld q (h.mem_of_accepted hi hq)⟩
  · rw [hfound, List.nil_append] at haccepted
    exact h.coherent.not_displaces (hheld p (h.mem_of_accepted hi haccepted))
      (hheld q (h.mem_of_accepted hi hq))

theorem OnTheWay.askPinned (h : pool.OnTheWay cell pinned remote caseSensitive s)
    (hi : pool.AtWork i a) (hplace : a.members = (Pipeline.nameMembers cell pinned remote).tail)
    (hopen : ¬ a.progress.isComplete = true) :
    pool.GoesOn cell pinned remote caseSensitive i s := by
  refine h.ask hi hplace hopen (Source.leavesAlone_localMap pinned).1
    (Source.leavesAlone_localMap pinned).1 fun answer hanswer p hp => Or.inr ?_
  obtain rfl : answer = [] := by
    rw [Source.localMap_empty_run h.pinned_eq] at hanswer
    exact (Except.ok.inj hanswer).symm
  have hnone : ∀ q, q ∉ (a.progress.accept (matchingForm caseSensitive) (·.name.text) []).1 :=
    fun q hq => absurd hq List.not_mem_nil
  have hlabel : "HashMapService" ≠ "HttpRepositoryService" := by decide
  exact hp.told hi (by rw [hplace]; exact List.cons_ne_nil _ _) h.coherent
    (fun heq => absurd heq hlabel) (fun q hq => absurd hq (hnone q))
    fun _ q hq => absurd hq (hnone q)

theorem OnTheWay.askRemote (h : pool.OnTheWay cell pinned remote caseSensitive s)
    (hi : pool.AtWork i a)
    (hplace : a.members = (Pipeline.nameMembers cell pinned remote).tail.tail)
    (hopen : ¬ a.progress.isComplete = true) (hcell : remote.LeavesAlone cell)
    (hpinned : remote.LeavesAlone pinned)
    (hasked : (Source.remote remote).byName.AnswersAsked (·.name.text)) :
    pool.GoesOn cell pinned remote caseSensitive i s := by
  refine h.ask hi hplace hopen hcell.byName hpinned.byName fun answer hanswer p hp => ?_
  by_cases hrival : ∃ q ∈ answer, q.Displaces p
  · exact Or.inl ⟨rfl, hrival⟩
  have hnone : ∀ q ∈ (a.progress.accept (matchingForm caseSensitive) (·.name.text) answer).1,
      ¬ q.Displaces p := fun q hq hdisplaces => hrival ⟨q, h.mem_of_accepted hi hq, hdisplaces⟩
  refine Or.inr (hp.told hi (by rw [hplace]; exact List.cons_ne_nil _ _) h.coherent (fun _ => ?_)
    (fun q hq hdisplaces => absurd hdisplaces (hnone q hq)) fun _ => hnone)
  refine ⟨by rw [hplace]; rfl, fun hmem => ?_⟩
  refine h.mem_accepted hi hmem (hasked _ s answer hanswer) fun q hq hname => ?_
  by_contra hne
  exact hrival ⟨q, hq, Profile.displaces_iff.mpr ⟨hne, Or.inr hname⟩⟩

/-- Whatever a job does next, the jobs stay on their way. -/
theorem OnTheWay.step (h : pool.OnTheWay cell pinned remote caseSensitive s)
    (hapart : cell.Apart pinned) (hcell : remote.LeavesAlone cell)
    (hpinned : remote.LeavesAlone pinned)
    (hasked : (Source.remote remote).byName.AnswersAsked (·.name.text)) (i : Nat) :
    pool.GoesOn cell pinned remote caseSensitive i s := by
  cases hcourse : pool.courses[i]? with
  | none =>
    refine ⟨[], s, pool, ?_, h⟩
    rw [workOn_none hcourse]
    rfl
  | some course =>
    cases course with
    | ended result =>
      refine ⟨[], s, pool, ?_, h⟩
      rw [workOn_over hcourse]
      rfl
    | asking a =>
      by_cases hlast : a.members = [] ∨ a.progress.isComplete = true
      · exact h.store hcourse hlast hapart
      obtain ⟨hmembers, hopen⟩ := not_or.mp hlast
      rcases (h.asking i a hcourse).place with ⟨hplace, hfound⟩ | hplace | hplace | hplace
      · exact h.askCache hcourse hplace hfound hopen
      · exact h.askPinned hcourse hplace hopen
      · exact h.askRemote hcourse hplace hopen hcell hpinned hasked
      · exact absurd hplace hmembers

theorem OnTheWay.interleave (h : pool.OnTheWay cell pinned remote caseSensitive s)
    (hapart : cell.Apart pinned) (hcell : remote.LeavesAlone cell)
    (hpinned : remote.LeavesAlone pinned)
    (hasked : (Source.remote remote).byName.AnswersAsked (·.name.text)) (order : List Nat) :
    ∃ events t pool', (pool.interleave (matchingForm caseSensitive) (·.name.text) (.memory cell)
        order).run s = ⟨events, t, .ok pool'⟩ ∧
      pool'.OnTheWay cell pinned remote caseSensitive t := by
  induction order generalizing pool s with
  | nil => exact ⟨[], s, pool, rfl, h⟩
  | cons i rest ih =>
    obtain ⟨events, t, pool₁, hstep, hpool₁⟩ := h.step hapart hcell hpinned hasked i
    obtain ⟨more, u, pool₂, hrest, hpool₂⟩ := ih hpool₁
    refine ⟨events ++ more, u, pool₂, ?_, hpool₂⟩
    rw [Pool.interleave, Lookup.run_bind_ok hstep, hrest]

theorem onTheWay_start (hs : (cell.get s).Coherent) (hempty : pinned.get s = .empty)
    (parts : List (List String)) :
    (start (matchingForm caseSensitive) (Pipeline.nameMembers cell pinned remote) parts).OnTheWay
      cell pinned remote caseSensitive s := by
  have hbegun : ∀ i a, (start (matchingForm caseSensitive)
      (Pipeline.nameMembers cell pinned remote) parts).AtWork i a →
        ∃ names, a = .start (matchingForm caseSensitive)
          (Pipeline.nameMembers cell pinned remote) names := by
    intro i a hi
    obtain ⟨names, -, hnames⟩ := List.mem_map.mp (List.mem_of_getElem? hi)
    exact ⟨names, (Course.asking.inj hnames).symm⟩
  refine ⟨hs, hempty, fun i a hi => ?_, fun i ps hdeed => absurd hdeed List.not_mem_nil,
    fun p => Or.inr (Or.inr ?_)⟩
  · obtain ⟨names, rfl⟩ := hbegun i a hi
    exact ⟨Or.inl ⟨rfl, rfl⟩, names, [], Progress.knows_ofKeys _ _ names⟩
  · refine ⟨fun i ps hdeed => absurd hdeed List.not_mem_nil,
      fun i ps hdeed => absurd hdeed List.not_mem_nil, fun i a hi hp => ?_, fun i a q hi hq => ?_⟩
    · obtain ⟨names, rfl⟩ := hbegun i a hi
      exact absurd hp List.not_mem_nil
    · obtain ⟨names, rfl⟩ := hbegun i a hi
      exact absurd hq List.not_mem_nil

/-- Once all jobs are over, what the remote source gave is held, if it gave nothing that goes
against it, or it was overtaken. -/
theorem OnTheWay.held_or_overtaken (h : pool.OnTheWay cell pinned remote caseSensitive s)
    (hover : pool.allOver = true) {p : Profile} (hp : p ∈ pool.answers "HttpRepositoryService")
    (honly : ∀ q ∈ pool.answers "HttpRepositoryService", q.id = p.id ∨ q.name = p.name → q = p) :
    (cell.get s).Holds p ∨ pool.Overtaken "CacheLookupService" p := by
  obtain ⟨i, ps, hdeed, hmem⟩ := mem_answers.mp hp
  rcases h.accounted p with ⟨q, hq, hdisplaces⟩ | hovertaken | hunharmed
  · obtain ⟨hne, hsame⟩ := Profile.displaces_iff.mp hdisplaces
    exact absurd (honly q hq hsame) hne
  · exact Or.inr hovertaken
  · rcases hunharmed.answered i ps hdeed hmem with ⟨qs, hstored, hqs⟩ | ⟨a, hi, -, -⟩
    · exact Or.inl (hunharmed.held i qs hstored hqs)
    · exact absurd (List.all_eq_true.mp hover _ (List.mem_of_getElem? hi)) Bool.false_ne_true

theorem Overtaken.not_inTurn {label : String} {p : Profile} (h : pool.Overtaken label p)
    {order : List Nat} (hdeeds : (pool.deeds.map Prod.fst).Sublist order) :
    ∃ i j, i ≠ j ∧ [j, i, j].Sublist order := by
  obtain ⟨i, j, _, _, _, _, hne, -, -, -, -, hsublist⟩ := h
  exact ⟨i, j, hne, (hsublist.map Prod.fst).trans hdeeds⟩

end Pool

end

/-- **The cache has the last answer of the remote source, unless it was overtaken.** Whatever a
cache in memory holds, however a request is shared out and in whatever order its jobs take their
steps, no step fails, and once all jobs are over a profile that the remote source gave is what the
cache has for its player, if the source gave nothing else for the player or the name, except where a
job that had read something older from the cache stored that again after the profile was stored. -/
theorem remote_answer_held_unless_overtaken (cell : Cell σ Memory) (pinned : Cell σ LocalMap)
    (hapart : cell.Apart pinned) (remote : Remote σ) (hcell : remote.LeavesAlone cell)
    (hpinned : remote.LeavesAlone pinned)
    (hasked : (Source.remote remote).byName.AnswersAsked (·.name.text)) (caseSensitive : Bool)
    (parts : List (List String)) (order : List Nat) (s : σ) (hs : (cell.get s).Coherent)
    (hempty : pinned.get s = .empty) :
    ∃ events t pool,
      ((Pool.start (matchingForm caseSensitive) (Pipeline.nameMembers cell pinned remote)
        parts).interleave (matchingForm caseSensitive) (·.name.text) (.memory cell) order).run s =
          ⟨events, t, .ok pool⟩ ∧
      (pool.allOver = true → ∀ p ∈ pool.answers "HttpRepositoryService",
        (∀ q ∈ pool.answers "HttpRepositoryService", q.id = p.id ∨ q.name = p.name → q = p) →
          (cell.get t).names.get? p.id = some p.name ∨
            pool.Overtaken "CacheLookupService" p) := by
  have hstart : (Pool.start (matchingForm caseSensitive)
      (Pipeline.nameMembers cell pinned remote) parts).OnTheWay cell pinned remote
        caseSensitive s :=
    Pool.onTheWay_start hs hempty parts
  obtain ⟨events, t, pool, hrun, hpool⟩ := hstart.interleave hapart hcell hpinned hasked order
  exact ⟨events, t, pool, hrun, fun hover p hp honly => hpool.held_or_overtaken hover hp honly⟩

/-- If nobody comes between the steps of any job, the cache has the last answer of the remote
source. -/
theorem remote_answer_held_in_turn (cell : Cell σ Memory) (pinned : Cell σ LocalMap)
    (hapart : cell.Apart pinned) (remote : Remote σ) (hcell : remote.LeavesAlone cell)
    (hpinned : remote.LeavesAlone pinned)
    (hasked : (Source.remote remote).byName.AnswersAsked (·.name.text)) (caseSensitive : Bool)
    (parts : List (List String)) {order : List Nat}
    (hinTurn : ∀ i j, [j, i, j].Sublist order → i = j) (s : σ) (hs : (cell.get s).Coherent)
    (hempty : pinned.get s = .empty) :
    ∃ events t pool,
      ((Pool.start (matchingForm caseSensitive) (Pipeline.nameMembers cell pinned remote)
        parts).interleave (matchingForm caseSensitive) (·.name.text) (.memory cell) order).run s =
          ⟨events, t, .ok pool⟩ ∧
      (pool.allOver = true → ∀ p ∈ pool.answers "HttpRepositoryService",
        (∀ q ∈ pool.answers "HttpRepositoryService", q.id = p.id ∨ q.name = p.name → q = p) →
          (cell.get t).names.get? p.id = some p.name) := by
  have hstart : (Pool.start (matchingForm caseSensitive)
      (Pipeline.nameMembers cell pinned remote) parts).OnTheWay cell pinned remote
        caseSensitive s :=
    Pool.onTheWay_start hs hempty parts
  obtain ⟨events, t, pool, hrun, hpool⟩ := hstart.interleave hapart hcell hpinned hasked order
  refine ⟨events, t, pool, hrun, fun hover p hp honly => ?_⟩
  refine (hpool.held_or_overtaken hover hp honly).resolve_right fun hovertaken => ?_
  obtain ⟨deeds, hdeeds, hsublist⟩ := Pool.interleave_deeds hrun
  have hsame : pool.deeds = deeds := hdeeds
  rw [← hsame] at hsublist
  obtain ⟨i, j, hne, hbetween⟩ := hovertaken.not_inTurn hsublist
  exact hne (hinTurn i j hbetween)

/-! ## A player who was renamed -/

namespace Stale

def old : Profile := ⟨⟨1⟩, ⟨"Old", by decide⟩⟩

def new : Profile := ⟨⟨1⟩, ⟨"New", by decide⟩⟩

def answer (names : List String) : Document :=
  .list (if "New" ∈ names then [Remote.entryOf new] else [])

def remote : Remote (Memory × LocalMap) :=
  { Remote.saying (.list []) with
    send := fun request =>
      match request with
      | .profiles _ names => return .holding (answer names)
      | .history _ => return .holding (.list []) }

theorem leavesAlone_remote {τ : Type} (d : Cell (Memory × LocalMap) τ) : remote.LeavesAlone d := by
  refine ⟨fun request s => ?_, fun _ h => by cases h⟩
  cases request <;> rfl

theorem fixedNames_remote : remote.FixedNames (fun _ => True) answer :=
  fun names s _ => ⟨[], s, .holding (answer names), rfl, trivial, rfl⟩

theorem answersAsked_remote : (Source.remote remote).byName.AnswersAsked (·.name.text) := by
  refine (fixedNames_remote.answersBodies fun names p hp => ?_).answersAsked
  by_cases hnew : "New" ∈ names
  · have husable : Remote.usable (answer names) = [new] := by
      rw [answer, if_pos hnew]
      decide +kernel
    rw [husable, List.mem_singleton] at hp
    rwa [hp]
  · have husable : Remote.usable (answer names) = [] := by
      rw [answer, if_neg hnew]
      decide +kernel
    rw [husable] at hp
    exact absurd hp List.not_mem_nil

def state : Memory × LocalMap := (.single old, .empty)

def jobs : Pool (Memory × LocalMap) String String :=
  .start (matchingForm false) (Pipeline.nameMembers .first .second remote) [["Old"], ["New"]]

def worked (order : List Nat) : Run (Memory × LocalMap) (Pool (Memory × LocalMap) String String) :=
  (jobs.interleave (matchingForm false) (·.name.text) (.memory .first) order).run state

end Stale

/-- While the job for the new name waits for its answer, the other one is worked on to its end. -/
theorem remote_answer_held_for_renamed :
    (Cell.first.get Stale.state).Coherent ∧ Cell.second.get Stale.state = LocalMap.empty ∧
      ∃ events t pool, Stale.worked [1, 1, 0, 0, 1, 1] = ⟨events, t, .ok pool⟩ ∧
        (pool.allOver = true → ∀ p ∈ pool.answers "HttpRepositoryService",
          (∀ q ∈ pool.answers "HttpRepositoryService", q.id = p.id ∨ q.name = p.name → q = p) →
            t.1.names.get? p.id = some p.name ∨ pool.Overtaken "CacheLookupService" p) :=
  ⟨Memory.coherent_single _, rfl, remote_answer_held_unless_overtaken .first .second
    (fun _ _ => rfl) Stale.remote (Stale.leavesAlone_remote .first)
    (Stale.leavesAlone_remote .second) Stale.answersAsked_remote false [["Old"], ["New"]]
    [1, 1, 0, 0, 1, 1] Stale.state (Memory.coherent_single _) rfl⟩

/-- The job for the old name reads it from the cache, and stores it again after the other job has
stored the new one: then all jobs are over, the new name was the only answer of the remote source,
and the cache has the old one. -/
theorem remote_answer_lost :
    (Source.remote Stale.remote).byName.AnswersAsked (·.name.text) ∧
      Stale.state.1.Coherent ∧ Stale.state.2 = LocalMap.empty ∧
      (Stale.worked [0, 1, 1, 1, 1, 0]).result.toOption.map (fun pool =>
        (pool.allOver, pool.answers "HttpRepositoryService")) = some (true, [Stale.new]) ∧
      (Stale.worked [0, 1, 1, 1, 1, 0]).state.1.names.get? Stale.new.id = some Stale.old.name := by
  refine ⟨Stale.answersAsked_remote, Memory.coherent_single _, rfl, ?_⟩
  decide +kernel

end PlayerLookup
