import PlayerLookup.Proofs.Pipeline.FoundByJobs
import PlayerLookup.Proofs.Preferring.Asked

/-! A batch by id goes through its three stages once, with all ids, and stores what a stage answered
before the next one begins. Asked for one by one, each id goes through all stages before the next id
is asked for. Both come to the same if the stages answer each id in a fixed way and no name stands
for two players: then no profile that is stored on the way changes what the memory knows of an id
that is still open. -/

set_option autoImplicit false

namespace PlayerLookup

variable {σ τ K α β : Type}

/-! ## The answers of three stages -/

section

variable {keyOf : Profile → K} {answer other : K → Option Profile} {keys : List K}
  {ps qs : List Profile}

theorem AnswersTo.unanswered_eq [DecidableEq K] (hkey : ∀ k p, answer k = some p → keyOf p = k)
    (h : AnswersTo keyOf answer keys ps) :
    Queries.unanswered keyOf ps keys = keys.filter fun k => (answer k).isNone := by
  refine List.filter_congr fun k hk => ?_
  rw [Bool.eq_iff_iff, Bool.not_eq_true', List.contains_eq_mem, decide_eq_false_iff_not,
    Option.isNone_iff_eq_none, List.mem_map]
  constructor
  · intro hnot
    by_contra hsome
    obtain ⟨p, hp⟩ := Option.ne_none_iff_exists'.mp hsome
    have hpk := hkey k p hp
    refine hnot ⟨p, (h p).mpr ?_, hpk⟩
    rw [hpk]
    exact ⟨hk, hp⟩
  · rintro hnone ⟨p, hp, rfl⟩
    rw [((h p).mp hp).2] at hnone
    cases hnone

end

/-- What answers an id: a preferred source, a memory, and another source. -/
structure Stages where
  live : PlayerId → Option Profile
  memory : Memory
  looked : PlayerId → Option Profile

namespace Stages

variable (st : Stages)

/-- The answer of the first stage that has one. -/
def answer (id : PlayerId) : Option Profile :=
  (st.live id).or ((st.memory.profile? id).or (st.looked id))

def news (id : PlayerId) : Option Profile :=
  (st.live id).or (if (st.memory.profile? id).isNone then st.looked id else none)

/-- Whether neither of the first two stages has an answer. -/
def leavesOpen (id : PlayerId) : Bool := (st.live id).isNone && (st.memory.profile? id).isNone

/-- The profile is in the memory, or it is what one of the sources answers to one of the ids. -/
def Has (ids : List PlayerId) (p : Profile) : Prop :=
  st.memory.Holds p ∨ ∃ id ∈ ids, st.live id = some p ∨ st.looked id = some p

/-- No name stands for two players. -/
def OneHolderEach (ids : List PlayerId) : Prop :=
  ∀ p q, st.Has ids p → st.Has ids q → p.name = q.name → p.id = q.id

/-- The calls that ask for ids one by one if they are open. -/
def singleCalls (ids : List PlayerId) : List (List PlayerId) :=
  (ids.filter st.leavesOpen).map fun id => [id]

/-- The profiles are news of some of the ids. -/
def IsNews (ids : List PlayerId) (ps : List Profile) : Prop :=
  ∀ p ∈ ps, p.id ∈ ids ∧ st.news p.id = some p

theorem of_live {id : PlayerId} {p : Profile} (h : st.live id = some p) :
    st.answer id = some p ∧ st.news id = some p ∧ st.leavesOpen id = false := by
  simp [answer, news, leavesOpen, h]

theorem of_held {id : PlayerId} {p : Profile} (h : st.live id = none)
    (hheld : st.memory.profile? id = some p) :
    st.answer id = some p ∧ st.news id = none ∧ st.leavesOpen id = false := by
  simp [answer, news, leavesOpen, h, hheld]

theorem of_open {id : PlayerId} (h : st.live id = none) (hheld : st.memory.profile? id = none) :
    st.answer id = st.looked id ∧ st.news id = st.looked id ∧ st.leavesOpen id = true := by
  simp [answer, news, leavesOpen, h, hheld]

variable {st} {ids : List PlayerId} {ps : List Profile}

theorem news_concat (done : List PlayerId) (id : PlayerId) :
    (done ++ [id]).filterMap st.news = done.filterMap st.news ++ (st.news id).toList := by
  rw [List.filterMap_append, List.filterMap_cons, List.filterMap_nil]
  cases st.news id <;> rfl

theorem singleCalls_concat (done : List PlayerId) (id : PlayerId) :
    st.singleCalls (done ++ [id]) =
      st.singleCalls done ++ if st.leavesOpen id then [[id]] else [] := by
  rw [singleCalls, singleCalls, List.filter_append, List.map_append, List.filter_singleton]
  cases st.leavesOpen id <;> rfl

theorem id_of_news (hlive : ∀ id p, st.live id = some p → p.id = id)
    (hlooked : ∀ id p, st.looked id = some p → p.id = id) {id : PlayerId} {p : Profile}
    (h : st.news id = some p) : p.id = id := by
  rcases Option.or_eq_some_iff.mp h with h | ⟨-, h⟩
  · exact hlive id p h
  · split_ifs at h
    exact hlooked id p h

theorem id_of_answer (hlive : ∀ id p, st.live id = some p → p.id = id)
    (hlooked : ∀ id p, st.looked id = some p → p.id = id) {id : PlayerId} {p : Profile}
    (h : st.answer id = some p) : p.id = id := by
  rcases Option.or_eq_some_iff.mp h with h | ⟨-, h⟩
  · exact hlive id p h
  · rcases Option.or_eq_some_iff.mp h with h | ⟨-, h⟩
    · exact ((st.memory.profile?_eq_some_iff id p).mp h).1
    · exact hlooked id p h

theorem has_of_news {id : PlayerId} (hid : id ∈ ids) {p : Profile} (h : st.news id = some p) :
    st.Has ids p := by
  refine Or.inr ⟨id, hid, ?_⟩
  rcases Option.or_eq_some_iff.mp h with hlive | ⟨-, hrest⟩
  · exact Or.inl hlive
  · split_ifs at hrest
    exact Or.inr hrest

theorem isNews_of_answersTo (h : AnswersTo Profile.id st.news ids.eraseDups ps) :
    st.IsNews ids ps := by
  intro p hp
  obtain ⟨hid, hnews⟩ := (h p).mp hp
  exact ⟨List.mem_eraseDups.mp hid, hnews⟩

theorem isNews_of_live (h : AnswersTo Profile.id st.live ids.eraseDups ps) : st.IsNews ids ps := by
  intro p hp
  obtain ⟨hid, hanswer⟩ := (h p).mp hp
  exact ⟨List.mem_eraseDups.mp hid, Option.or_eq_some_iff.mpr (Or.inl hanswer)⟩

theorem IsNews.has (h : st.IsNews ids ps) {p : Profile} (hp : p ∈ ps) : st.Has ids p :=
  has_of_news (h p hp).1 (h p hp).2

theorem OneHolderEach.compatible (h : st.OneHolderEach ids) (hps : st.IsNews ids ps) :
    Profile.Compatible ps := by
  intro p hp q hq hdisplaces
  have hid : q.id = p.id := by
    rcases hdisplaces with ⟨hid, -⟩ | ⟨hname, hne⟩
    · exact hid
    · exact absurd (h q p (hps.has hq) (hps.has hp) hname) hne
  have hsame := (hps q hq).2
  rw [hid, (hps p hp).2] at hsame
  rw [Option.some.inj hsame, Profile.displaces_iff] at hdisplaces
  exact hdisplaces.1 rfl

theorem OneHolderEach.profile?_eq (h : st.OneHolderEach ids) (hm : st.memory.Coherent)
    (hps : st.IsNews ids ps) {m : Memory} (hm' : m.Reflects (st.memory.all ++ ps)) {id : PlayerId}
    (hid : ∀ p ∈ ps, p.id ≠ id) : m.profile? id = st.memory.profile? id := by
  refine Option.ext fun p => ?_
  rw [Memory.profile?_eq_some_iff, Memory.profile?_eq_some_iff]
  refine and_congr_right fun hp => ?_
  rw [hm.reflects_all.stands_iff hm' (h.compatible hps)]
  constructor
  · rintro (hmem | hkept)
    · exact absurd hp (hid p hmem)
    · exact hkept.1
  · intro hheld
    refine Or.inr ⟨hheld, fun q hq => ?_⟩
    have hne : q.id ≠ p.id := hp ▸ hid q hq
    exact ⟨hne, fun hname => hne (h q p (hps.has hq) (Or.inl hheld) hname)⟩

end Stages

/-! ## The parts of a state -/

/-- How a state is made up: of what the sources go by, which may be in order or not, of a memory,
and of a book for calls. -/
structure StateParts (σ τ : Type) where
  sources : Cell σ τ
  inOrder : τ → Prop
  memory : Cell σ Memory
  book : Cell σ (List (List PlayerId))
  memory_sources : memory.Apart sources
  memory_book : memory.Apart book
  book_sources : book.Apart sources
  book_memory : book.Apart memory

namespace StateParts

variable (l : StateParts σ τ)

def Ready (s : σ) : Prop := l.inOrder (l.sources.get s)

/-- A source that answers each id in a fixed way, changes nothing but what the sources go by, and
keeps that in order. -/
structure Fixed (answer : PlayerId → Option Profile) (q : Queries σ PlayerId) : Prop where
  id_eq : ∀ id p, answer id = some p → p.id = id
  one : ∀ id, (q.one id).Leads l.Ready l.Ready (answer id)
  all : ∀ ids, ∃ ps, AnswersTo Profile.id answer ids ps ∧ (q.all ids).Leads l.Ready l.Ready ps
  spares_memory : q.Spares l.memory
  spares_book : q.Spares l.book

theorem Fixed.of_answers {l : StateParts σ τ} {own : Event → Prop}
    {answer : PlayerId → Option Profile} {q : Queries σ PlayerId}
    (h : q.Answers l.Ready own Profile.id answer) (hmemory : q.Spares l.memory)
    (hbook : q.Spares l.book) : l.Fixed answer q where
  id_eq := h.key_eq
  one id := (h.one id).leads
  all ids := by
    obtain ⟨ps, hps, hall, -⟩ := h.batch ids
    exact ⟨ps, hps.mem_iff, hall.leads⟩
  spares_memory := hmemory
  spares_book := hbook

/-- A source that is there has fixed answers; where there is none, there are no answers. -/
def FixedIfAny (answer : PlayerId → Option Profile) (q : Option (Queries σ PlayerId)) : Prop :=
  match q with
  | some q => l.Fixed answer q
  | none => ∀ id, answer id = none

/-- What a call has led to: these profiles were stored since, and these calls were made. -/
structure Reached (start : σ) (stored : List Profile) (calls : List (List PlayerId)) (s : σ) :
    Prop where
  ready : l.Ready s
  reflects : (l.memory.get s).Reflects ((l.memory.get start).all ++ stored)
  calls_eq : l.book.get s = l.book.get start ++ calls

variable {l} {start : σ} {stored : List Profile} {calls calls' : List (List PlayerId)}
  {answer : PlayerId → Option Profile} {q : Queries σ PlayerId}

theorem reached_start {s : σ} (hs : l.Ready s) (hm : (l.memory.get s).Coherent) :
    l.Reached s [] [] s where
  ready := hs
  reflects := by
    rw [List.append_nil]
    exact hm.reflects_all
  calls_eq := (List.append_nil _).symm

/-! ## One stage -/

theorem leads_reached {m : Lookup σ α} {a : α} (h : m.Leads l.Ready l.Ready a)
    (hmemory : m.LeavesAlone l.memory) (hbook : m.LeavesAlone l.book) :
    m.Leads (l.Reached start stored calls) (l.Reached start stored calls) a := by
  intro s hs
  obtain ⟨t, ⟨events, hrun⟩, ht⟩ := h s hs.ready
  have hm := hmemory s
  have hb := hbook s
  rw [hrun] at hm hb
  refine ⟨t, ⟨events, hrun⟩, ht, ?_, hb.trans hs.calls_eq⟩
  rw [hm]
  exact hs.reflects

theorem leads_keep (ps : List Profile) : ((Cache.memory l.memory).keep ps).Leads
    (l.Reached start stored calls) (l.Reached start (stored ++ ps) calls) () := by
  intro s hs
  obtain ⟨t, hrun, ht, hframe⟩ := Cache.keep_memory_run ps hs.reflects
  refine ⟨t, ⟨[], hrun⟩, ?_, ?_, ?_⟩
  · rw [Ready, hframe _ l.sources l.memory_sources]
    exact hs.ready
  · rw [← List.append_assoc]
    exact ht
  · rw [hframe _ l.book l.memory_book]
    exact hs.calls_eq

theorem leads_writeDown (ids : List PlayerId) : (l.book.modify (· ++ [ids])).Leads
    (l.Reached start stored calls) (l.Reached start stored (calls ++ [ids])) () := by
  intro s hs
  refine ⟨l.book.set s (l.book.get s ++ [ids]), ⟨[], rfl⟩, ?_, ?_, ?_⟩
  · rw [Ready, l.book_sources]
    exact hs.ready
  · rw [l.book_memory]
    exact hs.reflects
  · rw [l.book.get_set, hs.calls_eq, List.append_assoc]

theorem leads_keeping_one {id : PlayerId} {found : Option Profile}
    (h : (q.one id).Leads (l.Reached start stored calls) (l.Reached start stored calls') found) :
    ((q.keeping (.memory l.memory)).one id).Leads (l.Reached start stored calls)
      (l.Reached start (stored ++ found.toList) calls') found :=
  h.bind ((leads_keep found.toList).bind (Lookup.leads_pure found))

theorem leads_keeping_all {ids : List PlayerId} {found : List Profile}
    (h : (q.all ids).Leads (l.Reached start stored calls) (l.Reached start stored calls') found) :
    ((q.keeping (.memory l.memory)).all ids).Leads (l.Reached start stored calls)
      (l.Reached start (stored ++ found) calls') found :=
  h.bind ((leads_keep found).bind (Lookup.leads_pure found))

theorem Fixed.leads_one (h : l.Fixed answer q) (id : PlayerId) :
    (q.one id).Leads (l.Reached start stored calls) (l.Reached start stored calls) (answer id) :=
  leads_reached (h.one id) (h.spares_memory.one id) (h.spares_book.one id)

theorem Fixed.leads_all (h : l.Fixed answer q) (ids : List PlayerId) :
    ∃ ps, AnswersTo Profile.id answer ids ps ∧ ∀ start stored calls,
      (q.all ids).Leads (l.Reached start stored calls) (l.Reached start stored calls) ps := by
  obtain ⟨ps, hps, hall⟩ := h.all ids
  exact ⟨ps, hps, fun _ _ _ =>
    leads_reached hall (h.spares_memory.all ids) (h.spares_book.all ids)⟩

variable {live looked : PlayerId → Option Profile} {preferred : Option (Queries σ PlayerId)}
  {resolver : Queries σ PlayerId}

theorem FixedIfAny.id_eq (h : l.FixedIfAny live preferred) (id : PlayerId) (p : Profile)
    (hp : live id = some p) : p.id = id := by
  cases preferred with
  | none =>
    rw [h id] at hp
    cases hp
  | some q => exact Fixed.id_eq h id p hp

theorem FixedIfAny.leads_liveOne (h : l.FixedIfAny live preferred) (id : PlayerId) :
    (Queries.liveOne (.memory l.memory) preferred id).Leads (l.Reached start stored calls)
      (l.Reached start (stored ++ (live id).toList) calls) (live id) := by
  cases preferred with
  | none =>
    rw [h id, Option.toList_none, List.append_nil]
    exact Lookup.leads_pure none
  | some q => exact leads_keeping_one (Fixed.leads_one h id)

theorem FixedIfAny.leads_liveAll (h : l.FixedIfAny live preferred) (ids : List PlayerId) :
    ∃ ps, AnswersTo Profile.id live ids ps ∧ ∀ start stored calls,
      (Queries.liveAll (.memory l.memory) preferred ids).Leads (l.Reached start stored calls)
        (l.Reached start (stored ++ ps) calls) ps := by
  cases preferred with
  | none =>
    refine ⟨[], fun p => ?_, fun start stored calls => ?_⟩
    · simp [h p.id]
    · rw [List.append_nil]
      exact Lookup.leads_pure []
  | some q =>
    cases ids with
    | nil =>
      refine ⟨[], fun p => by simp, fun start stored calls => ?_⟩
      rw [List.append_nil]
      exact Lookup.leads_pure []
    | cons id rest =>
      obtain ⟨ps, hps, hall⟩ := Fixed.leads_all h (id :: rest)
      exact ⟨ps, hps, fun start stored calls => leads_keeping_all (hall start stored calls)⟩

theorem Fixed.leads_booked_one (h : l.Fixed looked resolver) (id : PlayerId) :
    (((resolver.booked l.book).keeping (.memory l.memory)).one id).Leads
      (l.Reached start stored calls)
      (l.Reached start (stored ++ (looked id).toList) (calls ++ [[id]])) (looked id) :=
  leads_keeping_one ((leads_writeDown [id]).bind (h.leads_one id))

theorem Fixed.leads_booked_all (h : l.Fixed looked resolver) (ids : List PlayerId) :
    ∃ ps, AnswersTo Profile.id looked ids ps ∧ ∀ start stored calls,
      (Queries.askIfAny ((resolver.booked l.book).keeping (.memory l.memory)).all ids).Leads
        (l.Reached start stored calls)
        (l.Reached start (stored ++ ps) (calls ++ Queries.callFor ids)) ps := by
  cases ids with
  | nil =>
    refine ⟨[], fun p => by simp, fun start stored calls => ?_⟩
    rw [List.append_nil, Queries.callFor, if_pos List.isEmpty_nil, List.append_nil]
    exact Lookup.leads_pure []
  | cons id rest =>
    obtain ⟨ps, hps, hall⟩ := h.leads_all (id :: rest)
    exact ⟨ps, hps, fun start stored calls =>
      leads_keeping_all ((leads_writeDown (id :: rest)).bind (hall start stored _))⟩

/-! ## All stages -/

/-- What the three stages answer from a state on. -/
def stages (l : StateParts σ τ) (live looked : PlayerId → Option Profile) (start : σ) : Stages :=
  ⟨live, l.memory.get start, looked⟩

section

variable {ids : List PlayerId} (hm : (l.memory.get start).Coherent)
  (hnames : (l.stages live looked start).OneHolderEach ids)
  (hnews : (l.stages live looked start).IsNews ids stored)

include hm hnames hnews

theorem leads_memory_one {id : PlayerId} (hid : ∀ p ∈ stored, p.id ≠ id) :
    ((Cache.memory l.memory).idQueries.one id).Leads (l.Reached start stored calls)
      (l.Reached start stored calls) ((l.memory.get start).profile? id) := by
  intro s hs
  refine ⟨s, ⟨[], ?_⟩, hs⟩
  change Run.mk [] s (.ok (((l.memory.get s).profiles [id]).find? _)) = _
  rw [Memory.find?_profiles]
  exact congrArg (fun found => Run.mk [] s (.ok found))
    (hnames.profile?_eq hm hnews hs.reflects hid)

theorem leads_memory_all {keys : List PlayerId} (hkeys : keys.Nodup)
    (hid : ∀ id ∈ keys, ∀ p ∈ stored, p.id ≠ id) :
    (Queries.askIfAny (Cache.memory l.memory).idQueries.all keys).Leads
      (l.Reached start stored calls) (l.Reached start stored calls)
      (keys.filterMap (l.memory.get start).profile?) := by
  cases keys with
  | nil => exact Lookup.leads_pure []
  | cons id rest =>
    intro s hs
    refine ⟨s, ⟨[], ?_⟩, hs⟩
    change Run.mk [] s (.ok ((l.memory.get s).profiles (Batch.unique (id :: rest)))) = _
    rw [Batch.unique_of_nodup hkeys, Memory.profiles, Batch.unique_of_nodup hkeys]
    refine congrArg (fun found => Run.mk [] s (.ok found)) (List.filterMap_congr fun i hi => ?_)
    exact hnames.profile?_eq hm hnews hs.reflects (hid i hi)

end

section

variable (hpreferred : l.FixedIfAny live preferred) (hresolver : l.Fixed looked resolver)

include hpreferred hresolver

theorem id_of_answer {id : PlayerId} {p : Profile}
    (h : (l.stages live looked start).answer id = some p) : p.id = id :=
  Stages.id_of_answer hpreferred.id_eq hresolver.id_eq h

theorem id_of_news {id : PlayerId} {p : Profile}
    (h : (l.stages live looked start).news id = some p) : p.id = id :=
  Stages.id_of_news hpreferred.id_eq hresolver.id_eq h

variable {ids : List PlayerId} (hm : (l.memory.get start).Coherent)
  (hnames : (l.stages live looked start).OneHolderEach ids)

include hm hnames

theorem leads_preferOne {done : List PlayerId} (hdone : ∀ i ∈ done, i ∈ ids) {id : PlayerId}
    (hid : id ∉ done) :
    (Queries.preferOne (.memory l.memory) preferred (Cache.memory l.memory).idQueries
      (resolver.booked l.book) id).Leads
      (l.Reached start (done.filterMap (l.stages live looked start).news)
        ((l.stages live looked start).singleCalls done))
      (l.Reached start ((done ++ [id]).filterMap (l.stages live looked start).news)
        ((l.stages live looked start).singleCalls (done ++ [id])))
      ((l.stages live looked start).answer id) := by
  set st := l.stages live looked start
  have hnews : st.IsNews ids (done.filterMap st.news) := by
    intro p hp
    obtain ⟨i, hi, hpi⟩ := List.mem_filterMap.mp hp
    rw [id_of_news hpreferred hresolver hpi]
    exact ⟨hdone i hi, hpi⟩
  have hfresh : ∀ p ∈ done.filterMap st.news, p.id ≠ id := by
    rintro p hp rfl
    obtain ⟨i, hi, hpi⟩ := List.mem_filterMap.mp hp
    rw [id_of_news hpreferred hresolver hpi] at hid
    exact hid hi
  rw [Stages.news_concat, Stages.singleCalls_concat]
  have hlive : (Queries.liveOne (.memory l.memory) preferred id).Leads
      (l.Reached start (done.filterMap st.news) (st.singleCalls done)) _ (live id) :=
    hpreferred.leads_liveOne id
  have hmemory : ((Cache.memory l.memory).idQueries.one id).Leads
      (l.Reached start (done.filterMap st.news) (st.singleCalls done)) _ _ :=
    leads_memory_one hm hnames hnews hfresh
  unfold Queries.preferOne
  cases hlive? : live id with
  | some p =>
    obtain ⟨hanswer, hstored, hopen⟩ := st.of_live hlive?
    rw [hanswer, hstored, hopen, if_neg Bool.false_ne_true, List.append_nil]
    rw [hlive?] at hlive
    exact hlive.bind (Lookup.leads_pure (some p))
  | none =>
    rw [hlive?, Option.toList_none, List.append_nil] at hlive
    cases hheld? : (l.memory.get start).profile? id with
    | some p =>
      obtain ⟨hanswer, hstored, hopen⟩ := st.of_held hlive? hheld?
      rw [hanswer, hstored, hopen, if_neg Bool.false_ne_true, Option.toList_none,
        List.append_nil, List.append_nil]
      rw [hheld?] at hmemory
      exact hlive.bind (hmemory.bind (Lookup.leads_pure (some p)))
    | none =>
      obtain ⟨hanswer, hstored, hopen⟩ := st.of_open hlive? hheld?
      rw [hanswer, hstored, hopen, if_pos rfl]
      rw [hheld?] at hmemory
      exact hlive.bind (hmemory.bind (hresolver.leads_booked_one id))

theorem leads_preferAll :
    ∃ ps stored, AnswersTo Profile.id (l.stages live looked start).answer ids.eraseDups ps ∧
      AnswersTo Profile.id (l.stages live looked start).news ids.eraseDups stored ∧
      (Queries.preferAll Profile.id (.memory l.memory) preferred (Cache.memory l.memory).idQueries
        (resolver.booked l.book) ids).Leads (l.Reached start [] [])
        (l.Reached start stored
          (Queries.callFor (ids.eraseDups.filter (l.stages live looked start).leavesOpen)))
        (Profile.distinct ps) := by
  set st := l.stages live looked start
  obtain ⟨online, honline, hlive⟩ := hpreferred.leads_liveAll ids.eraseDups
  have hleft := honline.unanswered_eq hpreferred.id_eq
  generalize hopened : (ids.eraseDups.filter fun id => (live id).isNone) = opened at hleft
  have hnodup : opened.Nodup := by
    rw [← hopened, ← Batch.unique_eq_eraseDups]
    exact (Batch.nodup_unique ids).filter _
  -- What the preferred source answered is no news of the ids that it left open.
  have hfresh : ∀ id ∈ opened, ∀ p ∈ online, p.id ≠ id := by
    rintro id hid p hp rfl
    rw [← hopened, List.mem_filter, Option.isNone_iff_eq_none, ((honline p).mp hp).2] at hid
    cases hid.2
  have hmemory : (Queries.askIfAny (Cache.memory l.memory).idQueries.all opened).Leads
      (l.Reached start online []) _ _ :=
    leads_memory_all hm hnames (Stages.isNews_of_live honline) hnodup hfresh
  have hheldKey := fun id p hp =>
    ((Memory.profile?_eq_some_iff (l.memory.get start) id p).mp hp).1
  have hheld : AnswersTo Profile.id _ opened _ := answersTo_filterMap hheldKey opened
  have hleft' := hheld.unanswered_eq hheldKey
  generalize opened.filterMap (l.memory.get start).profile? = held at hmemory hheld hleft'
  obtain ⟨found, hfound, hlooked⟩ := hresolver.leads_booked_all
    (opened.filter fun id => ((l.memory.get start).profile? id).isNone)
  have hasked : (opened.filter fun id => ((l.memory.get start).profile? id).isNone) =
      ids.eraseDups.filter st.leavesOpen := by
    rw [← hopened, List.filter_filter]
    exact List.filter_congr fun id _ => Bool.and_comm _ _
  refine ⟨online ++ (held ++ found), online ++ found, honline.append ?_, honline.append ?_, ?_⟩
  · rw [hopened]
    exact hheld.append hfound
  · rw [hopened]
    exact hfound.of_filter
  · unfold Queries.preferAll
    rw [Batch.unique_eq_eraseDups, ← hasked, ← List.append_assoc]
    refine (hlive start [] []).bind ?_
    rw [hleft]
    refine hmemory.bind ?_
    rw [hleft']
    exact (hlooked start online []).bind (Lookup.leads_log.bind (Lookup.leads_pure _))

theorem leads_singles : (Lookup.forEach ids.eraseDups (Queries.preferOne (.memory l.memory)
      preferred (Cache.memory l.memory).idQueries (resolver.booked l.book))).Leads
    (l.Reached start [] [])
    (l.Reached start (ids.eraseDups.filterMap (l.stages live looked start).news)
      ((l.stages live looked start).singleCalls ids.eraseDups))
    (ids.eraseDups.map (l.stages live looked start).answer) := by
  refine Lookup.leads_forEach (fun done => l.Reached start
    (done.filterMap (l.stages live looked start).news)
    ((l.stages live looked start).singleCalls done)) fun done id rest hids => ?_
  have hnodup : (done ++ id :: rest).Nodup := by
    rw [← hids, ← Batch.unique_eq_eraseDups]
    exact Batch.nodup_unique ids
  refine leads_preferOne hpreferred hresolver hm hnames (fun i hi => ?_) ?_
  · rw [← List.mem_eraseDups, hids]
    exact List.mem_append_left _ hi
  · exact fun hmem => (List.nodup_append.mp hnodup).2.2 id hmem id List.mem_cons_self rfl

end

/-- The source that prefers live answers and those of the memory, with a book of what it asks its
resolver for. -/
def preferring (l : StateParts σ τ) (preferred : Option (Source σ)) (resolver : Source σ) :
    Source σ :=
  .preferring (.memory l.memory) preferred { resolver with byId := resolver.byId.booked l.book }

/-- A batch that led from a state to another one, and calls for its ids one by one that led to a
third one, came to the same: they have the same profiles, they asked the resolver for the same ids,
the batch in one call at most, and they left the same in the memory. -/
structure CameToSame (l : StateParts σ τ) (s t u : σ) (asked : List PlayerId) (ps : List Profile)
    (singles : List (Option Profile)) : Prop where
  profiles : ps.Perm singles.reduceOption
  one_call : l.book.get t = l.book.get s ++ Queries.callFor asked
  single_calls : l.book.get u = l.book.get s ++ asked.map fun id => [id]
  names : ∀ id, (l.memory.get t).names.get? id = (l.memory.get u).names.get? id
  ids : ∀ n, (l.memory.get t).ids.get? n = (l.memory.get u).ids.get? n

end StateParts

/-- **A batch agrees with single calls.** If the preferred source and the resolver answer each id in
a fixed way, and of the profiles in the memory and among their answers no two have one name and
different ids, then a batch by id goes as well as asking for its ids one by one does. Each id gets
the first answer that there is, both ask the resolver for the ids that the others have no answer to,
and what they leave in the memory is the same. -/
theorem preferring_batch_agrees_with_singles (l : StateParts σ τ)
    {live looked : PlayerId → Option Profile} {preferred : Option (Source σ)} {resolver : Source σ}
    (hpreferred : l.FixedIfAny live (preferred.map Source.byId))
    (hresolver : l.Fixed looked resolver.byId) {s : σ} (hs : l.Ready s)
    (hm : (l.memory.get s).Coherent) (ids : List PlayerId)
    (hnames : (l.stages live looked s).OneHolderEach ids) :
    ∃ t u ps, ((l.preferring preferred resolver).byId.all ids).Yields s t ps ∧
      (Lookup.forEach ids.eraseDups (l.preferring preferred resolver).byId.one).Yields s u
        (ids.eraseDups.map (l.stages live looked s).answer) ∧
      l.CameToSame s t u (ids.eraseDups.filter (l.stages live looked s).leavesOpen) ps
        (ids.eraseDups.map (l.stages live looked s).answer) := by
  have hstart := StateParts.reached_start hs hm
  obtain ⟨found, stored, hfound, hstored, hbatch⟩ :=
    StateParts.leads_preferAll hpreferred hresolver hm hnames
  obtain ⟨t, hall, ht⟩ := hbatch s hstart
  obtain ⟨u, hsingles, hu⟩ := StateParts.leads_singles hpreferred hresolver hm hnames s hstart
  have hsingle : AnswersTo Profile.id (l.stages live looked s).news ids.eraseDups _ :=
    answersTo_filterMap (fun _ _ => StateParts.id_of_news hpreferred hresolver) ids.eraseDups
  have hsame := hm.reflects_all.sameAs ht.reflects hu.reflects
    (hnames.compatible (Stages.isNews_of_answersTo hstored))
    fun p => (hsingle p).trans (hstored p).symm
  refine ⟨t, u, _, hall, hsingles, ?_, ht.calls_eq, hu.calls_eq, fun id => ?_, fun n => ?_⟩
  · have honce : FoundFor Profile.id (l.stages live looked s).answer ids _ :=
      foundFor_filterMap (fun _ _ => StateParts.id_of_answer hpreferred hresolver) ids
    rw [Batch.unique_eq_eraseDups] at honce
    change List.Perm _ (List.filterMap id _)
    rw [List.filterMap_map]
    exact (hfound.foundFor.congr fun _ => List.mem_eraseDups).perm honce
  · exact (hsame.names_get? id).symm
  · exact (hsame.ids_get? ht.reflects.coherent n).symm

/-! ## One id for each stage -/

namespace Staged

def ash : Profile := ⟨⟨1⟩, .ash⟩

def birch : Profile := ⟨⟨2⟩, .birch⟩

def cedar : Profile := ⟨⟨3⟩, .cedar⟩

def pinned : LocalMap := LocalMap.empty.putAll [birch]

def parts : StateParts (LocalMap × Memory × List (List PlayerId)) LocalMap where
  sources := .first
  inOrder m := m = pinned
  memory := Cell.second.within .first
  book := Cell.second.within .second
  memory_sources _ _ := rfl
  memory_book _ _ := rfl
  book_sources _ _ := rfl
  book_memory _ _ := rfl

def nameOf (id : PlayerId) : Option String := if id = ash.id then some "Ash" else none

def host : Source (LocalMap × Memory × List (List PlayerId)) :=
  .host (.fixed (fun _ => none) nameOf)

def state : LocalMap × Memory × List (List PlayerId) := (pinned, .single cedar, [])

def resolver : Source (LocalMap × Memory × List (List PlayerId)) := .localMap parts.sources

theorem fixed_host :
    parts.FixedIfAny (Registry.named nameOf) ((some host).map Source.byId) := by
  have hanswers : host.byId.Answers parts.Ready (fun _ => True) Profile.id
      (Registry.named nameOf) := by
    refine Source.answers_host (fun id => Lookup.gives_pure (nameOf id)) fun id => ?_
    unfold nameOf
    split <;> decide
  have hspares {β : Type} (d : Cell (LocalMap × Memory × List (List PlayerId)) β) :
      host.byId.Spares d :=
    Queries.spares_ofOne (Registry.leavesAlone_findId fun _ => Lookup.leavesAlone_pure _)
  exact StateParts.Fixed.of_answers hanswers (hspares _) (hspares _)

theorem fixed_resolver : parts.Fixed pinned.byId? resolver.byId := by
  have hanswers : resolver.byId.Answers parts.Ready (fun _ => True) Profile.id pinned.byId? :=
    Source.answers_localMap fun _ hs => hs
  have hspares {β : Type} (d : Cell (LocalMap × Memory × List (List PlayerId)) β) :
      resolver.byId.Spares d :=
    Queries.spares_ofOne fun _ => (Lookup.leavesAlone_read parts.sources).bind fun _ =>
      Lookup.leavesAlone_pure _
  exact .of_answers hanswers (hspares _) (hspares _)

def ids : List PlayerId := [⟨1⟩, ⟨2⟩, ⟨3⟩, ⟨4⟩, ⟨1⟩]

def stages : Stages := parts.stages (Registry.named nameOf) pinned.byId? state

theorem oneHolderEach : stages.OneHolderEach ids := by
  have hanswers : ∀ id ∈ ids, (Registry.named nameOf id).toList ++ (pinned.byId? id).toList ⊆
      [ash, birch, cedar] := by decide
  have hhas : ∀ p, stages.Has ids p → p ∈ [ash, birch, cedar] := by
    rintro p (hheld | ⟨id, hid, hp⟩)
    · have hall : p ∈ [cedar] := (Memory.mem_all (Memory.coherent_single cedar) p).mpr hheld
      exact List.mem_cons_of_mem _ (List.mem_cons_of_mem _ hall)
    · refine hanswers id hid (List.mem_append.mpr ?_)
      exact hp.imp Option.mem_toList.mpr Option.mem_toList.mpr
  have hapart : ∀ p ∈ [ash, birch, cedar], ∀ q ∈ [ash, birch, cedar],
      p.name = q.name → p.id = q.id := by decide
  exact fun p q hp hq => hapart p (hhas p hp) q (hhas q hq)

end Staged

/-- The host answers for one id, the memory for another, and the resolver for a third. -/
theorem preferring_batch_agrees_with_singles_ash :
    Staged.parts.FixedIfAny (Registry.named Staged.nameOf) ((some Staged.host).map Source.byId) ∧
      Staged.parts.Fixed Staged.pinned.byId? Staged.resolver.byId ∧
      Staged.parts.Ready Staged.state ∧ (Staged.parts.memory.get Staged.state).Coherent ∧
      Staged.stages.OneHolderEach Staged.ids ∧
      ∃ t u ps,
        ((Staged.parts.preferring (some Staged.host) Staged.resolver).byId.all Staged.ids).Yields
          Staged.state t ps ∧
        (Lookup.forEach Staged.ids.eraseDups
          (Staged.parts.preferring (some Staged.host) Staged.resolver).byId.one).Yields
          Staged.state u [some Staged.ash, some Staged.birch, some Staged.cedar, none] ∧
        Staged.parts.CameToSame Staged.state t u [⟨2⟩, ⟨4⟩] ps
          [some Staged.ash, some Staged.birch, some Staged.cedar, none] := by
  have hready : Staged.parts.Ready Staged.state := rfl
  have hsame := preferring_batch_agrees_with_singles Staged.parts Staged.fixed_host
    Staged.fixed_resolver hready (Memory.coherent_single Staged.cedar) Staged.ids
    Staged.oneHolderEach
  have hanswers : Staged.ids.eraseDups.map Staged.stages.answer =
      [some Staged.ash, some Staged.birch, some Staged.cedar, none] := by decide +kernel
  have hopen : Staged.ids.eraseDups.filter Staged.stages.leavesOpen = [⟨2⟩, ⟨4⟩] := by
    decide +kernel
  rw [Staged.stages] at hanswers hopen
  rw [hanswers, hopen] at hsame
  exact ⟨Staged.fixed_host, Staged.fixed_resolver, hready, Memory.coherent_single Staged.cedar,
    Staged.oneHolderEach, hsame⟩

end PlayerLookup
