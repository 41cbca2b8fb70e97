import PlayerLookup.Proofs.Combined.Nesting
import PlayerLookup.Proofs.Combined.Trees
import PlayerLookup.Proofs.Foundations.Handovers
import PlayerLookup.Source.Preferring

/-! Visitors that stop. In a tree of sources that hand over one profile at a time, the answer
`false` is the last thing that happens, however many sources stand between, and all other answers
come to the same. -/

set_option autoImplicit false

namespace PlayerLookup

variable {σ K κ α β : Type}

namespace Delivery

/-! ## Deliveries that heed their visitor -/

/-- After the answer `false` the delivery is at its end, with a value of which `ended` holds, and it
goes on after every other answer as after none. -/
inductive Heeds (ended : α → Prop) : Delivery σ α → Prop where
  | done (result : Except Failure α) : Heeds ended (.done result)
  | read {next : σ → Delivery σ α} (h : ∀ s, Heeds ended (next s)) : Heeds ended (.read next)
  | write {events : List Event} {t : σ} {next : Delivery σ α} (h : Heeds ended next) :
      Heeds ended (.write events t next)
  | give {p : Profile} {next : Except Failure Document → Delivery σ α}
      (last : ∃ a, ended a ∧ next (.ok (.bool false)) = .done (.ok a))
      (alike : ∀ answer, answer ≠ .bool false → next (.ok answer) = next (.ok .null))
      (h : ∀ answer, Heeds ended (next answer)) : Heeds ended (.give p next)

variable {ended : α → Prop}

theorem heeds_pure (a : α) : (pure a : Delivery σ α).Heeds ended := .done _

theorem heeds_ofLookup (m : Lookup σ α) : (ofLookup m).Heeds ended :=
  .read fun _ => .write (.done _)

/-- What follows is at its end at once if what comes before it was ended by the visitor. -/
theorem Heeds.bind {ended' : β → Prop} {d : Delivery σ α} {f : α → Delivery σ β}
    (hd : d.Heeds ended) (hended : ∀ a, ended a → ∃ b, ended' b ∧ f a = .done (.ok b))
    (hf : ∀ a, (f a).Heeds ended') : (d >>= f).Heeds ended' := by
  induction hd with
  | done result =>
    cases result with
    | ok a => exact hf a
    | error e => exact .done _
  | read _ ih => exact .read ih
  | write _ ih => exact .write ih
  | give last alike _ ih =>
    rw [give_bind]
    refine .give ?_ (fun answer hne => by rw [alike answer hne]) ih
    obtain ⟨a, ha, hend⟩ := last
    obtain ⟨b, hb, hfb⟩ := hended a ha
    refine ⟨b, hb, ?_⟩
    rw [hend]
    exact hfb

theorem heeds_ofLookup_bind (m : Lookup σ α) {f : α → Delivery σ β} {ended : β → Prop}
    (hf : ∀ a, (f a).Heeds ended) : (ofLookup m >>= f).Heeds ended := by
  have hm : (ofLookup m).Heeds fun _ => False := heeds_ofLookup m
  exact hm.bind (fun _ h => h.elim) hf

theorem heeds_ask {p : Profile} {a : α} {rest : Delivery σ α} (ha : ended a)
    (h : rest.Heeds ended) :
    (do if (← ask p).stops then return a else rest : Delivery σ α).Heeds ended := by
  refine .give ⟨a, ha, rfl⟩ (fun answer hne => ?_) fun answer => ?_
  · change (if answer.stops then _ else _) = _
    rw [Document.stops_eq_false hne]
    rfl
  · cases answer with
    | error f => exact .done _
    | ok d =>
      change Heeds ended (if d.stops then pure a else rest)
      split
      · exact heeds_pure a
      · exact h

theorem heeds_giveAll (ps : List Profile) :
    (giveAll ps : Delivery σ Bool).Heeds (· = true) := by
  induction ps with
  | nil => exact heeds_pure false
  | cons p rest ih => exact heeds_ask rfl ih

theorem Heeds.keeping {d : Delivery σ α} (h : d.Heeds ended) (c : Cache σ) :
    (d.keeping c).Heeds ended := by
  induction h with
  | done result => exact .done result
  | read _ ih => exact .read ih
  | write _ ih => exact .write ih
  | @give p next last alike _ ih =>
    rw [Delivery.keeping]
    refine .read fun s => .write ?_
    cases (c.keep [p] s).result with
    | error f => exact ih (.error f)
    | ok _ =>
      refine .give ?_ (fun answer hne => by rw [alike answer hne]) ih
      obtain ⟨a, ha, hend⟩ := last
      exact ⟨a, ha, by rw [hend]; rfl⟩

/-- Passed on through a progress, a stop is remembered; a repeated profile is answered for the
visitor, and not with `false`. -/
theorem Heeds.forward [DecidableEq κ] {normal : K → κ} {keyOf : Profile → K} {d : Delivery σ α}
    (h : d.Heeds ended) (pr : Progress K κ) :
    (pr.forward normal keyOf d).Heeds fun r => r.2.stopRequested = true := by
  induction h generalizing pr with
  | done result => cases result <;> exact .done _
  | read _ ih => exact .read fun s => ih s pr
  | write _ ih => exact .write (ih pr)
  | @give p next last alike _ ih =>
    by_cases hp : normal (keyOf p) ∈ pr.reported
    · rw [Progress.forward_give_reported hp]
      exact ih _ pr
    · rw [Progress.forward_give_fresh hp]
      refine .give ?_ (fun answer hne => ?_) fun answer => ih answer _
      · obtain ⟨a, -, hend⟩ := last
        exact ⟨(a, (pr.marked (normal (keyOf p))).requestStop), rfl, by rw [hend]; rfl⟩
      · rw [alike answer hne, Progress.answered, Document.stops_eq_false hne]
        rfl

/-! ## Runs of deliveries that heed their visitor -/

theorem Heeds.nothing_after {d : Delivery σ α} (hd : d.Heeds ended)
    (visitor : Profile → Lookup σ Document) {h : Handover σ}
    (hstop : h.outcome.result = .ok (.bool false)) {s : σ} {before after : List (Step σ)}
    (hsteps : d.steps visitor s = before ++ .handed h :: after) :
    after = [] ∧ ∃ earlier a, (d.run visitor).run s =
      ⟨earlier ++ h.outcome.events, h.outcome.state, .ok a⟩ := by
  -- The visit with the answer `false` is the first step, or one of those that come after it.
  induction hd generalizing s before with
  | done result => simp [steps] at hsteps
  | read _ ih =>
    obtain ⟨-, hcons⟩ | ⟨before, -, hrest⟩ := List.cons_eq_append_iff.mp hsteps
    · cases hcons
    · exact ih s hrest
  | @write events t next _ ih =>
    obtain ⟨-, hcons⟩ | ⟨before, -, hrest⟩ := List.cons_eq_append_iff.mp hsteps
    · cases hcons
    · obtain ⟨hafter, earlier, a, hrun⟩ := ih hrest
      refine ⟨hafter, events ++ earlier, a, ?_⟩
      rw [run_write_run, hrun, List.append_assoc]
  | @give p next last _ _ ih =>
    rcases hvisit : (visitor p).run s with ⟨events, t, answer⟩
    rw [run_give_of_visit visitor hvisit]
    rw [steps, hvisit] at hsteps
    obtain ⟨-, hcons⟩ | ⟨before, -, hrest⟩ := List.cons_eq_append_iff.mp hsteps
    · obtain ⟨hhanded, hafter⟩ := List.cons.inj hcons
      obtain rfl := Step.handed.inj hhanded
      obtain rfl : answer = .ok (.bool false) := hstop
      obtain ⟨a, -, hend⟩ := last
      dsimp only at hafter
      rw [hend] at hafter ⊢
      refine ⟨hafter, [], a, ?_⟩
      rw [List.nil_append]
      exact congrArg (Run.mk · t _) (List.append_nil _)
    · obtain ⟨hafter, earlier, a, hrun⟩ := ih _ hrest
      exact ⟨hafter, events ++ earlier, a, by rw [hrun, List.append_assoc]⟩

/-- A step as it is seen by those who do not hear the answers. -/
def Step.unheard : Step σ → Step σ
  | .handed h => .handed { h with outcome := { h.outcome with result := .ok .null } }
  | step => step

end Delivery

/-- Visits that went the same way, with the same failure or answers of which both are `false` or
neither is. -/
structure Run.StopsLike (r r' : Run σ Document) : Prop where
  events_eq : r.events = r'.events
  state_eq : r.state = r'.state
  result : r.result = r'.result ∨
    ∃ a b, r.result = .ok a ∧ r'.result = .ok b ∧ a ≠ .bool false ∧ b ≠ .bool false

namespace Delivery

variable {ended : α → Prop}

theorem Heeds.alike {d : Delivery σ α} (hd : d.Heeds ended)
    {visitor visitor' : Profile → Lookup σ Document}
    (hv : ∀ p s, ((visitor p).run s).StopsLike ((visitor' p).run s)) (s : σ) :
    (d.run visitor).run s = (d.run visitor').run s ∧
      (d.steps visitor s).map Step.unheard = (d.steps visitor' s).map Step.unheard := by
  induction hd generalizing s with
  | done result => exact ⟨rfl, rfl⟩
  | read _ ih =>
    obtain ⟨hrun, hsteps⟩ := ih s s
    exact ⟨hrun, congrArg (Step.looked s :: ·) hsteps⟩
  | @write events t next _ ih =>
    obtain ⟨hrun, hsteps⟩ := ih t
    refine ⟨?_, congrArg (Step.did events t :: ·) hsteps⟩
    rw [run_write_run, run_write_run, hrun]
  | @give p next _ halike _ ih =>
    obtain ⟨hevents, hstate, hresult⟩ := hv p s
    rcases hvisit : (visitor p).run s with ⟨events, t, answer⟩
    rcases hvisit' : (visitor' p).run s with ⟨events', t', answer'⟩
    rw [hvisit, hvisit'] at hevents hstate hresult
    dsimp only at hevents hstate hresult
    subst hevents hstate
    have hnext : next answer = next answer' := by
      rcases hresult with rfl | ⟨a, b, rfl, rfl, ha, hb⟩
      · rfl
      · rw [halike a ha, halike b hb]
    obtain ⟨hrun, hsteps⟩ := ih answer' t
    refine ⟨?_, ?_⟩
    · rw [run_give_of_visit visitor hvisit, run_give_of_visit visitor' hvisit', hnext, hrun]
    · rw [steps, steps, hvisit, hvisit', List.map_cons, List.map_cons, hnext, hsteps]
      rfl

end Delivery

/-! ## Sources that heed their visitors -/

namespace Queries

/-- Every delivery of the source heeds its visitor. -/
def Heeds (q : Queries σ K) : Prop := ∀ keys, (q.visit keys).Heeds fun _ => True

theorem heeds_visitEach (one : K → Lookup σ (Option Profile)) (keys : List K) :
    (visitEach one keys).Heeds fun _ => True := by
  induction keys with
  | nil => exact Delivery.heeds_pure ()
  | cons k rest ih =>
    refine Delivery.heeds_ofLookup_bind (one k) fun found => ?_
    cases found with
    | none => exact ih
    | some p => exact Delivery.heeds_ask trivial ih

theorem heeds_ofOne [DecidableEq K] (one : K → Lookup σ (Option Profile)) : (ofOne one).Heeds :=
  fun keys => heeds_visitEach one (Batch.unique keys)

theorem Heeds.keeping {q : Queries σ K} (h : q.Heeds) (c : Cache σ) : (q.keeping c).Heeds :=
  fun keys => (h keys).keeping c

theorem heeds_visitMembers [DecidableEq κ] {normal : K → κ} {keyOf : Profile → K}
    {members : List (Queries σ K)} (h : ∀ q ∈ members, q.Heeds) (pr : Progress K κ) :
    (visitMembers normal keyOf members pr).Heeds fun _ => True := by
  induction members generalizing pr with
  | nil => exact Delivery.heeds_pure ()
  | cons q rest ih =>
    have hrest := ih fun q' hq' => h q' (List.mem_cons_of_mem q hq')
    rw [visitMembers]
    split
    · exact Delivery.heeds_pure ()
    · refine ((h q List.mem_cons_self pr.missing).forward pr).bind (fun r hr => ?_)
        fun r => hrest r.2
      exact ⟨(), trivial, visitMembers_over (by rw [hr, Bool.or_true]) rest⟩

theorem heeds_combined [DecidableEq κ] {normal : K → κ} {keyOf : Profile → K}
    {members : List (String × Queries σ K)} (h : ∀ m ∈ members, m.2.Heeds) :
    (combined normal keyOf members).Heeds := by
  refine fun keys => heeds_visitMembers (fun q hq => ?_) _
  obtain ⟨m, hm, rfl⟩ := List.mem_map.mp hq
  exact h m hm

end Queries

theorem Cache.heeds_nameQueries (c : Cache σ) : c.nameQueries.Heeds := by
  unfold Cache.nameQueries
  cases c.getAllByName? with
  | none => exact fun _ => Delivery.heeds_pure ()
  | some getAll => exact Queries.heeds_ofOne (Cache.oneByName getAll)

theorem Remote.heeds_visitBodies (r : Remote σ) (bodies : List (List String)) :
    (r.visitBodies bodies).Heeds fun _ => True := by
  induction bodies with
  | nil => exact Delivery.heeds_pure ()
  | cons names rest ih =>
    refine Delivery.heeds_ofLookup_bind (r.queryNames names) fun found => ?_
    refine (Delivery.heeds_giveAll found).bind (fun stopped hstopped => ?_) fun stopped => ?_
    · exact ⟨(), trivial, by rw [hstopped]; rfl⟩
    · cases stopped with
      | true => exact Delivery.heeds_pure ()
      | false => exact ih

/-! ## Trees of sources -/

/-- A tree of sources without workers. The preferred source of one that has one may be any: it
gives nothing to visitors. -/
inductive Source.Serial : Source σ → Prop where
  | localMap (cell : Cell σ LocalMap) : Serial (.localMap cell)
  | cached (c : Cache σ) : Serial (.cached c)
  | host (r : Registry σ) : Serial (.host r)
  | remote (r : Remote σ) : Serial (.remote r)
  | combined (caseSensitive : Bool) (members : List (Source σ))
      (h : ∀ source ∈ members, Serial source) : Serial (.combined caseSensitive members)
  | forwarding (c : Cache σ) {source : Source σ} (h : Serial source) :
      Serial (.forwarding c source)
  | preferring (c : Cache σ) (preferred : Option (Source σ)) {resolver : Source σ}
      (h : Serial resolver) : Serial (.preferring c preferred resolver)

theorem Source.Serial.heeds {source : Source σ} (h : source.Serial) :
    source.byName.Heeds ∧ source.byId.Heeds := by
  induction h with
  | localMap cell => exact ⟨Queries.heeds_ofOne _, Queries.heeds_ofOne _⟩
  | cached c => exact ⟨c.heeds_nameQueries, Queries.heeds_ofOne _⟩
  | host r => exact ⟨Queries.heeds_ofOne _, Queries.heeds_ofOne _⟩
  | remote r => exact ⟨fun names => r.heeds_visitBodies _, Queries.heeds_ofOne _⟩
  | combined caseSensitive members _ ih =>
    refine ⟨Queries.heeds_combined fun m hm => ?_, Queries.heeds_combined fun m hm => ?_⟩
    · obtain ⟨source, hsource, rfl⟩ := List.mem_map.mp hm
      exact (ih source hsource).1
    · obtain ⟨source, hsource, rfl⟩ := List.mem_map.mp hm
      exact (ih source hsource).2
  | forwarding c _ ih => exact ⟨ih.1.keeping c, ih.2.keeping c⟩
  | preferring c preferred _ ih => exact ⟨ih.1.keeping c, ih.2.keeping c⟩

/-- The answer `false` ends the delivery there and then: nothing is done or looked at after it, the
state is the one that the visitor left. Of all other answers it does not matter which one is given.
-/
structure Delivery.EndsAtFalse (d : Delivery σ Unit) : Prop where
  last : ∀ visitor s before h after, d.steps visitor s = before ++ .handed h :: after →
    h.outcome.result = .ok (.bool false) → after = [] ∧
      ∃ earlier, (d.run visitor).run s = ⟨earlier ++ h.outcome.events, h.outcome.state, .ok ()⟩
  alike : ∀ visitor visitor', (∀ p s, ((visitor p).run s).StopsLike ((visitor' p).run s)) → ∀ s,
    (d.run visitor).run s = (d.run visitor').run s ∧
      (d.steps visitor s).map Step.unheard = (d.steps visitor' s).map Step.unheard

theorem Delivery.Heeds.endsAtFalse {d : Delivery σ Unit} (h : d.Heeds fun _ => True) :
    d.EndsAtFalse where
  last visitor s before handover after hsteps hstop := by
    obtain ⟨hafter, earlier, ⟨⟩, hrun⟩ := h.nothing_after visitor hstop hsteps
    exact ⟨hafter, earlier, hrun⟩
  alike visitor visitor' hv s := h.alike hv s

/-- **The answer `false` is the end of a delivery**, by names and by ids, in every tree of sources
without workers, and every other answer is as good as none. -/
theorem false_ends_deliveries {source : Source σ} (h : source.Serial) :
    (∀ names, (source.byName.visit names).EndsAtFalse) ∧
      ∀ ids, (source.byId.visit ids).EndsAtFalse :=
  ⟨fun names => (h.heeds.1 names).endsAtFalse, fun ids => (h.heeds.2 ids).endsAtFalse⟩

/-! ## A stop in the middle of a tree -/

namespace Halt

/-- A host before a source that prefers what is pinned, before the remote service. -/
def source : Source (Memory × LocalMap) :=
  .forwarding (.memory .first)
    (.combined false [.host (.fixed (fun _ => none) Grove.nameOf),
      .preferring (.memory .first) (some (.localMap .second))
        (.combined true [.localMap .second, .cached (.memory .first)]),
      .remote Grove.remote])

theorem serial : source.Serial := by
  refine .forwarding _ (.combined _ _ fun member hmember => ?_)
  simp only [List.mem_cons, List.not_mem_nil, or_false] at hmember
  rcases hmember with rfl | rfl | rfl
  · exact .host _
  · refine .preferring _ _ (.combined _ _ fun member hmember => ?_)
    simp only [List.mem_cons, List.not_mem_nil, or_false] at hmember
    rcases hmember with rfl | rfl
    · exact .localMap _
    · exact .cached _
  · exact .remote _

def visitor (p : Profile) : Lookup (Memory × LocalMap) Document :=
  return if p = Grove.cedar then .bool false else .int 0

end Halt

/-- The second profile is the last one: the cache and the remote service are not asked any more. -/
theorem false_ends_deliveries_halt :
    Halt.source.Serial ∧
      ((Halt.source.byId.visit [⟨1⟩, ⟨2⟩, ⟨3⟩, ⟨4⟩]).handovers Halt.visitor Grove.state).map
          (·.profile) = [Grove.ash, Grove.cedar] ∧
      (Halt.source.byId.visit [⟨1⟩, ⟨2⟩, ⟨3⟩, ⟨4⟩]).EndsAtFalse :=
  ⟨Halt.serial, by decide +kernel, (false_ends_deliveries Halt.serial).2 _⟩

end PlayerLookup
