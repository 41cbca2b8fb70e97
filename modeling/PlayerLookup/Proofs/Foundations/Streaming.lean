import PlayerLookup.Proofs.Foundations.Fixed
import PlayerLookup.Proofs.Foundations.Handovers
import PlayerLookup.Source

/-! Deliveries that hand a list over in order, up to the profile at which the visitor stops. -/

set_option autoImplicit false

namespace PlayerLookup

variable {σ τ ι ω K α : Type}

/-! ## Up to a stop -/

/-- What an item of a sequence means for those after it. -/
inductive Verdict where
  | goesOn
  | stops
  | fails
  deriving DecidableEq

/-- What a sequence comes to: the verdict on its first item that does not let it go on. -/
def Verdict.first (verdict : ι → Verdict) : List ι → Verdict
  | [] => .goesOn
  | a :: rest =>
    match verdict a with
    | .goesOn => first verdict rest
    | v => v

/-- Item by item the first list is the second one, up to the first item at which it stops, and that
one is its last. After an item that fails nothing is said of either. -/
inductive UpToStop (verdict : ι → Verdict) (f : ι → ω) : List ι → List ω → Prop where
  | nil : UpToStop verdict f [] []
  | goesOn {a : ι} {as : List ι} {bs : List ω} (h : verdict a = .goesOn)
      (rest : UpToStop verdict f as bs) : UpToStop verdict f (a :: as) (f a :: bs)
  | stopped {a : ι} (bs : List ω) (h : verdict a = .stops) : UpToStop verdict f [a] (f a :: bs)
  | failed {a : ι} (as : List ι) (bs : List ω) (h : verdict a = .fails) :
      UpToStop verdict f (a :: as) (f a :: bs)

namespace UpToStop

variable {verdict : ι → Verdict} {f : ι → ω} {as as' : List ι} {bs bs' : List ω}

theorem append (h : UpToStop verdict f as bs) (hfirst : Verdict.first verdict as = .goesOn)
    (h' : UpToStop verdict f as' bs') : UpToStop verdict f (as ++ as') (bs ++ bs') := by
  induction h with
  | nil => exact h'
  | goesOn hgoes _ ih =>
    rw [Verdict.first, hgoes] at hfirst
    exact .goesOn hgoes (ih hfirst)
  | stopped bs hstops =>
    rw [Verdict.first, hstops] at hfirst
    cases hfirst
  | failed as bs hfails =>
    rw [Verdict.first, hfails] at hfirst
    cases hfirst

theorem append_right (h : UpToStop verdict f as bs) (hfirst : Verdict.first verdict as = .stops)
    (bs' : List ω) : UpToStop verdict f as (bs ++ bs') := by
  induction h with
  | nil => cases hfirst
  | goesOn hgoes _ ih =>
    rw [Verdict.first, hgoes] at hfirst
    exact .goesOn hgoes (ih hfirst)
  | stopped bs hstops => exact .stopped (bs ++ bs') hstops
  | failed as bs hfails =>
    rw [Verdict.first, hfails] at hfirst
    cases hfirst

theorem append_failed (h : UpToStop verdict f as bs) (hfirst : Verdict.first verdict as = .fails)
    (as' : List ι) (bs' : List ω) : UpToStop verdict f (as ++ as') (bs ++ bs') := by
  induction h with
  | nil => cases hfirst
  | goesOn hgoes _ ih =>
    rw [Verdict.first, hgoes] at hfirst
    exact .goesOn hgoes (ih hfirst)
  | stopped bs hstops =>
    rw [Verdict.first, hstops] at hfirst
    cases hfirst
  | failed as bs hfails => exact .failed (as ++ as') (bs ++ bs') hfails

theorem to_the_end (h : UpToStop verdict f as bs) (hfirst : Verdict.first verdict as = .goesOn) :
    (∀ a ∈ as, verdict a = .goesOn) ∧ as.map f = bs := by
  induction h with
  | nil => exact ⟨fun a ha => absurd ha List.not_mem_nil, rfl⟩
  | @goesOn a as bs hgoes _ ih =>
    rw [Verdict.first, hgoes] at hfirst
    obtain ⟨hall, hmap⟩ := ih hfirst
    refine ⟨fun b hb => ?_, ?_⟩
    · rcases List.mem_cons.mp hb with rfl | hb
      · exact hgoes
      · exact hall b hb
    · rw [List.map_cons, hmap]
  | stopped bs hstops =>
    rw [Verdict.first, hstops] at hfirst
    cases hfirst
  | failed as bs hfails =>
    rw [Verdict.first, hfails] at hfirst
    cases hfirst

theorem to_a_stop (h : UpToStop verdict f as bs) (hfirst : Verdict.first verdict as = .stops) :
    ∃ before a rest, as = before ++ [a] ∧ (∀ b ∈ before, verdict b = .goesOn) ∧
      verdict a = .stops ∧ bs = before.map f ++ f a :: rest := by
  induction h with
  | nil => cases hfirst
  | @goesOn a as bs hgoes _ ih =>
    rw [Verdict.first, hgoes] at hfirst
    obtain ⟨before, last, rest, rfl, hbefore, hlast, rfl⟩ := ih hfirst
    refine ⟨a :: before, last, rest, rfl, fun b hb => ?_, hlast, rfl⟩
    rcases List.mem_cons.mp hb with rfl | hb
    · exact hgoes
    · exact hbefore b hb
  | @stopped a bs hstops =>
    exact ⟨[], a, bs, rfl, fun b hb => absurd hb List.not_mem_nil, hstops, rfl⟩
  | failed as bs hfails =>
    rw [Verdict.first, hfails] at hfirst
    cases hfirst

end UpToStop

theorem Verdict.exists_of_first {verdict : ι → Verdict} {as : List ι}
    (h : first verdict as = .fails) : ∃ a ∈ as, verdict a = .fails := by
  induction as with
  | nil => cases h
  | cons a rest ih =>
    rw [first] at h
    cases ha : verdict a with
    | goesOn =>
      rw [ha] at h
      obtain ⟨b, hb, hfails⟩ := ih h
      exact ⟨b, List.mem_cons_of_mem a hb, hfails⟩
    | stops =>
      rw [ha] at h
      cases h
    | fails => exact ⟨a, List.mem_cons_self, ha⟩

def Handover.verdict (h : Handover σ) : Verdict :=
  match h.outcome.result with
  | .ok answer => if answer.stops then .stops else .goesOn
  | .error _ => .fails

theorem Handover.verdict_goesOn {h : Handover σ} {answer : Document}
    (hanswer : h.outcome.result = .ok answer) (hne : answer ≠ .bool false) :
    h.verdict = .goesOn := by
  rw [verdict, hanswer]
  simp [Document.stops_eq_false hne]

namespace Delivery

/-! ## Deliveries that stream -/

/-- The delivery hands nothing over any more, and comes to a value and a state of which `closed`
holds. -/
inductive Closes (closed : α → σ → Prop) : Delivery σ α → σ → Prop where
  | done {a : α} {s : σ} (h : closed a s) : Closes closed (.done (.ok a)) s
  | read {next : σ → Delivery σ α} {s : σ} (h : Closes closed (next s) s) :
      Closes closed (.read next) s
  | write {events : List Event} {t s : σ} {next : Delivery σ α} (h : Closes closed next t) :
      Closes closed (.write events t next) s

/-- The delivery hands these profiles over in order, and then comes to a value and a state of which
`after` holds; with the first answer `false` it closes instead. All this if the visitor leaves what
is viewed as it is; of a visitor that fails nothing is said. -/
inductive Streams (view : σ → τ) (after closed : α → σ → Prop) :
    Delivery σ α → σ → List Profile → Prop where
  | done {a : α} {s : σ} (h : after a s) : Streams view after closed (.done (.ok a)) s []
  | read {next : σ → Delivery σ α} {s : σ} {ps : List Profile}
      (h : Streams view after closed (next s) s ps) : Streams view after closed (.read next) s ps
  | write {events : List Event} {t s : σ} {next : Delivery σ α} {ps : List Profile}
      (h : Streams view after closed next t ps) :
      Streams view after closed (.write events t next) s ps
  | give {p : Profile} {next : Except Failure Document → Delivery σ α} {s : σ} {ps : List Profile}
      (goesOn : ∀ answer t, answer ≠ .bool false → view t = view s →
        Streams view after closed (next (.ok answer)) t ps)
      (stops : ∀ t, view t = view s → Closes closed (next (.ok (.bool false))) t) :
      Streams view after closed (.give p next) s (p :: ps)

variable {view : σ → τ} {after closed : α → σ → Prop} {visitor : Profile → Lookup σ Document}

theorem Closes.run {d : Delivery σ α} {s : σ} (h : d.Closes closed s)
    (visitor : Profile → Lookup σ Document) :
    d.handovers visitor s = [] ∧
      ∃ events t a, (d.run visitor).run s = ⟨events, t, .ok a⟩ ∧ closed a t := by
  induction h with
  | done h => exact ⟨rfl, [], _, _, rfl, h⟩
  | read _ ih => exact ih
  | @write events t s next _ ih =>
    obtain ⟨hnone, more, u, a, hrun, hclosed⟩ := ih
    refine ⟨hnone, events ++ more, u, a, ?_, hclosed⟩
    rw [run_write_run, hrun]

/-- How a streaming delivery ends, by what its handovers come to. -/
def EndsBy (after closed : α → σ → Prop) (r : Run σ α) : Verdict → Prop
  | .goesOn => ∃ a, r.result = .ok a ∧ after a r.state
  | .stops => ∃ a, r.result = .ok a ∧ closed a r.state
  | .fails => True

/-- To a visitor that leaves what is viewed alone the profiles are handed over up to a stop. -/
theorem Streams.run {d : Delivery σ α} {s : σ} {ps : List Profile}
    (h : d.Streams view after closed s ps)
    (hvisitor : ∀ p s, view ((visitor p).run s).state = view s) :
    UpToStop Handover.verdict (·.profile) (d.handovers visitor s) ps ∧
      EndsBy after closed ((d.run visitor).run s)
        (Verdict.first Handover.verdict (d.handovers visitor s)) := by
  induction h with
  | done h => exact ⟨.nil, _, rfl, h⟩
  | read _ ih => exact ih
  | write _ ih => exact ih
  | @give p next s ps _ hstops ih =>
    have hview := hvisitor p s
    rcases hvisit : (visitor p).run s with ⟨events, t, answer⟩
    rw [hvisit] at hview
    rw [handovers_give, run_give_of_visit visitor hvisit, hvisit, Verdict.first]
    cases answer with
    | error f => exact ⟨.failed _ _ rfl, trivial⟩
    | ok answer =>
      by_cases hfalse : answer = .bool false
      · subst hfalse
        obtain ⟨hnone, more, u, a, hrun, hclosed⟩ := (hstops t hview).run visitor
        dsimp only
        rw [hnone, hrun]
        exact ⟨.stopped ps rfl, a, rfl, hclosed⟩
      · obtain ⟨hgiven, hend⟩ := ih answer t hfalse hview
        have hverdict : (⟨p, s, ⟨events, t, .ok answer⟩⟩ : Handover σ).verdict = .goesOn :=
          Handover.verdict_goesOn rfl hfalse
        rw [hverdict]
        exact ⟨.goesOn hverdict hgiven, hend⟩

end Delivery

/-! ## Sources that stream -/

theorem Queries.dependsOn_collect {view : σ → τ} {one : K → Lookup σ (Option Profile)}
    (h : ∀ k, (one k).DependsOn view) (keys : List K) : (collect one keys).DependsOn view := by
  induction keys with
  | nil => exact Lookup.dependsOn_pure []
  | cons k rest ih =>
    exact (h k).bind fun found => ih.bind fun more => Lookup.dependsOn_pure (found.toList ++ more)

/-- Where a batch would be answered, its profiles are streamed from every state that looks the same,
in the order of the batch, up to a stop; after all of them it looks as it would after the batch. -/
def Queries.StreamsBatches (view : σ → τ) (q : Queries σ K) : Prop :=
  ∀ keys s u ps, view u = view s → ((q.all keys).run s).result = .ok ps →
    (q.visit keys).Streams view (fun _ v => view v = view ((q.all keys).run s).state)
      (fun _ _ => True) u ps

theorem Queries.streamsBatches_ofOne [DecidableEq K] {view : σ → τ}
    {one : K → Lookup σ (Option Profile)} (h : ∀ k, (one k).DependsOn view) :
    (ofOne one).StreamsBatches view := by
  suffices hkeys : ∀ keys s u ps, view u = view s → ((collect one keys).run s).result = .ok ps →
      (visitEach one keys).Streams view (fun _ v => view v = view ((collect one keys).run s).state)
        (fun _ _ => True) u ps from fun keys => hkeys (Batch.unique keys)
  -- By induction on the keys: from what the batch came to follows what came of its first key, and
  -- the visit asks for that key in a state that looks the same.
  intro keys
  induction keys with
  | nil =>
    intro s u ps hview hps
    obtain rfl : [] = ps := Except.ok.inj hps
    exact .done hview
  | cons k rest ih =>
    intro s u ps hview hps
    rw [collect] at hps ⊢
    obtain ⟨events, t, found, hone, hrest⟩ := Lookup.result_bind_eq_ok hps
    rw [Lookup.run_bind_ok hone]
    rw [Lookup.run_map] at hrest ⊢
    obtain ⟨more, hmore, rfl⟩ : ∃ more, ((collect one rest).run t).result = .ok more ∧
        found.toList ++ more = ps := by
      cases hcollect : ((collect one rest).run t).result with
      | error e =>
        rw [hcollect] at hrest
        cases hrest
      | ok more =>
        rw [hcollect] at hrest
        exact ⟨more, rfl, Except.ok.inj hrest⟩
    obtain ⟨hresult, hstate⟩ := h k s u hview
    rw [hone] at hresult hstate
    change Delivery.Streams _ _ _ (.read fun v => .write ((one k).run v).events
      ((one k).run v).state (Delivery.andThen (.done ((one k).run v).result) _)) u _
    refine .read (.write ?_)
    rw [hresult]
    cases found with
    | none => exact ih t _ more hstate hmore
    | some p =>
      refine .give (fun answer v hne hv => ?_) fun v _ => .done trivial
      change Delivery.Streams _ _ _ (if answer.stops then pure () else visitEach one rest) v more
      rw [Document.stops_eq_false hne]
      exact ih t v more (hv.trans hstate) hmore

end PlayerLookup
