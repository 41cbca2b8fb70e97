import PlayerLookup.Proofs.Cache.History
import PlayerLookup.Proofs.Foundations.Streaming
import PlayerLookup.Proofs.Foundations.Traffic
import PlayerLookup.Proofs.Remote.Histories
import PlayerLookup.Proofs.Remote.Requests

/-! Names asked of a remote service that has one answer for every body. A batch posts all bodies and
keeps the first profile of every player. A visit posts the same bodies one by one and hands out what
each is answered with before it posts the next, so that a visitor who stops spares the bodies after
the one that the last profile came from. -/

set_option autoImplicit false

namespace PlayerLookup

variable {σ α β : Type}

/-! ## Requests of a lookup -/

namespace Lookup

/-- From kept states the lookup makes just these requests, gives the value and leads to a kept
state. -/
def Asks (kept : σ → Prop) (requests : List Request) (m : Lookup σ α) (a : α) : Prop :=
  ∀ s, kept s → ∃ events t, m.run s = ⟨events, t, .ok a⟩ ∧ kept t ∧ requestsOf events = requests

variable {kept : σ → Prop} {requests more : List Request} {m : Lookup σ α} {a : α}

theorem asks_pure (a : α) : (pure a : Lookup σ α).Asks kept [] a := fun s hs =>
  ⟨[], s, rfl, hs, rfl⟩

theorem Asks.bind {f : α → Lookup σ β} {b : β} (hm : m.Asks kept requests a)
    (hf : (f a).Asks kept more b) : (m >>= f).Asks kept (requests ++ more) b := by
  intro s hs
  obtain ⟨events, t, hrun, ht, hrequests⟩ := hm s hs
  obtain ⟨rest, u, hnext, hu, hmore⟩ := hf t ht
  refine ⟨events ++ rest, u, ?_, hu, ?_⟩
  · rw [run_bind_ok hrun, hnext]
  · rw [requestsOf_append, hrequests, hmore]

theorem Asks.map (hm : m.Asks kept requests a) (f : α → β) :
    (do return f (← m) : Lookup σ β).Asks kept requests (f a) := by
  have h := hm.bind (f := fun a => pure (f a)) (asks_pure (f a))
  rwa [List.append_nil] at h

theorem Asks.attempt (hm : m.Asks kept requests a) : m.attempt.Asks kept requests (.ok a) := by
  intro s hs
  obtain ⟨events, t, hrun, ht, hrequests⟩ := hm s hs
  refine ⟨events, t, ?_, ht, hrequests⟩
  rw [run_attempt, hrun]

end Lookup

/-! ## Requests of a delivery -/

namespace Delivery

variable (visitor : Profile → Lookup σ Document)

/-- The requests that a delivery makes on its own, those of the visitor apart. -/
def requests (d : Delivery σ α) (s : σ) : List Request :=
  (d.steps visitor s).flatMap fun step =>
    match step with
    | .did events _ => requestsOf events
    | _ => []

/-- The delivery comes to a value and a state, with these handovers and these requests. -/
structure Goes (d : Delivery σ α) (s t : σ) (a : α) (given : List (Handover σ))
    (posted : List Request) : Prop where
  yields : (d.run visitor).Yields s t a
  handovers_eq : d.handovers visitor s = given
  requests_eq : d.requests visitor s = posted

variable {visitor} {s t u : σ} {events : List Event}

theorem goes_pure (a : α) (s : σ) : (pure a : Delivery σ α).Goes visitor s s a [] [] :=
  ⟨⟨[], rfl⟩, rfl, rfl⟩

theorem goes_ofLookup {m : Lookup σ α} {a : α} (h : m.run s = ⟨events, t, .ok a⟩) :
    (ofLookup m).Goes visitor s t a [] (requestsOf events) where
  yields := by
    rw [run_ofLookup]
    exact ⟨events, h⟩
  handovers_eq := rfl
  requests_eq := by
    change requestsOf (m.run s).events ++ [] = _
    rw [h, List.append_nil]

theorem goes_ask {p : Profile} {answer : Document}
    (h : (visitor p).run s = ⟨events, t, .ok answer⟩) :
    (ask p).Goes visitor s t answer [⟨p, s, ⟨events, t, .ok answer⟩⟩] [] where
  yields := by
    rw [run_ask]
    exact ⟨events, h⟩
  handovers_eq := by
    rw [ask, handovers_give, h]
    rfl
  requests_eq := rfl

theorem Goes.bind {d : Delivery σ α} {f : α → Delivery σ β} {a : α} {b : β}
    {given more : List (Handover σ)} {posted next : List Request}
    (hd : d.Goes visitor s t a given posted) (hf : (f a).Goes visitor t u b more next) :
    (d >>= f).Goes visitor s u b (given ++ more) (posted ++ next) := by
  obtain ⟨events, hrun⟩ := hd.yields
  constructor
  · rw [run_bind]
    exact hd.yields.bind hf.yields
  · rw [handovers_bind_ok visitor hrun, hd.handovers_eq, hf.handovers_eq]
  · have hd' := hd.requests_eq
    have hf' := hf.requests_eq
    unfold requests at hd' hf' ⊢
    rw [steps_bind, hrun, List.flatMap_append, hd', hf']

end Delivery

/-! ## A visitor who answers -/

/-- From kept states the visitor answers, be it to stop or not, and it leads to kept states. -/
def AlwaysAnswers (kept : σ → Prop) (visitor : Profile → Lookup σ Document) : Prop :=
  ∀ p s, kept s → ∃ events t answer, (visitor p).run s = ⟨events, t, .ok answer⟩ ∧ kept t

variable {kept : σ → Prop} {visitor : Profile → Lookup σ Document}

/-- A stop after items that go on is the last item, if that is the only one that may stop. -/
theorem Handover.last_of_stops {given before after : List (Handover σ)} {x last : Handover σ}
    (hgoes : ∀ y ∈ given, y.verdict = .goesOn) (h : given ++ [x] = before ++ last :: after)
    (hstops : last.verdict = .stops) : before = given ∧ last = x ∧ after = [] := by
  rcases List.eq_nil_or_concat after with rfl | ⟨rest, y, rfl⟩
  · obtain ⟨rfl, hx⟩ := List.append_inj' h rfl
    exact ⟨rfl, (List.singleton_inj.mp hx).symm, rfl⟩
  · rw [List.concat_eq_append, ← List.cons_append, ← List.append_assoc] at h
    obtain ⟨rfl, -⟩ := List.append_inj' h rfl
    have hlast := hgoes last (by simp)
    rw [hstops] at hlast
    cases hlast

/-- How profiles are handed out to a visitor who answers: up to a stop, if there is one. -/
structure HandsOut (kept : σ → Prop) (visitor : Profile → Lookup σ Document) (ps : List Profile)
    (s t : σ) (stopped : Bool) (given : List (Handover σ)) : Prop where
  goes : (Delivery.giveAll ps).Goes visitor s t stopped given []
  kept_after : kept t
  up_to_stop : UpToStop Handover.verdict (·.profile) given ps
  first_eq : Verdict.first Handover.verdict given = if stopped then .stops else .goesOn

theorem AlwaysAnswers.handsOut (h : AlwaysAnswers kept visitor) (ps : List Profile) {s : σ}
    (hs : kept s) : ∃ t stopped given, HandsOut kept visitor ps s t stopped given := by
  -- By induction on the profiles: the visitor stops at the first, or the rest is handed out from
  -- the state in which the visitor left things.
  induction ps generalizing s with
  | nil => exact ⟨s, false, [], Delivery.goes_pure false s, hs, .nil, rfl⟩
  | cons p rest ih =>
    obtain ⟨events, t, answer, hvisit, ht⟩ := h p s hs
    let first : Handover σ := ⟨p, s, ⟨events, t, .ok answer⟩⟩
    have hask : (Delivery.ask p).Goes visitor s t answer [first] [] := Delivery.goes_ask hvisit
    let next : Document → Delivery σ Bool := fun answer =>
      if answer.stops then pure true else Delivery.giveAll rest
    cases hstops : answer.stops with
    | true =>
      have hverdict : first.verdict = .stops := by simp [first, Handover.verdict, hstops]
      have hnext : (next answer).Goes visitor t t true [] [] := by
        simp only [next, hstops, if_true]
        exact Delivery.goes_pure true t
      refine ⟨t, true, [first], hask.bind hnext, ht, .stopped rest hverdict, ?_⟩
      rw [Verdict.first, hverdict]
      rfl
    | false =>
      have hverdict : first.verdict = .goesOn := by simp [first, Handover.verdict, hstops]
      obtain ⟨u, stopped, given, hgoes, hu, hup, hfirst⟩ := ih ht
      have hnext : (next answer).Goes visitor t u stopped given [] := by
        simp only [next, hstops, Bool.false_eq_true, if_false]
        exact hgoes
      refine ⟨u, stopped, first :: given, hask.bind hnext, hu, .goesOn hverdict hup, ?_⟩
      rw [Verdict.first, hverdict]
      exact hfirst

namespace Remote

variable {r : Remote σ} {answer : List String → Document}

/-! ## One body -/

/-- An exchange with an answer is one request, if none is made on the way to the service. -/
theorem Serves.asks_exchange {request : Request} {d : Document} (h : r.Serves kept request d)
    (hquiet : (r.send request).Quiet) (service : String) :
    (r.exchange request service).Asks kept [request] d := by
  have honce : (r.sendOnce request).Asks kept [request] d := by
    intro s hs
    obtain ⟨events, t, hrun, ht, -⟩ := h.sendOnce s hs
    refine ⟨events, t, hrun, ht, ?_⟩
    have hattempt : r.attempt request (.whole 0) s 0 = _ := attempt_eq 0
    change (r.sendOnce request).run s = _ at hattempt
    rw [hrun] at hattempt
    obtain ⟨rfl, -, -⟩ := Run.mk.inj hattempt
    change request :: requestsOf ((r.send request).run s).events = [request]
    rw [hquiet.requestsOf s]
  rw [Remote.exchange, exchangeFrom]
  exact honce.attempt.bind (Lookup.asks_pure d)

theorem FixedNames.asks_queryNames (h : r.FixedNames kept answer)
    (hquiet : ∀ request, (r.send request).Quiet) {names : List String} (hne : names ≠ []) :
    (r.queryNames names).Asks kept [.profiles r.settings.profilesUrl names]
      (usable (answer names)) := by
  intro s hs
  obtain ⟨events, t, hrun, ht, -⟩ := h.queryNames hne s hs
  obtain ⟨lead, trail, hlogs, hevents, -, -, -⟩ := asksOnce_queryNames (r := r) hne s
  obtain ⟨asked, u, hexchange, -, hrequests⟩ :=
    (h names).asks_exchange (hquiet _) "profile lookup service" s hs
  refine ⟨events, t, hrun, ht, ?_⟩
  rw [hrun] at hevents
  change events = lead ++ ((r.exchange _ "profile lookup service").run s).events ++ trail at hevents
  rw [hevents, hexchange, requestsOf_append, requestsOf_append, hrequests,
    requestsOf_of_logs fun e he => hlogs e (List.mem_append_left _ he),
    requestsOf_of_logs fun e he => hlogs e (List.mem_append_right _ he)]
  rfl

/-! ## All bodies -/

theorem FixedNames.asks_queryBodies (h : r.FixedNames kept answer)
    (hquiet : ∀ request, (r.send request).Quiet) {bodies : List (List String)}
    (hne : ∀ body ∈ bodies, body ≠ []) :
    (r.queryBodies bodies).Asks kept (bodies.map (.profiles r.settings.profilesUrl))
      (bodies.flatMap fun body => usable (answer body)) := by
  induction bodies with
  | nil => exact Lookup.asks_pure []
  | cons body rest ih =>
    have hfirst := h.asks_queryNames hquiet (hne body List.mem_cons_self)
    have hrest := ih fun b hb => hne b (List.mem_cons_of_mem body hb)
    exact hfirst.bind (hrest.map (usable (answer body) ++ ·))

/-- How bodies are visited: all of them if the visitor never stops, and otherwise as far as the body
of the profile at which it stops. -/
inductive Visited (url : String) (offered : List String → List Profile)
    (bodies : List (List String)) : List (Handover σ) → List Request → Prop where
  | throughout {given : List (Handover σ)} (goesOn : ∀ x ∈ given, x.verdict = .goesOn)
      (delivered : given.map (·.profile) = bodies.flatMap offered) :
      Visited url offered bodies given (bodies.map (.profiles url))
  | stopped {earlier later : List (List String)} {body : List String}
      {before : List (Handover σ)} {last : Handover σ} {ps qs : List Profile}
      (bodies_eq : bodies = earlier ++ body :: later)
      (goesOn : ∀ x ∈ before, x.verdict = .goesOn) (stops : last.verdict = .stops)
      (body_offers : offered body = ps ++ last.profile :: qs)
      (delivered : before.map (·.profile) = earlier.flatMap offered ++ ps) :
      Visited url offered bodies (before ++ [last]) ((earlier ++ [body]).map (.profiles url))

/-- A body of which everything was handed out comes before those that are visited next. -/
theorem Visited.after {url : String} {offered : List String → List Profile} {body : List String}
    {bodies : List (List String)} {first given : List (Handover σ)} {posted : List Request}
    (hgoes : ∀ x ∈ first, x.verdict = .goesOn) (hfirst : first.map (·.profile) = offered body)
    (h : Visited url offered bodies given posted) :
    Visited url offered (body :: bodies) (first ++ given) (.profiles url body :: posted) := by
  have hall {hs : List (Handover σ)} (hrest : ∀ x ∈ hs, x.verdict = .goesOn) :
      ∀ x ∈ first ++ hs, x.verdict = .goesOn := by
    intro x hx
    rcases List.mem_append.mp hx with hx | hx
    · exact hgoes x hx
    · exact hrest x hx
  cases h with
  | throughout hrest hdelivered =>
    refine .throughout (hall hrest) ?_
    rw [List.map_append, hfirst, hdelivered, List.flatMap_cons]
  | @stopped earlier later last_body before last ps qs hbodies hrest hstops hoffers hdelivered =>
    have hmore : body :: bodies = (body :: earlier) ++ last_body :: later := by
      rw [hbodies]
      rfl
    rw [← List.append_assoc]
    refine .stopped hmore (hall hrest) hstops hoffers ?_
    rw [List.map_append, hfirst, hdelivered, List.flatMap_cons, List.append_assoc]

theorem FixedNames.visitBodies (h : r.FixedNames kept answer)
    (hquiet : ∀ request, (r.send request).Quiet) (hvisitor : AlwaysAnswers kept visitor)
    {bodies : List (List String)} (hne : ∀ body ∈ bodies, body ≠ []) {s : σ} (hs : kept s) :
    ∃ t given posted, (r.visitBodies bodies).Goes visitor s t () given posted ∧
      Visited r.settings.profilesUrl (fun body => usable (answer body)) bodies given posted := by
  -- By induction on the bodies: a body either is handed out to its end, and the others follow, or
  -- the visitor stops within it.
  induction bodies generalizing s with
  | nil =>
    exact ⟨s, [], [], Delivery.goes_pure () s, .throughout (by simp) rfl⟩
  | cons body rest ih =>
    obtain ⟨events, t, hquery, ht, hrequests⟩ :=
      h.asks_queryNames hquiet (hne body List.mem_cons_self) s hs
    obtain ⟨u, stopped, first, hgive, hu, hup, hfirst⟩ :=
      hvisitor.handsOut (usable (answer body)) ht
    have hposted : (Delivery.ofLookup (r.queryNames body)).Goes visitor s t (usable (answer body))
        [] [.profiles r.settings.profilesUrl body] := hrequests ▸ Delivery.goes_ofLookup hquery
    let next : Bool → Delivery σ Unit := fun stopped =>
      if stopped then pure () else r.visitBodies rest
    cases stopped with
    | true =>
      obtain ⟨before, last, qs, rfl, hgoes, hstops, hoffers⟩ := hup.to_a_stop hfirst
      have hnext : (next true).Goes visitor u u () [] [] := Delivery.goes_pure () u
      have hgiven := hgive.bind hnext
      rw [List.append_nil] at hgiven
      have hbodies : body :: rest = [] ++ body :: rest := rfl
      exact ⟨u, before ++ [last], [.profiles r.settings.profilesUrl body], hposted.bind hgiven,
        .stopped hbodies hgoes hstops hoffers rfl⟩
    | false =>
      obtain ⟨hgoes, hall⟩ := hup.to_the_end hfirst
      obtain ⟨v, given, posted, hrest, hvisited⟩ :=
        ih (fun b hb => hne b (List.mem_cons_of_mem body hb)) hu
      have hnext : (next false).Goes visitor u v () given posted := hrest
      exact ⟨v, first ++ given, .profiles r.settings.profilesUrl body :: posted,
        hposted.bind (hgive.bind hnext), hvisited.after hgoes hall⟩

theorem parts_bodies (names : List String) :
    Batch.Parts namesPerRequest names.eraseDups (bodies names) := by
  rw [bodies, Batch.unique_eq_eraseDups]
  exact Batch.parts_chunks (by decide) names.eraseDups

end Remote

open Remote in
/-- The distinct names are posted in full bodies but for the last, and a batch gives the first
profile of each id. A visit that is never stopped posts the same bodies and hands out all that is
offered; one that is stopped has handed out what is offered as far as the profile at which it is
stopped, and has posted the bodies as far as the one of that profile. -/
theorem names_body_by_body {r : Remote σ} {answer : List String → Document}
    (h : r.FixedNames kept answer) (hquiet : ∀ request, (r.send request).Quiet)
    (names : List String) :
    let post := Request.profiles r.settings.profilesUrl
    let offers (body : List String) := usable (answer body)
    let offered := (bodies names).flatMap offers
    Batch.Parts 100 names.eraseDups (bodies names) ∧
    ((Source.remote r).byName.all names).Asks kept ((bodies names).map post)
      (offered.eraseDupsBy fun p q => p.id == q.id) ∧
    ∀ visitor, AlwaysAnswers kept visitor → ∀ s, kept s → ∃ t given posted,
      ((Source.remote r).byName.visit names).Goes visitor s t () given posted ∧
      ((∀ x ∈ given, x.verdict ≠ .stops) →
        given.map (·.profile) = offered ∧ posted = (bodies names).map post) ∧
      ∀ before last after, given = before ++ last :: after → last.verdict = .stops →
        after = [] ∧ ∃ earlier body later ps qs, bodies names = earlier ++ body :: later ∧
          offers body = ps ++ last.profile :: qs ∧
          given.map (·.profile) = earlier.flatMap offers ++ ps ++ [last.profile] ∧
          posted = (earlier ++ [body]).map post := by
  have hne := (parts_bodies names).ne_nil
  refine ⟨parts_bodies names, ?_, fun visitor hvisitor s hs => ?_⟩
  · have hall := (h.asks_queryBodies hquiet hne).map Profile.distinct
    rw [Profile.distinct, Batch.uniqueBy_eq_eraseDupsBy] at hall
    exact hall
  · obtain ⟨t, given, posted, hcourse, hvisited⟩ := h.visitBodies hquiet hvisitor hne hs
    refine ⟨t, given, posted, hcourse, ?_, ?_⟩
    · intro hnone
      cases hvisited with
      | throughout _ hdelivered => exact ⟨hdelivered, rfl⟩
      | stopped _ _ hstops => exact absurd hstops (hnone _ (by simp))
    · intro before last after hgiven hstops
      -- A stop rules out that the visit went on to its end, and it can only be the last handover.
      cases hvisited with
      | throughout hall =>
        have hlast := hall last (by simp [hgiven])
        rw [hstops] at hlast
        cases hlast
      | @stopped earlier later body first x ps qs hbodies hgoes _ hoffers hdelivered =>
        obtain ⟨rfl, rfl, rfl⟩ := Handover.last_of_stops hgoes hgiven hstops
        refine ⟨rfl, earlier, body, later, ps, qs, hbodies, hoffers, ?_, rfl⟩
        rw [List.map_append, hdelivered]
        rfl

namespace SecondProfile

def ash : Profile := ⟨⟨1⟩, .ash⟩

def birch : Profile := ⟨⟨2⟩, .birch⟩

def records : Document := .list [Remote.entryOf ash, Remote.entryOf birch]

def remote : Remote Nat := .saying records

def names : List String := (List.range 101).map toString

def stopsAtSecond (_ : Profile) : Lookup Nat Document := fun n => ⟨[], n + 1, .ok (.bool (n != 1))⟩

theorem usable_records : Remote.usable records = [ash, birch] := by decide +kernel

end SecondProfile

/-- The visitor stops at the second profile of the first body, and the second body is not posted. -/
theorem second_body_spared :
    let visit := (Source.remote SecondProfile.remote).byName.visit SecondProfile.names
    ∃ first second, Remote.bodies SecondProfile.names = [first, second] ∧
      (visit.handovers SecondProfile.stopsAtSecond 0).map (·.profile) =
        [SecondProfile.ash, SecondProfile.birch] ∧
      visit.requests SecondProfile.stopsAtSecond 0 =
        [.profiles SecondProfile.remote.settings.profilesUrl first] := by
  intro visit
  have hfixed : SecondProfile.remote.FixedNames (fun _ => True) fun _ => SecondProfile.records :=
    Remote.fixedNames_saying
  obtain ⟨-, -, hvisit⟩ :=
    names_body_by_body hfixed (fun _ _ => rfl) SecondProfile.names
  obtain ⟨t, given, posted, hgoes, -, hstop⟩ :=
    hvisit SecondProfile.stopsAtSecond (fun _ n _ => ⟨[], n + 1, _, rfl, trivial⟩) 0 trivial
  obtain ⟨first, second, hbodies⟩ := List.length_eq_two.mp
    (by decide +kernel : (Remote.bodies SecondProfile.names).length = 2)
  have hseen : given.map (fun x => (x.profile, x.verdict)) =
      [(SecondProfile.ash, .goesOn), (SecondProfile.birch, .stops)] := by
    rw [← hgoes.handovers_eq]
    decide +kernel
  obtain ⟨x, rest, rfl, hx, hrest⟩ := List.map_eq_cons_iff.mp hseen
  obtain ⟨y, none, rfl, hy, hnone⟩ := List.map_eq_cons_iff.mp hrest
  obtain rfl := List.map_eq_nil_iff.mp hnone
  obtain ⟨hash, -⟩ := Prod.mk.inj hx
  obtain ⟨hbirch, hstops⟩ := Prod.mk.inj hy
  obtain ⟨-, earlier, body, later, ps, qs, hsplit, -, hdelivered, hposted⟩ :=
    hstop [x] y [] rfl hstops
  -- A body before that of the last profile would have had both profiles handed out.
  obtain rfl : earlier = [] := by
    cases earlier with
    | nil => rfl
    | cons before rest =>
      have hlength := congrArg List.length hdelivered
      simp [SecondProfile.usable_records] at hlength
  rw [hbodies] at hsplit
  obtain ⟨rfl, -⟩ := List.cons.inj hsplit
  refine ⟨first, second, hbodies, ?_, hgoes.requests_eq.trans hposted⟩
  rw [hgoes.handovers_eq]
  simp [hash, hbirch]

end PlayerLookup
