import PlayerLookup.Proofs.Combined.Streaming
import PlayerLookup.Proofs.Remote.Histories

/-! What the members of a combination offer, and what is made of it. A combination asks for nothing
but requested keys, but it looks at no key that a member answers with: it passes on the first
profile of every key, be the key requested or not. So an unrequested profile is returned, given to
the visitor and stored just if a member offers one. -/

set_option autoImplicit false

namespace PlayerLookup

variable {σ K κ α : Type} [DecidableEq κ] {normal : K → κ} {keyOf : Profile → K} {keys : List K}
  {visitor : Profile → Lookup σ Document}

/-- The profile's key counts as one of the requested keys. -/
def Profile.Requested (normal : K → κ) (keyOf : Profile → K) (keys : List K) (p : Profile) : Prop :=
  normal (keyOf p) ∈ keys.map normal

omit [DecidableEq κ] in
theorem Profile.requested_of_key_eq {p q : Profile} (h : normal (keyOf p) = normal (keyOf q))
    (hp : p.Requested normal keyOf keys) : q.Requested normal keyOf keys := by
  unfold Requested
  rw [← h]
  exact hp

theorem Profile.requested_uniqueBy_iff (offered : List Profile) :
    (∀ p ∈ Batch.uniqueBy (fun p => normal (keyOf p)) offered, p.Requested normal keyOf keys) ↔
      ∀ p ∈ offered, p.Requested normal keyOf keys := by
  constructor
  · intro h p hp
    have hkey := List.mem_map_of_mem (f := fun p => normal (keyOf p)) hp
    rw [← Batch.mem_map_uniqueBy] at hkey
    obtain ⟨first, hfirst, heq⟩ := List.mem_map.mp hkey
    exact requested_of_key_eq heq (h first hfirst)
  · intro h p hp
    exact h p ((Batch.uniqueFrom_sublist _ [] offered).subset hp)

theorem mem_of_mem_openKeys {found : List Profile} {k : K}
    (h : k ∈ openKeys normal keyOf keys found) : k ∈ keys := by
  have hunique := (List.mem_filter.mp h).1
  exact (Batch.uniqueFrom_sublist normal [] keys).subset hunique

/-! ## Through a progress -/

namespace Progress

variable {pr : Progress K κ} {found : List Profile}

theorem Knows.answered (h : pr.Knows normal keyOf keys found)
    (answer : Except Failure Document) : (pr.answered answer).Knows normal keyOf keys found := by
  cases answer with
  | error f => exact h
  | ok a =>
    rw [Progress.answered]
    by_cases hstops : a.stops = true
    · rw [if_pos hstops]
      exact ⟨h.remaining_eq, h.mem_reported⟩
    · rw [if_neg hstops]
      exact h

/-- The profiles that a delivery gives while they are passed on through a progress; not all of them
come to the visitor. -/
def offered (normal : K → κ) (keyOf : Profile → K) (visitor : Profile → Lookup σ Document)
    (pr : Progress K κ) : Delivery σ α → σ → List Profile
  | .done _, _ => []
  | .read next, s => offered normal keyOf visitor pr (next s) s
  | .write _ t next, _ => offered normal keyOf visitor pr next t
  | .give p next, s =>
    p :: if normal (keyOf p) ∈ pr.reported then
        offered normal keyOf visitor pr (next (.ok (.bool true))) s
      else
        let r := (visitor p).run s
        offered normal keyOf visitor ((pr.marked (normal (keyOf p))).answered r.result)
          (next r.result) r.state

theorem offered_give_reported {p : Profile} (h : normal (keyOf p) ∈ pr.reported)
    (next : Except Failure Document → Delivery σ α) (s : σ) :
    pr.offered normal keyOf visitor (.give p next) s =
      p :: pr.offered normal keyOf visitor (next (.ok (.bool true))) s := by
  rw [offered, if_pos h]

theorem offered_give_fresh {p : Profile} (h : normal (keyOf p) ∉ pr.reported)
    (next : Except Failure Document → Delivery σ α) (s : σ) :
    pr.offered normal keyOf visitor (.give p next) s =
      p :: ((pr.marked (normal (keyOf p))).answered ((visitor p).run s).result).offered normal
        keyOf visitor (next ((visitor p).run s).result) ((visitor p).run s).state := by
  rw [offered, if_neg h]

/-- The visitor gets the first profile of each key that was not known before, and afterwards the
progress knows of all that were offered. -/
theorem Knows.forward (h : pr.Knows normal keyOf keys found)
    (visitor : Profile → Lookup σ Document) (d : Delivery σ α) (s : σ) :
    ((pr.forward normal keyOf d).handovers visitor s).map (·.profile) =
        Batch.uniqueFrom (fun p => normal (keyOf p)) (found.map fun p => normal (keyOf p))
          (pr.offered normal keyOf visitor d s) ∧
      ∀ r, (((pr.forward normal keyOf d).run visitor).run s).result = .ok r →
        r.2.Knows normal keyOf keys (found ++ pr.offered normal keyOf visitor d s) := by
  induction d generalizing pr found s with
  | done result =>
    refine ⟨by cases result <;> rfl, fun r hr => ?_⟩
    cases result with
    | error f => cases hr
    | ok a =>
      cases hr
      rw [offered, List.append_nil]
      exact h
  | read next ih => exact ih s h s
  | write events t next ih => exact ih h t
  | give p next ih =>
    by_cases hp : normal (keyOf p) ∈ pr.reported
    · have hseen := (h.mem_reported _).mp hp
      obtain ⟨hgiven, hend⟩ := ih (.ok (.bool true)) (h.reported hp) s
      rw [forward_give_reported hp, offered_give_reported hp, Batch.uniqueFrom, if_pos hseen]
      refine ⟨?_, fun r hr => ?_⟩
      · rw [hgiven]
        refine Batch.uniqueFrom_congr _ (fun k => ?_) _
        rw [← (h.reported hp).mem_reported, h.mem_reported]
      · rw [List.append_cons]
        exact hend r hr
    · have hseen : normal (keyOf p) ∉ found.map fun p => normal (keyOf p) := fun hm =>
        hp ((h.mem_reported _).mpr hm)
      rcases hvisit : (visitor p).run s with ⟨events, t, answer⟩
      have hmarked := (h.marked p).answered answer
      obtain ⟨hgiven, hend⟩ := ih answer hmarked t
      rw [forward_give_fresh hp, offered_give_fresh hp, Delivery.handovers_give,
        Delivery.run_give_of_visit visitor hvisit, hvisit, Batch.uniqueFrom, if_neg hseen]
      refine ⟨?_, fun r hr => ?_⟩
      · rw [List.map_cons, hgiven]
        congr 1
        refine Batch.uniqueFrom_congr _ (fun k => ?_) _
        rw [List.map_append, List.map_singleton, List.mem_append, List.mem_singleton, List.mem_cons]
        exact or_comm
      · rw [List.append_cons]
        exact hend r hr

end Progress

/-! ## Member by member -/

/-- What a member was asked for while a visitor was served, and the profiles that it gave. -/
structure Offer (σ K : Type) where
  source : Queries σ K
  asked : List K
  profiles : List Profile

def Offer.call (o : Offer σ K) : Queries σ K × List K := (o.source, o.asked)

namespace Queries

/-- The offers of the members as they are asked one after the other for a visitor. -/
def offers (normal : K → κ) (keyOf : Profile → K) (visitor : Profile → Lookup σ Document) :
    List (Queries σ K) → Progress K κ → σ → List (Offer σ K)
  | [], _, _ => []
  | q :: rest, pr, s =>
    if pr.isComplete || pr.stopRequested then []
    else
      ⟨q, pr.missing, pr.offered normal keyOf visitor (q.visit pr.missing) s⟩ ::
        match ((pr.passing normal keyOf q).run visitor).run s with
        | ⟨_, t, .ok r⟩ => offers normal keyOf visitor rest r.2 t
        | ⟨_, _, .error _⟩ => []

theorem offers_streams (members : List (Queries σ K)) (pr : Progress K κ) (s : σ) :
    (offers normal keyOf visitor members pr s).map Offer.call =
      (streams normal keyOf visitor members pr s).map Stream.call := by
  induction members generalizing pr s with
  | nil => rfl
  | cons q rest ih =>
    rw [offers, streams]
    by_cases hdone : (pr.isComplete || pr.stopRequested) = true
    · rw [if_pos hdone, if_pos hdone]
      rfl
    · rw [if_neg hdone, if_neg hdone, List.map_cons, List.map_cons]
      rcases ((pr.passing normal keyOf q).run visitor).run s with ⟨events, t, _ | r⟩
      · rfl
      · exact congrArg (_ :: ·) (ih r.2 t)

/-- The visitor gets the first profile of each key that the members offer, and these are asked for
requested keys. -/
theorem handovers_visitMembers (visitor : Profile → Lookup σ Document)
    (members : List (Queries σ K)) :
    ∀ (found : List Profile) (pr : Progress K κ) (s : σ), pr.Knows normal keyOf keys found →
      ((visitMembers normal keyOf members pr).handovers visitor s).map (·.profile) =
          Batch.uniqueFrom (fun p => normal (keyOf p)) (found.map fun p => normal (keyOf p))
            ((offers normal keyOf visitor members pr s).flatMap Offer.profiles) ∧
        ∀ o ∈ offers normal keyOf visitor members pr s, ∀ k ∈ o.asked, k ∈ keys := by
  -- By induction on the members; what the progress knows is what those before have offered.
  induction members with
  | nil => exact fun found pr s _ => ⟨rfl, fun o ho => absurd ho List.not_mem_nil⟩
  | cons q rest ih =>
    intro found pr s h
    by_cases hdone : (pr.isComplete || pr.stopRequested) = true
    · rw [visitMembers_over hdone, offers, if_pos hdone]
      exact ⟨rfl, fun o ho => absurd ho List.not_mem_nil⟩
    · have hasked : ∀ k ∈ pr.missing, k ∈ keys := by
        rw [h.missing_eq]
        exact fun k hk => mem_of_mem_openKeys hk
      obtain ⟨hgiven, hend⟩ := h.forward visitor (q.visit pr.missing) s
      rw [visitMembers_cons hdone, offers, if_neg hdone]
      rcases hrun : ((pr.passing normal keyOf q).run visitor).run s with ⟨events, t, e | r⟩
      · rw [Delivery.handovers_bind_error visitor hrun]
        refine ⟨?_, fun o ho => ?_⟩
        · rw [List.flatMap_singleton]
          exact hgiven
        · rw [List.mem_singleton.mp ho]
          exact hasked
      · have hknows := hend r (congrArg Run.result hrun)
        obtain ⟨hmore, hrest⟩ := ih _ r.2 t hknows
        rw [Delivery.handovers_bind_ok visitor hrun]
        refine ⟨?_, fun o ho => ?_⟩
        · rw [List.map_append, hmore, List.flatMap_cons, Batch.uniqueFrom_append, ← List.map_append]
          exact congrArg (· ++ _) hgiven
        · rcases List.mem_cons.mp ho with rfl | ho
          · exact hasked
          · exact hrest o ho

end Queries

/-! ## What is made of the offers -/

def Turn.offer (t : Turn σ K) : Offer σ K := ⟨t.source, t.asked, t.found⟩

/-- Members that were asked for requested keys have offered profiles, and of each key the first was
given; so nothing is given that was not requested just if nothing of the kind was offered. -/
structure PassedOn (normal : K → κ) (keyOf : Profile → K) (keys : List K)
    (offers : List (Offer σ K))
    (given : List Profile) : Prop where
  asked_requested : ∀ o ∈ offers, ∀ k ∈ o.asked, k ∈ keys
  given_eq : given = Batch.uniqueBy (fun p => normal (keyOf p)) (offers.flatMap Offer.profiles)
  requested_iff : (∀ p ∈ given, p.Requested normal keyOf keys) ↔
    ∀ o ∈ offers, ∀ p ∈ o.profiles, p.Requested normal keyOf keys

theorem passedOn_of_eq {offers : List (Offer σ K)} {given : List Profile}
    (hasked : ∀ o ∈ offers, ∀ k ∈ o.asked, k ∈ keys)
    (hgiven : given = Batch.uniqueBy (fun p => normal (keyOf p)) (offers.flatMap Offer.profiles)) :
    PassedOn normal keyOf keys offers given where
  asked_requested := hasked
  given_eq := hgiven
  requested_iff := by
    rw [hgiven, Profile.requested_uniqueBy_iff, List.forall_mem_flatMap]

theorem Queries.combined_passesOn_batch {members : List (String × Queries σ K)} {s : σ}
    {turns : List (Turn σ K)}
    (h : AnsweredInTurn normal keyOf keys members
      ((combined normal keyOf members).all keys) s turns)
    {ps : List Profile} (hok : (((combined normal keyOf members).all keys).run s).result = .ok ps) :
    PassedOn normal keyOf keys (turns.map Turn.offer) ps := by
  refine passedOn_of_eq (fun o ho k hk => ?_) ?_
  · obtain ⟨t, ht, rfl⟩ := List.mem_map.mp ho
    obtain ⟨before, after, hsplit⟩ := List.append_of_mem ht
    have hasked := (h.in_turn.follows before t after hsplit).asked_eq
    change k ∈ t.asked at hk
    rw [hasked] at hk
    exact mem_of_mem_openKeys hk
  · rw [(h.firstOfEach hok).eq_unique, List.flatMap_map]
    rfl

theorem Queries.combined_passesOn_visit (normal : K → κ) (keyOf : Profile → K) (keys : List K)
    (members : List (String × Queries σ K)) (visitor : Profile → Lookup σ Document) (s : σ) :
    PassedOn normal keyOf keys
      (offers normal keyOf visitor (members.map Prod.snd) (Progress.ofKeys normal keys) s)
      ((((combined normal keyOf members).visit keys).handovers visitor s).map (·.profile)) := by
  obtain ⟨hgiven, hasked⟩ := handovers_visitMembers visitor (members.map Prod.snd) []
    (Progress.ofKeys normal keys) s (Progress.knows_ofKeys normal keyOf keys)
  exact passedOn_of_eq hasked hgiven

/-- **An unrequested profile is passed on just if a member offers it.** Whatever the sources are and
answer, a batch of names or a visit asks them for requested names only, and of what they offer the
first profile of each name is returned or given to the visitor. So all that is given has a requested
name, up to the case policy, if and only if all that the sources offered has. -/
theorem combined_requested_iff_offered (caseSensitive : Bool) (members : List (Source σ))
    (names : List String) (s : σ) :
    (∃ turns, AnsweredInTurn (matchingForm caseSensitive) (·.name.text) names
        (members.map fun m => (m.label, m.byName))
        ((Source.combined caseSensitive members).byName.all names) s turns ∧
      ∀ ps, (((Source.combined caseSensitive members).byName.all names).run s).result = .ok ps →
        PassedOn (matchingForm caseSensitive) (·.name.text) names (turns.map Turn.offer) ps) ∧
    ∀ visitor,
      let offers := Queries.offers (matchingForm caseSensitive) (·.name.text) visitor
        (members.map (·.byName)) (Progress.ofKeys (matchingForm caseSensitive) names) s
      offers.map Offer.call = (Queries.streams (matchingForm caseSensitive) (·.name.text) visitor
        (members.map (·.byName)) (Progress.ofKeys (matchingForm caseSensitive) names) s).map
          Stream.call ∧
      PassedOn (matchingForm caseSensitive) (·.name.text) names offers
        ((((Source.combined caseSensitive members).byName.visit names).handovers visitor s).map
          (·.profile)) := by
  refine ⟨?_, fun visitor => ⟨Queries.offers_streams _ _ s, ?_⟩⟩
  · obtain ⟨turns, hturns⟩ := combined_answeredInTurn (matchingForm caseSensitive)
      (·.name.text) (members.map fun m => (m.label, m.byName)) names s
    exact ⟨turns, hturns, fun ps hps => Queries.combined_passesOn_batch hturns hps⟩
  · have hvisit := Queries.combined_passesOn_visit (matchingForm caseSensitive) (·.name.text) names
      (members.map fun m => (m.label, m.byName)) visitor s
    rw [List.map_map] at hvisit
    exact hvisit

/-! ## A record that nobody asked for -/

namespace Unasked

def ash : Profile := ⟨⟨1⟩, .ash⟩

def birch : Profile := ⟨⟨2⟩, .birch⟩

def source : Source Memory :=
  Source.combined false [.remote (.saying (.list [Remote.entryOf ash, Remote.entryOf birch]))]

end Unasked

/-- Of one requested name two profiles are returned, given to a visitor, and stored by a source that
forwards to a cache; the second one has another name. -/
theorem unrequested_profile_given :
    ((Unasked.source.byName.all ["Ash"]).run .empty).result = .ok [Unasked.ash, Unasked.birch] ∧
      ((Unasked.source.byName.visit ["Ash"]).handovers (fun _ => return .null) .empty).map
        (·.profile) = [Unasked.ash, Unasked.birch] ∧
      (((Source.forwarding (.memory .whole) Unasked.source).byName.all ["Ash"]).run
        .empty).state.holder? "Birch" = some Unasked.birch ∧
      ¬ Unasked.birch.Requested (matchingForm false) (·.name.text) ["Ash"] := by
  refine ⟨Except.eq_ok_of_toOption (by decide +kernel), by decide +kernel, by decide +kernel, ?_⟩
  unfold Profile.Requested
  decide +kernel

end PlayerLookup
