import PlayerLookup.Proofs.Foundations.Batch
import PlayerLookup.Proofs.Foundations.KeyByKey
import PlayerLookup.Source.Host

/-! Players of a host's registry who have no name. An id for which the registry has the empty text,
and a player whom it knows by the empty name but cannot call otherwise, make a lookup fail, and with
it the batch or the visit that it is part of. Nothing else does, whatever the registry replies: a
key that is unknown, or for which there is no other spelling, leaves the rest as it is. -/

set_option autoImplicit false

namespace PlayerLookup

variable {σ K : Type}

namespace Registry

/-- From every state the registry has a reply, if only that it knows nothing. -/
structure Replies (r : Registry σ) : Prop where
  idOf : ∀ name s, ∃ t reply, (r.idOf name).Yields s t reply
  nameOf : ∀ id s, ∃ t reply, (r.nameOf id).Yields s t reply

/-- What the registry tells of an id: that it is unknown, or its name. -/
inductive TellsOfId (r : Registry σ) (id : PlayerId) (s t : σ) : Option Profile → Prop where
  | unknown (h : (r.nameOf id).Yields s t none) : TellsOfId r id s t none
  | named {n : Name} (h : (r.nameOf id).Yields s t (some n.text)) :
    TellsOfId r id s t (some ⟨id, n⟩)

/-- What the registry tells of a name: that nobody has it, or who has it, under the registry's own
spelling or, if there is none, as it was asked for. -/
inductive TellsOfName (r : Registry σ) (name : String) (s u : σ) : Option Profile → Prop where
  | unknown (h : (r.idOf name).Yields s u none) : TellsOfName r name s u none
  | spelled {t : σ} {id : PlayerId} {n : Name} (hid : (r.idOf name).Yields s t (some id))
      (hname : (r.nameOf id).Yields t u (some n.text)) : TellsOfName r name s u (some ⟨id, n⟩)
  | asAsked {t : σ} {id : PlayerId} {reply : Option String} {n : Name}
      (hid : (r.idOf name).Yields s t (some id)) (hname : (r.nameOf id).Yields t u reply)
      (hnone : reply = none ∨ reply = some "") (hn : n.text = name) :
      TellsOfName r name s u (some ⟨id, n⟩)

/-- The registry has the empty text for the name of the player. -/
def NamelessId (r : Registry σ) (id : PlayerId) (s : σ) : Prop :=
  ∃ t, (r.nameOf id).Yields s t (some "")

/-- The name asked for is empty, the registry knows somebody by it, and it has no other. -/
def NamelessName (r : Registry σ) (name : String) (s : σ) : Prop :=
  name = "" ∧ ∃ t id u reply, (r.idOf name).Yields s t (some id) ∧
    (r.nameOf id).Yields t u reply ∧ (reply = none ∨ reply = some "")

/-! ## One key -/

/-- How one key is answered: the lookup fails just if there is no name for the player, and otherwise
it gives what the registry tells. -/
structure AnswersNamed (nameless : K → σ → Prop) (tells : K → σ → σ → Option Profile → Prop)
    (one : K → Lookup σ (Option Profile)) : Prop where
  fails_iff : ∀ k s f,
    ((one k).run s).result = .error f ↔ f = .misuse .emptyName ∧ nameless k s
  settles : ∀ k s, ¬ nameless k s → ∃ t found, (one k).Yields s t found ∧ tells k s t found

/-- It is so if for every key and state there is no name and the lookup fails for it, or there is
one and the lookup gives what the registry tells. -/
theorem answersNamed_of_cases {nameless : K → σ → Prop}
    {tells : K → σ → σ → Option Profile → Prop} {one : K → Lookup σ (Option Profile)}
    (h : ∀ k s, nameless k s ∧ ((one k).run s).result = .error (.misuse .emptyName) ∨
      ¬ nameless k s ∧ ∃ t found, (one k).Yields s t found ∧ tells k s t found) :
    AnswersNamed nameless tells one where
  fails_iff k s f := by
    rcases h k s with ⟨hnameless, hfails⟩ | ⟨hnamed, t, found, hone, -⟩
    · rw [hfails]
      exact ⟨fun hf => ⟨(Except.error.inj hf).symm, hnameless⟩, fun hf => by rw [hf.1]⟩
    · rw [hone.result_eq]
      exact ⟨fun hf => (nomatch hf), fun hf => absurd hf.2 hnamed⟩
  settles k s hnamed := by
    rcases h k s with ⟨hnameless, -⟩ | ⟨-, hsettles⟩
    · exact absurd hnameless hnamed
    · exact hsettles

variable {r : Registry σ}

theorem yields_make {s : σ} (id : PlayerId) (n : Name) :
    (do let p ← Lookup.ofExcept (Profile.make id n.text)
        return some p : Lookup σ (Option Profile)).Yields s s (some ⟨id, n⟩) := by
  rw [Profile.make_text]
  exact ⟨[], rfl⟩

theorem Replies.answersNamed_findId (h : r.Replies) :
    AnswersNamed r.NamelessId r.TellsOfId r.findId := by
  refine answersNamed_of_cases fun id s => ?_
  obtain ⟨t, reply, hreply⟩ := h.nameOf id s
  have hnameless : r.NamelessId id s ↔ reply = some "" := by
    constructor
    · rintro ⟨u, hu⟩
      exact (hreply.unique hu).2
    · rintro rfl
      exact ⟨t, hreply⟩
  rw [hnameless]
  cases reply with
  | none =>
    exact Or.inr ⟨by simp, t, none, hreply.bind (Lookup.yields_pure none t), .unknown hreply⟩
  | some text =>
    obtain rfl | ⟨n, rfl⟩ := Name.empty_or_text text
    · exact Or.inl ⟨rfl, hreply.result_bind _⟩
    · have hne : some n.text ≠ some "" := fun heq => n.nonempty (Option.some.inj heq)
      exact Or.inr ⟨hne, t, some ⟨id, n⟩, hreply.bind (yields_make id n), .named hreply⟩

theorem orElse_cases (reply : Option String) (other : String) :
    (∃ n : Name, reply = some n.text ∧ orElse reply other = n.text) ∨
      (reply = none ∨ reply = some "") ∧ orElse reply other = other := by
  cases reply with
  | none => exact Or.inr ⟨Or.inl rfl, rfl⟩
  | some text =>
    obtain rfl | ⟨n, rfl⟩ := Name.empty_or_text text
    · exact Or.inr ⟨Or.inr rfl, rfl⟩
    · exact Or.inl ⟨n, rfl, if_neg n.nonempty⟩

theorem Replies.answersNamed_findName (h : r.Replies) :
    AnswersNamed r.NamelessName r.TellsOfName r.findName := by
  refine answersNamed_of_cases fun name s => ?_
  obtain ⟨t, known, hknown⟩ := h.idOf name s
  cases known with
  | none =>
    refine Or.inr ⟨?_, t, none, hknown.bind (Lookup.yields_pure none t), .unknown hknown⟩
    rintro ⟨-, u, id, v, reply, hid, -⟩
    cases (hknown.unique hid).2
  | some id =>
    obtain ⟨u, reply, hreply⟩ := h.nameOf id t
    have hnameless : r.NamelessName name s ↔ name = "" ∧ (reply = none ∨ reply = some "") := by
      refine and_congr_right fun _ => ⟨?_, fun hnone => ⟨t, id, u, reply, hknown, hreply, hnone⟩⟩
      rintro ⟨t', id', u', reply', hid, hname, hnone⟩
      obtain ⟨rfl, hsame⟩ := hknown.unique hid
      cases hsame
      rwa [(hreply.unique hname).2]
    rw [hnameless]
    obtain ⟨n, rfl, hspelled⟩ | ⟨hnone, hasked⟩ := orElse_cases reply name
    · refine Or.inr ⟨?_, u, some ⟨id, n⟩, hknown.bind (hreply.bind ?_), .spelled hknown hreply⟩
      · rintro ⟨-, hnone⟩
        simp [n.nonempty] at hnone
      · rw [hspelled]
        exact yields_make id n
    · obtain rfl | ⟨n, rfl⟩ := Name.empty_or_text name
      · refine Or.inl ⟨⟨rfl, hnone⟩, ?_⟩
        rw [findName, hknown.result_bind, hreply.result_bind, hasked]
        rfl
      · refine Or.inr ⟨fun hname => n.nonempty hname.1, u, some ⟨id, n⟩,
          hknown.bind (hreply.bind ?_), .asAsked hknown hreply hnone rfl⟩
        rw [hasked]
        exact yields_make id n

/-! ## All ways to ask -/

/-- However keys are asked for, nothing but a player without a name makes it fail. If there is no
such player among the keys, a batch and a visit go through all of them and take each as the registry
tells of it; a visit then fails only where the visitor does. -/
structure SparesNamed [DecidableEq K] (nameless : K → σ → Prop)
    (tells : K → σ → σ → Option Profile → Prop) (q : Queries σ K) : Prop where
  single : AnswersNamed nameless tells q.one
  batch : ∀ keys, (∀ k ∈ keys, ∀ s, ¬ nameless k s) → ∀ s, ∃ t given,
    (q.all keys).Yields s t (given.map (·.profile)) ∧
      KeyByKey tells listening (Batch.unique keys) s given t (.ok ())
  visit : ∀ keys, (∀ k ∈ keys, ∀ s, ¬ nameless k s) → ∀ visitor s, ∃ t given result events,
    ((q.visit keys).run visitor).run s = ⟨events, t, result⟩ ∧
      (q.visit keys).handovers visitor s = given ∧
      KeyByKey tells visitor (Batch.unique keys) s given t result
  batch_fails : ∀ keys s f, ((q.all keys).run s).result = .error f →
    f = .misuse .emptyName ∧ ∃ k ∈ keys, ∃ t, nameless k t
  visit_fails : ∀ keys visitor s f, (((q.visit keys).run visitor).run s).result = .error f →
    (f = .misuse .emptyName ∧ ∃ k ∈ keys, ∃ t, nameless k t) ∨
      ∃ p t, ((visitor p).run t).result = .error f

theorem AnswersNamed.sparesNamed_ofOne [DecidableEq K] {nameless : K → σ → Prop}
    {tells : K → σ → σ → Option Profile → Prop} {one : K → Lookup σ (Option Profile)}
    (h : AnswersNamed nameless tells one) : SparesNamed nameless tells (Queries.ofOne one) := by
  have hsettles : ∀ keys : List K, (∀ k ∈ keys, ∀ s, ¬ nameless k s) →
      ∀ k ∈ Batch.unique keys, Queries.Settles tells one k := fun keys hnamed k hk s =>
    h.settles k s (hnamed k ((Batch.mem_unique keys k).mp hk) s)
  have hfails : ∀ (keys : List K) (P : Failure → Prop),
      (∀ f, (f = .misuse .emptyName ∧ ∃ k ∈ keys, ∃ t, nameless k t) → P f) →
      ∀ k ∈ Batch.unique keys, (one k).FailsOnly P := by
    intro keys P hP k hk s f hf
    obtain ⟨hempty, hnameless⟩ := (h.fails_iff k s f).mp hf
    exact hP f ⟨hempty, k, (Batch.mem_unique keys k).mp hk, s, hnameless⟩
  constructor
  · exact h
  · exact fun keys hnamed => Queries.keyByKey_collect (hsettles keys hnamed)
  · exact fun keys hnamed => Queries.keyByKey_visitEach (hsettles keys hnamed)
  · exact fun keys => Queries.failsOnly_collect (hfails keys _ fun _ hf => hf)
  · exact fun keys visitor => Queries.failsOnly_visitEach (hfails keys _ fun _ hf => Or.inl hf)
      fun p t f hf => Or.inr ⟨p, t, hf⟩

end Registry

/-- **A host's registry is let down by players without a name, and by nothing else.** Of a registry
that always replies, be it with nothing, a lookup of a name fails just if the name is empty,
somebody is known by it and there is no other name for that player; a lookup of an id fails just if
the empty text is the name. A batch fails, and a visit does, only for such a key or for the visitor.
All other keys are answered as the registry tells, whoever is unknown among them. -/
theorem host_fails_only_without_name (r : Registry σ) (h : r.Replies) :
    Registry.SparesNamed r.NamelessName r.TellsOfName (Source.host r).byName ∧
      Registry.SparesNamed r.NamelessId r.TellsOfId (Source.host r).byId :=
  ⟨h.answersNamed_findName.sparesNamed_ofOne, h.answersNamed_findId.sparesNamed_ofOne⟩

/-! ## Guests with a name, without one, and unknown ones -/

namespace Guests

def willow : Profile := ⟨⟨1⟩, ⟨"Willow", by decide⟩⟩

/-- A registry that has a name for the first guest, the empty text for the second, and knows
somebody by the empty name for whom it has none. -/
def registry : Registry Unit :=
  .fixed (fun name => if name = "" then some ⟨3⟩ else if name = "willow" then some ⟨1⟩ else none)
    fun id => if id = ⟨1⟩ then some "Willow" else if id = ⟨2⟩ then some "" else none

theorem replies : registry.Replies where
  idOf _ s := ⟨s, _, Lookup.yields_pure _ s⟩
  nameOf _ s := ⟨s, _, Lookup.yields_pure _ s⟩

end Guests

theorem host_fails_only_without_name_guests :
    Guests.registry.Replies ∧
      (((Source.host Guests.registry).byId.one ⟨2⟩).run ()).result =
        .error (.misuse .emptyName) ∧
      ∃ t given, ((Source.host Guests.registry).byId.all [⟨1⟩, ⟨4⟩, ⟨1⟩]).Yields () t
          (given.map (·.profile)) ∧
        KeyByKey Guests.registry.TellsOfId listening [⟨1⟩, ⟨4⟩] () given t (.ok ()) := by
  obtain ⟨-, hids⟩ := host_fails_only_without_name Guests.registry Guests.replies
  refine ⟨Guests.replies, ?_, hids.batch [⟨1⟩, ⟨4⟩, ⟨1⟩] (fun id hid s => ?_) ()⟩
  · exact (hids.single.fails_iff ⟨2⟩ () _).mpr ⟨rfl, (), Lookup.yields_pure _ ()⟩
  · rintro ⟨t, hempty⟩
    have hreply := (hempty.unique (Lookup.yields_pure _ s)).2
    simp only [List.mem_cons, List.not_mem_nil, or_false] at hid
    rcases hid with rfl | rfl | rfl <;> exact absurd hreply (by decide)

/-- A guest with the empty text for a name makes the lookup of the id fail, and the batch and the
visit of a guest who has a name with it; so does the empty name, by which somebody is known. -/
theorem nameless_guest_spoils_batch :
    Guests.registry.Replies ∧
      (((Source.host Guests.registry).byId.one ⟨2⟩).run ()).result =
        .error (.misuse .emptyName) ∧
      (((Source.host Guests.registry).byId.all [⟨1⟩, ⟨2⟩]).run ()).result =
        .error (.misuse .emptyName) ∧
      ((((Source.host Guests.registry).byId.visit [⟨1⟩, ⟨2⟩]).run listening).run ()).result =
        .error (.misuse .emptyName) ∧
      (((Source.host Guests.registry).byId.all [⟨1⟩]).run ()).result = .ok [Guests.willow] ∧
      (((Source.host Guests.registry).byName.all ["willow", ""]).run ()).result =
        .error (.misuse .emptyName) ∧
      (Failure.misuse .emptyName).isIn .configuration = true :=
  ⟨Guests.replies, rfl, rfl, rfl, rfl, rfl, rfl⟩

end PlayerLookup
