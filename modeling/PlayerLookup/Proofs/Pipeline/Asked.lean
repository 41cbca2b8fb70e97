import PlayerLookup.Proofs.Cache.History
import PlayerLookup.Proofs.Pipeline.Unresolved
import PlayerLookup.Proofs.Remote.Histories

/-! Sources that give nothing that was not asked for: whatever they come upon, a batch of ids has
only profiles of these ids. Of names this holds if the remote source answers each request so. -/

set_option autoImplicit false

namespace PlayerLookup

variable {σ K κ : Type}

/-- A batch has only profiles whose keys were asked for. -/
def Queries.AnswersAsked (keyOf : Profile → K) (q : Queries σ K) : Prop :=
  ∀ keys s ps, ((q.all keys).run s).result = .ok ps → ∀ p ∈ ps, keyOf p ∈ keys

variable {keyOf : Profile → K}

theorem Queries.key_mem_of_collect {one : K → Lookup σ (Option Profile)}
    (h : ∀ k s p, ((one k).run s).result = .ok (some p) → keyOf p = k) {keys : List K} {s : σ}
    {ps : List Profile} (hok : ((collect one keys).run s).result = .ok ps) {p : Profile}
    (hp : p ∈ ps) : keyOf p ∈ keys := by
  induction keys generalizing s ps with
  | nil =>
    obtain rfl := Except.ok.inj hok
    exact absurd hp List.not_mem_nil
  | cons k rest ih =>
    obtain ⟨_, t, found, hone, hrest⟩ := Lookup.result_bind_eq_ok hok
    obtain ⟨_, u, more, hmore, hpure⟩ := Lookup.result_bind_eq_ok hrest
    obtain rfl := Except.ok.inj hpure
    rcases List.mem_append.mp hp with hp | hp
    · obtain rfl := Option.mem_toList.mp hp
      rw [h k s p (by rw [hone])]
      exact List.mem_cons_self
    · exact List.mem_cons_of_mem k (ih (s := t) (by rw [hmore]) hp)

theorem Queries.answersAsked_ofOne [DecidableEq K] {one : K → Lookup σ (Option Profile)}
    (h : ∀ k s p, ((one k).run s).result = .ok (some p) → keyOf p = k) :
    (ofOne one).AnswersAsked keyOf := by
  intro keys s ps hok p hp
  rw [← Batch.mem_unique]
  exact key_mem_of_collect h hok hp

theorem Queries.Answers.answersAsked {own : Event → Prop} {answer : K → Option Profile}
    {q : Queries σ K} (h : q.Answers (fun _ => True) own keyOf answer) : q.AnswersAsked keyOf := by
  intro keys s ps hok p hp
  obtain ⟨found, hfound, hbatch, -⟩ := h.batch keys
  obtain ⟨events, t, hrun, -, -⟩ := hbatch s trivial
  rw [hrun] at hok
  obtain rfl := Except.ok.inj hok
  exact ((hfound.mem_iff p).mp hp).1

/-! ## The members of a chain -/

theorem Source.answersAsked_localMap (cell : Cell σ LocalMap) :
    (Source.localMap cell).byId.AnswersAsked Profile.id := by
  refine Queries.answersAsked_ofOne fun id s p h => ?_
  have hp : (cell.get s).byId? id = some p := Except.ok.inj h
  obtain ⟨n, -, rfl⟩ := Option.map_eq_some_iff.mp hp
  rfl

theorem Source.answersAsked_cached (cell : Cell σ Memory) :
    (Source.cached (.memory cell)).byId.AnswersAsked Profile.id := by
  intro ids s ps hok p hp
  obtain rfl := Except.ok.inj hok
  rw [← Batch.mem_unique]
  exact (((cell.get s).mem_profiles _ p).mp hp).1

theorem Source.answersAsked_remote (r : Remote σ) :
    (Source.remote r).byId.AnswersAsked Profile.id := by
  refine Queries.answersAsked_ofOne fun id s p h => ?_
  obtain ⟨_, t, url, -, hlogged⟩ := Lookup.result_bind_eq_ok h
  obtain ⟨_, u, _, -, hexchange⟩ := Lookup.result_bind_eq_ok hlogged
  obtain ⟨_, v, history, -, hdecoded⟩ := Lookup.result_bind_eq_ok hexchange
  have hgives : (Remote.decodeHistory id history : Lookup σ (Option Profile)).Gives
    (fun _ => True) (fun _ => True) (Remote.lastUsable id history) :=
    Remote.gives_decodeHistory id history
  obtain ⟨events, w, hrun, -, -⟩ := hgives v trivial
  rw [hrun] at hdecoded
  exact Remote.id_of_lastUsable (Except.ok.inj hdecoded)

/-! ## Names of the remote source -/

namespace Remote

variable {r : Remote σ}

/-- A request brings only profiles of the names in its body. -/
def AnswersBodies (r : Remote σ) : Prop :=
  ∀ names s ps, ((r.queryNames names).run s).result = .ok ps → ∀ p ∈ ps, p.name.text ∈ names

theorem AnswersBodies.queryBodies (h : r.AnswersBodies) {bodies : List (List String)} {s : σ}
    {ps : List Profile} (hok : ((r.queryBodies bodies).run s).result = .ok ps) {p : Profile}
    (hp : p ∈ ps) : p.name.text ∈ bodies.flatten := by
  induction bodies generalizing s ps with
  | nil =>
    obtain rfl := Except.ok.inj hok
    exact absurd hp List.not_mem_nil
  | cons names rest ih =>
    obtain ⟨_, t, found, hfound, hrest⟩ := Lookup.result_bind_eq_ok hok
    obtain ⟨_, u, more, hmore, hpure⟩ := Lookup.result_bind_eq_ok hrest
    obtain rfl := Except.ok.inj hpure
    rw [List.flatten_cons, List.mem_append]
    rcases List.mem_append.mp hp with hp | hp
    · exact Or.inl (h names s found (by rw [hfound]) p hp)
    · exact Or.inr (ih (s := t) (by rw [hmore]) hp)

theorem AnswersBodies.answersAsked (h : r.AnswersBodies) :
    (Source.remote r).byName.AnswersAsked (·.name.text) := by
  intro names s ps hok p hp
  obtain ⟨_, t, all, hall, hpure⟩ := Lookup.result_bind_eq_ok hok
  obtain rfl := Except.ok.inj hpure
  have hmem : p ∈ all := (Batch.uniqueFrom_sublist Profile.id [] all).subset hp
  have hbodies := h.queryBodies (s := s) (by rw [hall]) hmem
  rwa [bodies, Batch.flatten_chunks, Batch.mem_unique] at hbodies

theorem FixedNames.answersBodies {answer : List String → Document}
    (h : r.FixedNames (fun _ => True) answer)
    (hasked : ∀ names, ∀ p ∈ usable (answer names), p.name.text ∈ names) : r.AnswersBodies := by
  intro names s ps hok p hp
  by_cases hnil : names = []
  · rw [hnil] at hok
    obtain rfl := Except.ok.inj hok
    exact absurd hp List.not_mem_nil
  · obtain ⟨events, t, hrun, -, -⟩ := h.queryNames hnil s trivial
    rw [hrun] at hok
    obtain rfl := Except.ok.inj hok
    exact hasked names p hp

end Remote

/-! ## Combinations -/

theorem Queries.answersAsked_combined [DecidableEq K] {members : List (String × Queries σ K)}
    (h : ∀ m ∈ members, m.2.AnswersAsked keyOf) :
    (combined id keyOf members).AnswersAsked keyOf := by
  intro keys s ps hok p hp
  obtain ⟨turns, hturns⟩ := combined_answeredInTurn id keyOf members keys s
  obtain ⟨t, ht, hpt⟩ := (hturns.firstOfEach hok).exists_turn hp
  obtain ⟨before, after, hsplit⟩ := List.append_of_mem ht
  have hfollows := hturns.in_turn.follows before t after hsplit
  have hmember : t.member ∈ members :=
    hturns.in_turn.in_order.subset (List.mem_map_of_mem ht)
  have hasked : keyOf p ∈ t.asked := by
    refine h t.member hmember t.asked (Turn.leftBy s before) t.found ?_ p hpt
    change ((t.source.all t.asked).run (Turn.leftBy s before)).result = _
    rw [← hfollows.outcome_eq]
    cases hresult : t.outcome.result with
    | ok found => rw [Turn.found, hresult]; rfl
    | error f =>
      rw [Turn.found, hresult] at hpt
      exact absurd hpt List.not_mem_nil
  rw [hfollows.asked_eq, openKeys, List.mem_filter] at hasked
  exact (Batch.uniqueFrom_sublist id [] keys).subset hasked.1

end PlayerLookup
