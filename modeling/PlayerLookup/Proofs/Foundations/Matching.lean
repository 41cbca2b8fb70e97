import PlayerLookup.Proofs.Foundations.Outcomes
import PlayerLookup.Proofs.Foundations.Traffic

/-! Two lookups side by side. They match if from every state they lead to the same state with the
same requests and pauses, and fail in the same way or give values that are related; what they log
may differ. -/

set_option autoImplicit false

namespace PlayerLookup.Lookup

variable {σ α β γ δ : Type}

/-- How two runs from one state match. -/
structure RunsMatch (R : α → β → Prop) (run : Run σ α) (run' : Run σ β) : Prop where
  state_eq : run.state = run'.state
  traffic_eq : traffic run.events = traffic run'.events
  result : Agree R run.result run'.result

def Matches (R : α → β → Prop) (m : Lookup σ α) (m' : Lookup σ β) : Prop :=
  ∀ s, RunsMatch R (m.run s) (m'.run s)

variable {R : α → β → Prop} {S : γ → δ → Prop} {m : Lookup σ α} {m' : Lookup σ β}

theorem matches_refl {R : α → α → Prop} (hR : ∀ a, R a a) (m : Lookup σ α) : Matches R m m :=
  fun s => ⟨rfl, rfl, .refl hR (m.run s).result⟩

theorem matches_self (m : Lookup σ α) : Matches Eq m m := matches_refl (fun _ => rfl) m

theorem matches_pure {a : α} {b : β} (h : R a b) :
    Matches R (pure a : Lookup σ α) (pure b : Lookup σ β) := fun _ => ⟨rfl, rfl, .ok h⟩

theorem matches_ofExcept {x : Except Failure α} {y : Except Failure β} (h : Agree R x y) :
    Matches R (ofExcept x : Lookup σ α) (ofExcept y : Lookup σ β) := fun _ => ⟨rfl, rfl, h⟩

theorem Matches.bind (hm : Matches R m m') {f : α → Lookup σ γ} {g : β → Lookup σ δ}
    (hfg : ∀ a b, R a b → Matches S (f a) (g b)) : Matches S (m >>= f) (m' >>= g) := by
  intro s
  obtain ⟨hstate, htraffic, hresult⟩ := hm s
  rcases hrun : m.run s with ⟨events, t, result⟩
  rcases hrun' : m'.run s with ⟨events', t', result'⟩
  rw [hrun, hrun'] at hstate htraffic hresult
  dsimp only at hstate htraffic hresult
  subst hstate
  cases hresult with
  | error e =>
    rw [run_bind_error hrun, run_bind_error hrun']
    exact ⟨rfl, htraffic, .error e⟩
  | @ok a b hab =>
    obtain ⟨hstate, hrest, hresult⟩ := hfg a b hab t
    rw [run_bind_ok hrun, run_bind_ok hrun']
    refine ⟨hstate, ?_, hresult⟩
    rw [traffic_append, traffic_append, htraffic, hrest]

theorem Matches.bind_eq {m m' : Lookup σ α} (hm : Matches Eq m m') {f : α → Lookup σ γ}
    {g : α → Lookup σ δ} (hfg : ∀ a, Matches S (f a) (g a)) : Matches S (m >>= f) (m' >>= g) :=
  hm.bind fun a _ hab => hab ▸ hfg a

theorem Matches.attempt (hm : Matches R m m') : Matches (Agree R) m.attempt m'.attempt := fun s =>
  ⟨(hm s).state_eq, (hm s).traffic_eq, .ok (hm s).result⟩

theorem matches_of_logs {component : Component} (hm : m.Logs component) (hm' : m'.Logs component)
    {a : α} {b : β} (ha : ∀ s, (m.run s).result = .ok a) (hb : ∀ s, (m'.run s).result = .ok b)
    (hab : R a b) : Matches R m m' := by
  intro s
  obtain ⟨⟨hstate, hlogs⟩, -⟩ := hm s
  obtain ⟨⟨hstate', hlogs'⟩, -⟩ := hm' s
  refine ⟨hstate.trans hstate'.symm, ?_, ?_⟩
  · rw [traffic_of_logs hlogs, traffic_of_logs hlogs']
  · rw [ha, hb]
    exact .ok hab

end PlayerLookup.Lookup
