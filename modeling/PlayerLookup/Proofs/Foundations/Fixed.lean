import PlayerLookup.Proofs.Foundations.Lookup

/-! Lookups that come to the same from all states of a kind and stay within it or lead to another
kind, lookups that leave a part of the state alone, and lookups to which nothing but a view of the
state matters. -/

set_option autoImplicit false

namespace PlayerLookup.Lookup

variable {σ α β τ : Type}

/-! ## The same from all states of a kind -/

/-- From every kept state the lookup gives the value and leads to a kept state, and only such events
are seen of it. -/
def Gives (kept : σ → Prop) (own : Event → Prop) (m : Lookup σ α) (a : α) : Prop :=
  ∀ s, kept s → ∃ events t, m.run s = ⟨events, t, .ok a⟩ ∧ kept t ∧ ∀ e ∈ events, own e

variable {kept : σ → Prop} {own : Event → Prop} {m : Lookup σ α} {a : α}

theorem gives_of_still (h : ∀ s, kept s → m.run s = ⟨[], s, .ok a⟩) : m.Gives kept own a :=
  fun s hs => ⟨[], s, h s hs, hs, fun _ he => absurd he List.not_mem_nil⟩

theorem gives_pure (a : α) : (pure a : Lookup σ α).Gives kept own a := gives_of_still fun _ _ => rfl

theorem gives_log {level : LogLevel} {component : Component} {message : String}
    {attached : Option Failure} (h : own (.log ⟨level, component, message, attached⟩)) :
    (log level component message attached : Lookup σ Unit).Gives kept own () := by
  intro s hs
  refine ⟨_, s, rfl, hs, fun e he => ?_⟩
  rw [List.mem_singleton.mp he]
  exact h

theorem Gives.result_eq (h : m.Gives kept own a) {s : σ} (hs : kept s) :
    (m.run s).result = .ok a := by
  obtain ⟨events, t, hrun, -⟩ := h s hs
  rw [hrun]

theorem Gives.bind (hm : m.Gives kept own a) {f : α → Lookup σ β} {b : β}
    (hf : (f a).Gives kept own b) : (m >>= f).Gives kept own b := by
  intro s hs
  obtain ⟨events, t, hrun, ht, hevents⟩ := hm s hs
  obtain ⟨more, u, hmore, hu, hrest⟩ := hf t ht
  refine ⟨events ++ more, u, ?_, hu, fun e he => ?_⟩
  · rw [run_bind_ok hrun, hmore]
  · rcases List.mem_append.mp he with he | he
    · exact hevents e he
    · exact hrest e he

theorem Gives.map (hm : m.Gives kept own a) (f : α → β) :
    (do return f (← m) : Lookup σ β).Gives kept own (f a) := hm.bind (gives_pure (f a))

theorem Gives.attempt (hm : m.Gives kept own a) : m.attempt.Gives kept own (.ok a) := by
  intro s hs
  obtain ⟨events, t, hrun, ht, hevents⟩ := hm s hs
  refine ⟨events, t, ?_, ht, hevents⟩
  rw [run_attempt, hrun]

theorem Gives.forEach {f : α → Lookup σ β} {g : α → β} {items : List α}
    (h : ∀ a, (f a).Gives kept own (g a)) : (forEach items f).Gives kept own (items.map g) := by
  induction items with
  | nil => exact gives_pure []
  | cons a rest ih =>
    rw [Lookup.forEach, List.map_cons]
    exact (h a).bind (ih.bind (gives_pure (g a :: rest.map g)))

/-! ## From states of one kind to states of another -/

/-- From every state of one kind the lookup gives the value and leads to a state of another kind. -/
def Leads (before after : σ → Prop) (m : Lookup σ α) (a : α) : Prop :=
  ∀ s, before s → ∃ t, m.Yields s t a ∧ after t

variable {before middle after : σ → Prop}

theorem leads_pure (a : α) : (pure a : Lookup σ α).Leads before before a := fun s hs =>
  ⟨s, yields_pure a s, hs⟩

theorem Gives.leads {kept : σ → Prop} {own : Event → Prop} (h : m.Gives kept own a) :
    m.Leads kept kept a := by
  intro s hs
  obtain ⟨events, t, hrun, ht, -⟩ := h s hs
  exact ⟨t, ⟨events, hrun⟩, ht⟩

theorem leads_log {level : LogLevel} {component : Component} {message : String}
    {attached : Option Failure} :
    (log level component message attached : Lookup σ Unit).Leads before before () := fun s hs =>
  ⟨s, yields_log level component message attached s, hs⟩

theorem Leads.bind {f : α → Lookup σ β} {b : β} (hm : m.Leads before middle a)
    (hf : (f a).Leads middle after b) : (m >>= f).Leads before after b := by
  intro s hs
  obtain ⟨t, hfirst, ht⟩ := hm s hs
  obtain ⟨u, hsecond, hu⟩ := hf t ht
  exact ⟨u, hfirst.bind hsecond, hu⟩

/-- What each turn makes of the turns done before carries over to all of them. -/
theorem leads_forEach (reached : List α → σ → Prop) {f : α → Lookup σ β} {g : α → β}
    {items : List α} (h : ∀ done a rest, items = done ++ a :: rest →
      (f a).Leads (reached done) (reached (done ++ [a])) (g a)) :
    (forEach items f).Leads (reached []) (reached items) (items.map g) := by
  have hrest : ∀ rest done, items = done ++ rest →
      (forEach rest f).Leads (reached done) (reached items) (rest.map g) := by
    intro rest
    induction rest with
    | nil =>
      intro done hitems
      rw [hitems, List.append_nil]
      exact leads_pure []
    | cons a rest ih =>
      intro done hitems
      rw [forEach, List.map_cons]
      refine (h done a rest hitems).bind (.bind (ih (done ++ [a]) ?_) (leads_pure _))
      rw [hitems, List.append_assoc, List.singleton_append]
  exact hrest items [] rfl

/-! ## Parts of the state that are left alone -/

/-- The lookup leaves a part of the state as it is. -/
def LeavesAlone (d : Cell σ τ) (m : Lookup σ α) : Prop := ∀ s, d.get (m.run s).state = d.get s

variable {d : Cell σ τ}

theorem leavesAlone_pure (a : α) : (pure a : Lookup σ α).LeavesAlone d := fun _ => rfl

theorem leavesAlone_fail (f : Failure) : (fail f : Lookup σ α).LeavesAlone d := fun _ => rfl

theorem leavesAlone_ofExcept (r : Except Failure α) : (ofExcept r : Lookup σ α).LeavesAlone d :=
  fun _ => rfl

theorem leavesAlone_emit (e : Event) : (emit e : Lookup σ Unit).LeavesAlone d := fun _ => rfl

theorem leavesAlone_log {level : LogLevel} {component : Component} {message : String}
    {attached : Option Failure} :
    (log level component message attached : Lookup σ Unit).LeavesAlone d := fun _ => rfl

theorem leavesAlone_read (c : Cell σ α) : c.read.LeavesAlone d := fun _ => rfl

theorem LeavesAlone.attempt (h : m.LeavesAlone d) : m.attempt.LeavesAlone d := h

theorem LeavesAlone.bind (hm : m.LeavesAlone d) {f : α → Lookup σ β}
    (hf : ∀ a, (f a).LeavesAlone d) : (m >>= f).LeavesAlone d := by
  intro s
  have hstate := hm s
  rcases hrun : m.run s with ⟨events, t, result⟩
  rw [hrun] at hstate
  cases result with
  | error f =>
    rw [run_bind_error hrun]
    exact hstate
  | ok a =>
    rw [run_bind_ok hrun]
    exact (hf a t).trans hstate

/-! ## Views of the state -/

/-- What the lookup gives, and what is viewed after it, depends on nothing but what is viewed before
it. -/
def DependsOn (view : σ → τ) (m : Lookup σ α) : Prop :=
  ∀ s u, view u = view s → (m.run u).result = (m.run s).result ∧
    view (m.run u).state = view (m.run s).state

variable {view : σ → τ}

theorem dependsOn_pure (a : α) : (pure a : Lookup σ α).DependsOn view := fun _ _ h => ⟨rfl, h⟩

theorem dependsOn_ofExcept (r : Except Failure α) : (ofExcept r : Lookup σ α).DependsOn view :=
  fun _ _ h => ⟨rfl, h⟩

theorem dependsOn_read (f : τ → α) : (read fun s : σ => f (view s)).DependsOn view :=
  fun _ _ h => ⟨congrArg (fun t => Except.ok (f t)) h, h⟩

theorem DependsOn.bind (hm : m.DependsOn view) {f : α → Lookup σ β}
    (hf : ∀ a, (f a).DependsOn view) : (m >>= f).DependsOn view := by
  intro s u h
  obtain ⟨hresult, hstate⟩ := hm s u h
  rcases hrun : m.run s with ⟨events, t, result⟩
  rcases hrun' : m.run u with ⟨events', t', result'⟩
  rw [hrun, hrun'] at hresult hstate
  obtain rfl : result' = result := hresult
  cases result' with
  | error f =>
    rw [run_bind_error hrun, run_bind_error hrun']
    exact ⟨rfl, hstate⟩
  | ok a =>
    rw [run_bind_ok hrun, run_bind_ok hrun']
    exact hf a t t' hstate

end PlayerLookup.Lookup
