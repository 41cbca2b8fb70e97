import PlayerLookup.Cell

/-! How a lookup goes that was put together from others. -/

set_option autoImplicit false

namespace PlayerLookup

def Event.IsLogOf (component : Component) (e : Event) : Prop :=
  ∃ record : LogRecord, e = .log record ∧ record.component = component

end PlayerLookup

theorem Except.eq_ok_of_toOption {ε α : Type} {r : Except ε α} {a : α}
    (h : r.toOption = some a) : r = .ok a := by
  cases r with
  | ok b => rw [Option.some.inj h]
  | error e => cases h

namespace PlayerLookup.Lookup

variable {σ α β : Type}

@[simp] theorem run_pure (a : α) (s : σ) : (pure a : Lookup σ α).run s = ⟨[], s, .ok a⟩ := rfl

@[simp] theorem run_read (f : σ → α) (s : σ) : (read f).run s = ⟨[], s, .ok (f s)⟩ := rfl

@[simp] theorem run_fail (f : Failure) (s : σ) :
    (fail f : Lookup σ α).run s = ⟨[], s, .error f⟩ := rfl

theorem run_attempt (m : Lookup σ α) (s : σ) :
    m.attempt.run s = ⟨(m.run s).events, (m.run s).state, .ok (m.run s).result⟩ := rfl

theorem run_bind_ok {m : Lookup σ α} {s t : σ} {events : List Event} {a : α}
    (h : m.run s = ⟨events, t, .ok a⟩) (f : α → Lookup σ β) :
    (m >>= f).run s =
      ⟨events ++ ((f a).run t).events, ((f a).run t).state, ((f a).run t).result⟩ := by
  have hm : m s = ⟨events, t, .ok a⟩ := h
  change m.andThen f s = _
  simp only [andThen, hm]
  rfl

theorem run_bind_error {m : Lookup σ α} {s t : σ} {events : List Event} {e : Failure}
    (h : m.run s = ⟨events, t, .error e⟩) (f : α → Lookup σ β) :
    (m >>= f).run s = ⟨events, t, .error e⟩ := by
  have hm : m s = ⟨events, t, .error e⟩ := h
  change m.andThen f s = _
  simp only [andThen, hm]

theorem result_bind_eq_ok {m : Lookup σ α} {f : α → Lookup σ β} {s : σ} {b : β}
    (h : ((m >>= f).run s).result = .ok b) :
    ∃ events t a, m.run s = ⟨events, t, .ok a⟩ ∧ ((f a).run t).result = .ok b := by
  rcases hrun : m.run s with ⟨events, t, result⟩
  cases result with
  | error e =>
    rw [run_bind_error hrun] at h
    cases h
  | ok a =>
    rw [run_bind_ok hrun] at h
    exact ⟨events, t, a, rfl, h⟩

theorem result_bind_eq_error {m : Lookup σ α} {f : α → Lookup σ β} {s : σ} {e : Failure} :
    ((m >>= f).run s).result = .error e ↔ (m.run s).result = .error e ∨
      ∃ events t a, m.run s = ⟨events, t, .ok a⟩ ∧ ((f a).run t).result = .error e := by
  rcases hrun : m.run s with ⟨events, t, result⟩
  cases result with
  | error e' =>
    rw [run_bind_error hrun]
    constructor
    · exact fun h => Or.inl (congrArg Except.error (Except.error.inj h))
    · rintro (h | ⟨_, _, _, h, _⟩)
      · exact congrArg Except.error (Except.error.inj h)
      · cases h
  | ok a =>
    rw [run_bind_ok hrun]
    constructor
    · exact fun h => Or.inr ⟨events, t, a, rfl, h⟩
    · rintro (h | ⟨_, _, _, h, hrest⟩)
      · cases h
      · cases h
        exact hrest

theorem run_bind_quiet {m : Lookup σ α} {s t : σ} {a : α} (h : m.run s = ⟨[], t, .ok a⟩)
    (f : α → Lookup σ β) : (m >>= f).run s = (f a).run t := by
  rw [run_bind_ok h]
  rfl

theorem run_bind_congr {m m' : Lookup σ α} {s : σ} (h : m.run s = m'.run s)
    (f : α → Lookup σ β) : (m >>= f).run s = (m' >>= f).run s := by
  have hm : m s = m' s := h
  change m.andThen f s = m'.andThen f s
  simp only [andThen, hm]

theorem run_bind_pure {m : Lookup σ α} {s t : σ} {events : List Event} {r : Except Failure α}
    (h : m.run s = ⟨events, t, r⟩) (f : α → β) :
    (do return f (← m) : Lookup σ β).run s = ⟨events, t, r.map f⟩ := by
  cases r with
  | ok a =>
    rw [run_bind_ok h]
    simp [Except.map]
  | error e => exact run_bind_error h _

theorem run_map (m : Lookup σ α) (f : α → β) (s : σ) :
    (do return f (← m) : Lookup σ β).run s =
      ⟨(m.run s).events, (m.run s).state, (m.run s).result.map f⟩ :=
  run_bind_pure (rfl : m.run s = ⟨_, _, _⟩) f

theorem rescue_run_ordinary {m : Lookup σ α} {handle : Failure → Lookup σ α} {s t : σ}
    {events : List Event} {f : Failure} (h : m.run s = ⟨events, t, .error f⟩)
    (hf : f.isOrdinary = true) :
    (m.rescue handle).run s = ⟨events ++ ((handle f).run t).events, ((handle f).run t).state,
      ((handle f).run t).result⟩ := by
  have htry : m.attempt.run s = ⟨events, t, .ok (.error f)⟩ := by rw [run_attempt, h]
  rw [rescue, run_bind_ok htry]
  simp only [hf, if_true]

theorem rescue_run_ok {m : Lookup σ α} {handle : Failure → Lookup σ α} {s t : σ}
    {events : List Event} {a : α} (h : m.run s = ⟨events, t, .ok a⟩) :
    (m.rescue handle).run s = ⟨events, t, .ok a⟩ := by
  have htry : m.attempt.run s = ⟨events, t, .ok (.ok a)⟩ := by rw [run_attempt, h]
  rw [rescue, run_bind_ok htry]
  exact congrArg (Run.mk · t _) (List.append_nil events)

theorem result_rescue_eq_ok {m : Lookup σ α} {handle : Failure → Lookup σ α} {s : σ} {a : α}
    (hhandle : ∀ f t, ((handle f).run t).result ≠ .ok a)
    (h : ((m.rescue handle).run s).result = .ok a) : (m.run s).result = .ok a := by
  obtain ⟨_, t, result, hattempt, hrest⟩ := result_bind_eq_ok h
  rw [run_attempt] at hattempt
  obtain ⟨-, rfl, hresult⟩ := Run.mk.inj hattempt
  rw [Except.ok.inj hresult]
  cases result with
  | ok b => exact hrest
  | error f =>
    by_cases hf : f.isOrdinary = true
    · simp only [hf, if_true] at hrest
      exact absurd hrest (hhandle f _)
    · simp only [hf] at hrest
      cases hrest

/-! ## Lookups of which nothing but a log is seen -/

/-- The lookup leaves the state as it is, and only log records of a component are seen of it. -/
def OnlyLogs (component : Component) (m : Lookup σ α) (s : σ) : Prop :=
  (m.run s).state = s ∧ ∀ e ∈ (m.run s).events, e.IsLogOf component

variable {component : Component}

theorem onlyLogs_pure (component : Component) (a : α) (s : σ) :
    OnlyLogs component (pure a) s := ⟨rfl, fun _ he => absurd he List.not_mem_nil⟩

theorem onlyLogs_fail (component : Component) (f : Failure) (s : σ) :
    OnlyLogs component (fail f : Lookup σ α) s := ⟨rfl, fun _ he => absurd he List.not_mem_nil⟩

theorem onlyLogs_log (level : LogLevel) (component : Component) (message : String)
    (attached : Option Failure) (s : σ) :
    OnlyLogs component (log level component message attached) s :=
  ⟨rfl, fun _ he => ⟨_, List.mem_singleton.mp he, rfl⟩⟩

theorem OnlyLogs.bind {m : Lookup σ α} {f : α → Lookup σ β} {s : σ} (hm : m.OnlyLogs component s)
    (hf : ∀ a, (f a).OnlyLogs component s) : (m >>= f).OnlyLogs component s := by
  obtain ⟨hstate, hevents⟩ := hm
  rcases hrun : m.run s with ⟨events, t, result⟩
  rw [hrun] at hstate hevents
  dsimp only at hstate hevents
  subst hstate
  unfold OnlyLogs
  cases result with
  | error e =>
    rw [run_bind_error hrun]
    exact ⟨rfl, hevents⟩
  | ok a =>
    rw [run_bind_ok hrun]
    refine ⟨(hf a).1, fun e he => ?_⟩
    rcases List.mem_append.mp he with he | he
    · exact hevents e he
    · exact (hf a).2 e he

theorem OnlyLogs.result_bind {m : Lookup σ α} {s : σ} (hm : m.OnlyLogs component s)
    (f : α → Lookup σ β) :
    ((m >>= f).run s).result = (m.run s).result.bind fun a => ((f a).run s).result := by
  have hstate := hm.1
  rcases hrun : m.run s with ⟨events, t, result⟩
  rw [hrun] at hstate
  dsimp only at hstate
  subst hstate
  cases result with
  | error e =>
    rw [run_bind_error hrun]
    rfl
  | ok a =>
    rw [run_bind_ok hrun]
    rfl

/-- From every state the lookup only logs, and gives something. -/
def Logs (component : Component) (m : Lookup σ α) : Prop :=
  ∀ s, m.OnlyLogs component s ∧ ∃ a, (m.run s).result = .ok a

theorem logs_pure (component : Component) (a : α) : Logs component (pure a : Lookup σ α) :=
  fun s => ⟨onlyLogs_pure component a s, a, rfl⟩

theorem logs_log (level : LogLevel) (component : Component) (message : String)
    (attached : Option Failure) :
    Logs component (log level component message attached : Lookup σ Unit) :=
  fun s => ⟨onlyLogs_log level component message attached s, (), rfl⟩

theorem Logs.bind {m : Lookup σ α} {f : α → Lookup σ β} (hm : m.Logs component)
    (hf : ∀ a, (f a).Logs component) : (m >>= f).Logs component := by
  intro s
  obtain ⟨honly, a, ha⟩ := hm s
  obtain ⟨b, hb⟩ := (hf a s).2
  refine ⟨honly.bind fun a => (hf a s).1, b, ?_⟩
  rw [honly.result_bind, ha]
  exact hb

theorem Logs.forEach {items : List α} {f : α → Lookup σ β} (hf : ∀ a, (f a).Logs component) :
    (forEach items f).Logs component := by
  induction items with
  | nil => exact logs_pure component []
  | cons a rest ih => exact (hf a).bind fun b => ih.bind fun bs => logs_pure component (b :: bs)

/-! ## Results without regard to what can be seen -/

/-- The lookup leads from a state to a state with a value, whatever it lets be seen. -/
def Yields (m : Lookup σ α) (s t : σ) (a : α) : Prop := ∃ events, m.run s = ⟨events, t, .ok a⟩

theorem yields_of_run {m : Lookup σ α} {s t : σ} {events : List Event} {a : α}
    (h : m.run s = ⟨events, t, .ok a⟩) : m.Yields s t a := ⟨events, h⟩

theorem yields_pure (a : α) (s : σ) : (pure a : Lookup σ α).Yields s s a := ⟨[], rfl⟩

theorem yields_log (level : LogLevel) (component : Component) (message : String)
    (attached : Option Failure) (s : σ) :
    (log level component message attached).Yields s s () :=
  ⟨[.log ⟨level, component, message, attached⟩], rfl⟩

theorem Yields.bind {m : Lookup σ α} {f : α → Lookup σ β} {s t u : σ} {a : α} {b : β}
    (hm : m.Yields s t a) (hf : (f a).Yields t u b) : (m >>= f).Yields s u b := by
  obtain ⟨first, hfirst⟩ := hm
  obtain ⟨second, hsecond⟩ := hf
  refine ⟨first ++ second, ?_⟩
  rw [run_bind_ok hfirst, hsecond]

theorem Yields.unique {m : Lookup σ α} {s t u : σ} {a b : α} (h : m.Yields s t a)
    (h' : m.Yields s u b) : t = u ∧ a = b := by
  obtain ⟨events, hrun⟩ := h
  obtain ⟨events', hrun'⟩ := h'
  rw [hrun] at hrun'
  obtain ⟨-, ht, hresult⟩ := Run.mk.inj hrun'
  exact ⟨ht, Except.ok.inj hresult⟩

theorem Yields.result_eq {m : Lookup σ α} {s t : σ} {a : α} (h : m.Yields s t a) :
    (m.run s).result = .ok a := by
  obtain ⟨events, hrun⟩ := h
  rw [hrun]

theorem Yields.result_bind {m : Lookup σ α} {s t : σ} {a : α} (h : m.Yields s t a)
    (f : α → Lookup σ β) : ((m >>= f).run s).result = ((f a).run t).result := by
  obtain ⟨events, hrun⟩ := h
  rw [run_bind_ok hrun]

/-! ## Lookups that fail in few ways -/

/-- Whatever state the lookup starts from, it fails in such a way if at all. -/
def FailsOnly (P : Failure → Prop) (m : Lookup σ α) : Prop :=
  ∀ s f, (m.run s).result = .error f → P f

variable {P : Failure → Prop}

theorem failsOnly_pure (a : α) : (pure a : Lookup σ α).FailsOnly P := fun _ _ h => by cases h

theorem failsOnly_ofExcept {r : Except Failure α} (h : ∀ f, r = .error f → P f) :
    (ofExcept r : Lookup σ α).FailsOnly P := fun _ f hf => h f hf

theorem failsOnly_fail {f : Failure} (h : P f) : (fail f : Lookup σ α).FailsOnly P :=
  fun _ _ hf => Except.error.inj hf ▸ h

theorem failsOnly_log (level : LogLevel) (component : Component) (message : String)
    (attached : Option Failure) :
    (log level component message attached : Lookup σ Unit).FailsOnly P := fun _ _ h => by cases h

theorem FailsOnly.bind {m : Lookup σ α} {f : α → Lookup σ β} (hm : m.FailsOnly P)
    (hf : ∀ a, (f a).FailsOnly P) : (m >>= f).FailsOnly P := by
  intro s e he
  rcases result_bind_eq_error.mp he with hfirst | ⟨events, t, a, -, hrest⟩
  · exact hm s e hfirst
  · exact hf a t e hrest

theorem FailsOnly.rescue {m : Lookup σ α} {handle : Failure → Lookup σ α} (hm : m.FailsOnly P)
    (hhandle : ∀ f, P f → (handle f).FailsOnly P) : (m.rescue handle).FailsOnly P := by
  intro s e he
  rcases result_bind_eq_error.mp he with hattempt | ⟨events, t, result, hattempt, hrest⟩
  · cases hattempt
  · rw [run_attempt] at hattempt
    have hresult : (m.run s).result = result := Except.ok.inj (Run.mk.inj hattempt).2.2
    cases result with
    | ok a => cases hrest
    | error f =>
      have hf := hm s f hresult
      by_cases hordinary : f.isOrdinary = true
      · simp only [hordinary, if_true] at hrest
        exact hhandle f hf t e hrest
      · simp only [hordinary] at hrest
        exact failsOnly_fail hf t e hrest

end PlayerLookup.Lookup

namespace PlayerLookup.Cell

variable {σ α : Type}

@[simp] theorem run_read (c : Cell σ α) (s : σ) : c.read.run s = ⟨[], s, .ok (c.get s)⟩ := rfl

@[simp] theorem run_write (c : Cell σ α) (a : α) (s : σ) :
    (c.write a).run s = ⟨[], c.set s a, .ok ()⟩ := rfl

theorem Apart.within {τ β : Type} {outer : Cell σ τ} {d : Cell σ β} (h : outer.Apart d)
    (inner : Cell τ α) : (outer.within inner).Apart d := fun s a =>
  h s (inner.set (outer.get s) a)

variable {β : Type}

def first : Cell (α × β) α where
  get s := s.1
  set s a := (a, s.2)
  get_set _ _ := rfl

def second : Cell (α × β) β where
  get s := s.2
  set s b := (s.1, b)
  get_set _ _ := rfl

end PlayerLookup.Cell
