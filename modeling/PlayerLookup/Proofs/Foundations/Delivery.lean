import PlayerLookup.Delivery

/-! How a delivery goes on that was put together from others, and the lookup that comes of it when
it is run with a visitor. -/

set_option autoImplicit false

namespace PlayerLookup.Delivery

variable {σ α β γ : Type}

theorem read_bind (next : σ → Delivery σ α) (f : α → Delivery σ β) :
    (read next >>= f) = read fun s => next s >>= f := rfl

theorem write_bind (events : List Event) (s : σ) (next : Delivery σ α)
    (f : α → Delivery σ β) : (write events s next >>= f) = write events s (next >>= f) := rfl

theorem give_bind (p : Profile) (next : Except Failure Document → Delivery σ α)
    (f : α → Delivery σ β) : (give p next >>= f) = give p fun answer => next answer >>= f := rfl

theorem bind_assoc (d : Delivery σ α) (f : α → Delivery σ β) (g : β → Delivery σ γ) :
    ((d >>= f) >>= g) = (d >>= fun a => f a >>= g) := by
  induction d with
  | done result => cases result <;> rfl
  | read next ih =>
    rw [read_bind, read_bind, read_bind]
    congr 1
    funext s
    exact ih s
  | write events s next ih => rw [write_bind, write_bind, write_bind, ih]
  | give p next ih =>
    rw [give_bind, give_bind, give_bind]
    congr 1
    funext answer
    exact ih answer

/-! ## Running with a visitor -/

/-- The lookup that does just what a delivery has written down. -/
def writing (events : List Event) (t : σ) : Lookup σ Unit := fun _ => ⟨events, t, .ok ()⟩

variable (visitor : Profile → Lookup σ Document)

theorem run_pure (a : α) : (pure a : Delivery σ α).run visitor = pure a := rfl

theorem run_write (events : List Event) (t : σ) (next : Delivery σ α) :
    (write events t next).run visitor = writing events t >>= fun _ => next.run visitor := rfl

theorem run_write_run (events : List Event) (s t : σ) (next : Delivery σ α) :
    ((write events t next).run visitor).run s =
      ⟨events ++ ((next.run visitor).run t).events, ((next.run visitor).run t).state,
        ((next.run visitor).run t).result⟩ := rfl

theorem run_give (p : Profile) (next : Except Failure Document → Delivery σ α) :
    (give p next).run visitor = (visitor p).attempt >>= fun a => (next a).run visitor := rfl

theorem run_ofLookup (m : Lookup σ α) : (ofLookup m).run visitor = m := by
  funext s
  change Run.mk ((m s).events ++ []) (m s).state (m s).result = m s
  rw [List.append_nil]

theorem run_bind (d : Delivery σ α) (f : α → Delivery σ β) :
    (d >>= f).run visitor = d.run visitor >>= fun a => (f a).run visitor := by
  induction d with
  | done result => cases result <;> rfl
  | read next ih =>
    rw [read_bind]
    funext s
    exact congrFun (ih s) s
  | write events t next ih => rw [write_bind, run_write, run_write, ih, LawfulMonad.bind_assoc]
  | give p next ih =>
    rw [give_bind, run_give, run_give, LawfulMonad.bind_assoc]
    congr 1
    funext a
    exact ih a

theorem run_ask (p : Profile) : (ask p : Delivery σ Document).run visitor = visitor p := by
  funext s
  change Run.mk ((visitor p s).events ++ []) (visitor p s).state (visitor p s).result = _
  rw [List.append_nil]

theorem run_attempt (d : Delivery σ α) : d.attempt.run visitor = (d.run visitor).attempt := by
  induction d with
  | done result => rfl
  | read next ih =>
    funext s
    exact congrFun (ih s) s
  | write events t next ih =>
    change (write events t next.attempt).run visitor = _
    rw [run_write, run_write, ih]
    rfl
  | give p next ih =>
    change (give p fun a => (next a).attempt).run visitor = _
    rw [run_give, run_give]
    simp only [ih]
    rfl

end PlayerLookup.Delivery
