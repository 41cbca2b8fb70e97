import PlayerLookup.Proofs.Foundations.Delivery
import PlayerLookup.Proofs.Foundations.Fixed
import PlayerLookup.Source

/-! What is given to a visitor that never stops. A delivery that depends on nothing but what a state
of some kind fixes gives the same profiles in the same order to every such visitor. -/

set_option autoImplicit false

namespace PlayerLookup

variable {σ K α β : Type}

/-- From kept states the visitor neither fails nor asks to stop, and it leads to kept states. -/
def NeverStops (kept : σ → Prop) (visitor : Profile → Lookup σ Document) : Prop :=
  ∀ p s, kept s → ∃ events t answer, (visitor p).run s = ⟨events, t, .ok answer⟩ ∧
    answer.stops = false ∧ kept t

namespace Delivery

/-- The profiles that a delivery gives to a visitor, in order. -/
def given (visitor : Profile → Lookup σ Document) : Delivery σ α → σ → List Profile
  | .done _, _ => []
  | .read next, s => (next s).given visitor s
  | .write _ t next, _ => next.given visitor t
  | .give p next, s =>
    let a := visitor p s
    p :: (next a.result).given visitor a.state

/-- From a state the delivery gives these profiles and ends with a value, whatever state it finds
after a profile was given and whatever the answer was, if the state is kept and the answer does not
ask to stop. -/
inductive Delivers (kept : σ → Prop) : Delivery σ α → σ → List Profile → α → Prop where
  | done {s : σ} (a : α) (hs : kept s) : Delivers kept (.done (.ok a)) s [] a
  | read {next : σ → Delivery σ α} {s : σ} {ps : List Profile} {a : α}
      (h : Delivers kept (next s) s ps a) : Delivers kept (.read next) s ps a
  | write {events : List Event} {t s : σ} {next : Delivery σ α} {ps : List Profile} {a : α}
      (h : Delivers kept next t ps a) : Delivers kept (.write events t next) s ps a
  | give {p : Profile} {next : Except Failure Document → Delivery σ α} {s : σ}
      {ps : List Profile} {a : α} (hs : kept s)
      (h : ∀ answer t, answer.stops = false → kept t → Delivers kept (next (.ok answer)) t ps a) :
      Delivers kept (.give p next) s (p :: ps) a

variable {kept : σ → Prop}

theorem Delivers.bind {d : Delivery σ α} {f : α → Delivery σ β} {s : σ} {ps qs : List Profile}
    {a : α} {b : β} (hd : Delivers kept d s ps a)
    (hf : ∀ t, kept t → Delivers kept (f a) t qs b) : Delivers kept (d >>= f) s (ps ++ qs) b := by
  induction hd with
  | done a hs => exact hf _ hs
  | read _ ih =>
    rw [read_bind]
    exact .read (ih hf)
  | write _ ih =>
    rw [write_bind]
    exact .write (ih hf)
  | give hs _ ih =>
    rw [give_bind, List.cons_append]
    exact .give hs fun answer t hanswer ht => ih answer t hanswer ht hf

theorem delivers_ofLookup {own : Event → Prop} {m : Lookup σ α} {a : α} {s : σ}
    (hm : m.Gives kept own a) (hs : kept s) : Delivers kept (ofLookup m) s [] a := by
  obtain ⟨events, t, hrun, ht, -⟩ := hm s hs
  have hm' : m s = ⟨events, t, .ok a⟩ := hrun
  refine .read (.write ?_)
  rw [hm']
  exact .done a ht

theorem Delivers.run {d : Delivery σ α} {s : σ} {ps : List Profile} {a : α}
    (hd : Delivers kept d s ps a) {visitor : Profile → Lookup σ Document}
    (hvisitor : NeverStops kept visitor) :
    d.given visitor s = ps ∧ ∃ events t, (d.run visitor).run s = ⟨events, t, .ok a⟩ ∧ kept t := by
  induction hd with
  | done a hs => exact ⟨rfl, [], _, rfl, hs⟩
  | read _ ih => exact ih
  | @write events t s next ps a _ ih =>
    obtain ⟨hgiven, more, u, hrun, hu⟩ := ih
    refine ⟨hgiven, events ++ more, u, ?_, hu⟩
    rw [run_write_run, hrun]
  | @give p next s ps a hs _ ih =>
    obtain ⟨events, t, answer, hvisit, hanswer, ht⟩ := hvisitor p s hs
    have hvisit' : visitor p s = ⟨events, t, .ok answer⟩ := hvisit
    obtain ⟨hgiven, more, u, hrun, hu⟩ := ih answer t hanswer ht
    refine ⟨?_, events ++ more, u, ?_, hu⟩
    · simp only [given, hvisit', hgiven]
    · rw [run_give, Lookup.run_bind_ok (Lookup.run_attempt _ s), hvisit]
      dsimp only
      rw [hrun]

end Delivery

theorem Queries.delivers_visitEach {kept : σ → Prop} {own : Event → Prop}
    {one : K → Lookup σ (Option Profile)} {answer : K → Option Profile}
    (h : ∀ k, (one k).Gives kept own (answer k)) (keys : List K) {s : σ} (hs : kept s) :
    Delivery.Delivers kept (visitEach one keys) s (keys.filterMap answer) () := by
  induction keys generalizing s with
  | nil => exact .done () hs
  | cons k rest ih =>
    rw [visitEach, List.filterMap_cons]
    have hone : Delivery.Delivers kept (Delivery.ofLookup (one k)) s [] (answer k) :=
      Delivery.delivers_ofLookup (h k) hs
    refine hone.bind fun t ht => ?_
    cases answer k with
    | none => exact ih ht
    | some p =>
      refine .give ht fun d u hd hu => ?_
      change Delivery.Delivers kept (if d.stops then pure () else visitEach one rest) u _ ()
      rw [if_neg (by simp [hd])]
      exact ih hu

end PlayerLookup
