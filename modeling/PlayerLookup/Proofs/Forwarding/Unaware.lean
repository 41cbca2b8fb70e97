import PlayerLookup.Proofs.Foundations.Streaming
import PlayerLookup.Proofs.Remote.Untouched

/-! Sources that know nothing of a part of the state: they leave it as it is, and what they do does
not depend on it. Nor do their deliveries, whatever the visitor does with it meanwhile. -/

set_option autoImplicit false

namespace PlayerLookup

variable {σ ω τ K α β : Type}

/-- The lookup leaves a part of the state as it is, and goes by a view of the rest. -/
structure Lookup.Unaware (own : Cell σ ω) (rest : σ → τ) (m : Lookup σ α) : Prop where
  leaves : m.LeavesAlone own
  depends : m.DependsOn rest

/-- From states with the same rest two deliveries hand over the same profiles and end in the same
way, and so they do after every visit that leads to states with the same rest. Between the visits
they leave the part of the state that is not theirs as it is. -/
inductive Delivery.Unaware (own : Cell σ ω) (rest : σ → τ) :
    Delivery σ α → σ → Delivery σ α → σ → Prop where
  | done (result : Except Failure α) {s u : σ} (h : rest s = rest u) :
      Unaware own rest (.done result) s (.done result) u
  | readLeft {next : σ → Delivery σ α} {d : Delivery σ α} {s u : σ}
      (h : Unaware own rest (next s) s d u) : Unaware own rest (.read next) s d u
  | readRight {next : σ → Delivery σ α} {d : Delivery σ α} {s u : σ}
      (h : Unaware own rest d s (next u) u) : Unaware own rest d s (.read next) u
  | writeLeft {events : List Event} {next d : Delivery σ α} {s t u : σ}
      (leaves : own.get t = own.get s) (h : Unaware own rest next t d u) :
      Unaware own rest (.write events t next) s d u
  | writeRight {events : List Event} {next d : Delivery σ α} {s u v : σ}
      (leaves : own.get v = own.get u) (h : Unaware own rest d s next v) :
      Unaware own rest d s (.write events v next) u
  | give {p : Profile} {next next' : Except Failure Document → Delivery σ α} {s u : σ}
      (same : rest s = rest u)
      (h : ∀ answer t v, rest t = rest v → Unaware own rest (next answer) t (next' answer) v) :
      Unaware own rest (.give p next) s (.give p next') u

/-- However they are asked, the queries are unaware of a part of the state. -/
structure Queries.Unaware (own : Cell σ ω) (rest : σ → τ) (q : Queries σ K) : Prop where
  one : ∀ k, (q.one k).Unaware own rest
  all : ∀ keys, (q.all keys).Unaware own rest
  visit : ∀ keys s u, rest s = rest u → (q.visit keys).Unaware own rest s (q.visit keys) u

structure Source.Unaware (own : Cell σ ω) (rest : σ → τ) (source : Source σ) : Prop where
  byName : source.byName.Unaware own rest
  byId : source.byId.Unaware own rest

variable {own : Cell σ ω} {rest : σ → τ}

/-! ## Sources that are asked for one key after the other -/

theorem Delivery.Unaware.ofLookup_bind {m : Lookup σ α} (hm : m.Unaware own rest)
    {f : α → Delivery σ β}
    (hf : ∀ a s u, rest s = rest u → (f a).Unaware own rest s (f a) u) {s u : σ}
    (h : rest s = rest u) :
    (ofLookup m >>= f).Unaware own rest s (ofLookup m >>= f) u := by
  obtain ⟨hresult, hrest⟩ := hm.depends u s h
  refine .readLeft (.readRight (.writeLeft (hm.leaves s) (.writeRight (hm.leaves u) ?_)))
  change Unaware own rest (andThen (.done (m.run s).result) f) (m.run s).state
    (andThen (.done (m.run u).result) f) (m.run u).state
  rw [hresult]
  cases (m.run u).result with
  | error e => exact .done _ hrest
  | ok a => exact hf a _ _ hrest

theorem Queries.unaware_visitEach {one : K → Lookup σ (Option Profile)}
    (h : ∀ k, (one k).Unaware own rest) (keys : List K) {s u : σ} (hsame : rest s = rest u) :
    (visitEach one keys).Unaware own rest s (visitEach one keys) u := by
  induction keys generalizing s u with
  | nil => exact .done _ hsame
  | cons k more ih =>
    refine Delivery.Unaware.ofLookup_bind (h k) (fun found s u hsame => ?_) hsame
    cases found with
    | none => exact ih hsame
    | some p =>
      refine .give hsame fun answer t v htv => ?_
      cases answer with
      | error f => exact .done _ htv
      | ok answer =>
        change Delivery.Unaware own rest
          (if answer.stops then pure () else visitEach one more) t
          (if answer.stops then pure () else visitEach one more) v
        split
        · exact .done _ htv
        · exact ih htv

theorem Queries.unaware_ofOne [DecidableEq K] {one : K → Lookup σ (Option Profile)}
    (h : ∀ k, (one k).Unaware own rest) : (ofOne one).Unaware own rest where
  one := h
  all _ :=
    ⟨leavesAlone_collect (fun k => (h k).leaves) _, dependsOn_collect (fun k => (h k).depends) _⟩
  visit keys _ _ := unaware_visitEach h (Batch.unique keys)

theorem Source.unaware_localMap (own : Cell σ ω) (cell : Cell σ LocalMap) :
    (Source.localMap cell).Unaware own cell.get where
  byName := Queries.unaware_ofOne fun _ =>
    ⟨(Lookup.leavesAlone_read cell).bind fun _ => Lookup.leavesAlone_pure _,
      (Lookup.dependsOn_read id).bind fun _ => Lookup.dependsOn_pure _⟩
  byId := Queries.unaware_ofOne fun _ =>
    ⟨(Lookup.leavesAlone_read cell).bind fun _ => Lookup.leavesAlone_pure _,
      (Lookup.dependsOn_read id).bind fun _ => Lookup.dependsOn_pure _⟩

end PlayerLookup
