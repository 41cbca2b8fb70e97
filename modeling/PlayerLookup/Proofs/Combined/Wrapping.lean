import PlayerLookup.Proofs.Combined.Progress
import PlayerLookup.Proofs.Foundations.Delivery

/-! A progress within another. What passes through both passes through the outer one alone in the
same way, and the inner one keeps up with it. -/

set_option autoImplicit false

namespace PlayerLookup.Progress

variable {K κ σ α β : Type} {normal : K → κ} {keyOf : Profile → K}

/-! ## Sound progress and progress within another -/

/-- Remaining keys stand beside their normal forms, once each, and were not reported. -/
structure Sound (normal : K → κ) (pr : Progress K κ) : Prop where
  normal_eq : ∀ e ∈ pr.remaining, e.1 = normal e.2
  distinct : (pr.remaining.map Prod.fst).Nodup
  unreported : ∀ e ∈ pr.remaining, e.1 ∉ pr.reported

/-- The inner progress has the same keys left, and has not reported what the outer one has not. -/
structure Within (inner outer : Progress K κ) : Prop where
  remaining_eq : inner.remaining = outer.remaining
  reported_subset : ∀ k ∈ inner.reported, k ∈ outer.reported
  unreported : ∀ e ∈ outer.remaining, e.1 ∉ outer.reported

variable {pr inner outer : Progress K κ}

theorem Sound.requestStop (h : pr.Sound normal) : pr.requestStop.Sound normal :=
  ⟨h.normal_eq, h.distinct, h.unreported⟩

theorem Within.requestStop (h : inner.Within outer) :
    inner.requestStop.Within outer.requestStop :=
  ⟨h.remaining_eq, h.reported_subset, h.unreported⟩

theorem Within.missing_eq (h : inner.Within outer) : inner.missing = outer.missing := by
  rw [missing, missing, h.remaining_eq]

theorem Within.isComplete_eq (h : inner.Within outer) : inner.isComplete = outer.isComplete := by
  rw [isComplete, isComplete, h.remaining_eq]

theorem Within.unreported_inner (h : inner.Within outer) {k : κ} (hk : k ∉ outer.reported) :
    k ∉ inner.reported := fun hm => hk (h.reported_subset k hm)

/-! ## Answers of the visitor -/

/-- The progress after the visitor's answer to a new key. -/
def answered (pr : Progress K κ) : Except Failure Document → Progress K κ
  | .ok a => if a.stops then pr.requestStop else pr
  | .error _ => pr

theorem Sound.answered (h : pr.Sound normal) (answer : Except Failure Document) :
    (pr.answered answer).Sound normal := by
  cases answer with
  | error f => exact h
  | ok a =>
    rw [Progress.answered]
    by_cases hstops : a.stops = true
    · rw [if_pos hstops]
      exact h.requestStop
    · rw [if_neg hstops]
      exact h

/-- A progress within another that has been asked to stop just if the other has. -/
structure InTandem (inner outer : Progress K κ) : Prop extends Within inner outer where
  stop_eq : inner.stopRequested = outer.stopRequested

theorem InTandem.answered (h : inner.InTandem outer) (answer : Except Failure Document) :
    (inner.answered answer).InTandem (outer.answered answer) := by
  cases answer with
  | error f => exact h
  | ok a =>
    rw [Progress.answered, Progress.answered]
    by_cases hstops : a.stops = true
    · rw [if_pos hstops, if_pos hstops]
      exact ⟨h.toWithin.requestStop, rfl⟩
    · rw [if_neg hstops, if_neg hstops]
      exact h

/-! ## Keys found -/

variable [DecidableEq κ]

theorem sound_ofKeys (normal : K → κ) (keys : List K) : (ofKeys normal keys).Sound normal where
  normal_eq e he := by
    change e ∈ Batch.uniqueFrom Prod.fst [] (keys.map fun k => (normal k, k)) at he
    rw [Batch.uniqueFrom_map] at he
    obtain ⟨k, -, rfl⟩ := List.mem_map.mp he
    rfl
  distinct := Batch.nodup_map_uniqueBy Prod.fst _
  unreported e _ := List.not_mem_nil

theorem Sound.marked (h : pr.Sound normal) (k : κ) : (pr.marked k).Sound normal where
  normal_eq e he := h.normal_eq e (List.mem_of_mem_filter he)
  distinct := h.distinct.sublist (List.filter_sublist.map Prod.fst)
  unreported e he := by
    obtain ⟨hmem, hne⟩ := List.mem_filter.mp he
    change e.1 ∉ k :: pr.reported
    rw [List.mem_cons]
    rintro (heq | hm)
    · simp [heq] at hne
    · exact h.unreported e hmem hm

theorem Sound.accept (h : pr.Sound normal) (found : List Profile) :
    (pr.accept normal keyOf found).2.Sound normal := by
  induction found generalizing pr with
  | nil => exact h
  | cons p rest ih =>
    by_cases hp : normal (keyOf p) ∈ pr.reported
    · rw [accept_reported hp]
      exact ih h
    · rw [accept_fresh hp]
      exact ih (h.marked _)

theorem Sound.within (h : pr.Sound normal) : (ofKeys normal pr.missing).Within pr where
  remaining_eq := by
    have hpairs : (pr.missing.map fun k => (normal k, k)) = pr.remaining := by
      rw [missing, List.map_map]
      conv_rhs => rw [← List.map_id pr.remaining]
      refine List.map_congr_left fun e he => ?_
      rw [Function.comp_apply, ← h.normal_eq e he]
      rfl
    change Batch.uniqueFrom Prod.fst [] (pr.missing.map fun k => (normal k, k)) = _
    rw [hpairs, Batch.uniqueFrom_eq_self _ h.distinct fun _ _ => List.not_mem_nil]
  reported_subset k hk := absurd hk List.not_mem_nil
  unreported := h.unreported

/-- What only the inner progress learns changes nothing about the keys that are left. -/
theorem Within.marked_inner (h : inner.Within outer) {k : κ} (hk : k ∈ outer.reported) :
    (inner.marked k).Within outer where
  remaining_eq := by
    change inner.remaining.filter _ = _
    rw [h.remaining_eq, List.filter_eq_self]
    intro e he
    rw [bne_iff_ne]
    rintro rfl
    exact h.unreported e he hk
  reported_subset := by
    intro k' hk'
    rcases List.mem_cons.mp hk' with rfl | hm
    · exact hk
    · exact h.reported_subset k' hm
  unreported := h.unreported

theorem Within.marked (h : inner.Within outer) (k : κ) :
    (inner.marked k).Within (outer.marked k) where
  remaining_eq := by
    change inner.remaining.filter _ = outer.remaining.filter _
    rw [h.remaining_eq]
  reported_subset := by
    intro k' hk'
    rcases List.mem_cons.mp hk' with rfl | hm
    · exact List.mem_cons_self
    · exact List.mem_cons_of_mem k (h.reported_subset k' hm)
  unreported := by
    intro e he
    obtain ⟨hmem, hne⟩ := List.mem_filter.mp he
    change e.1 ∉ k :: outer.reported
    rw [List.mem_cons]
    rintro (heq | hm)
    · simp [heq] at hne
    · exact h.unreported e hmem hm

/-! ## Batches -/

theorem accept_append (pr : Progress K κ) (ps qs : List Profile) :
    pr.accept normal keyOf (ps ++ qs) =
      ((pr.accept normal keyOf ps).1 ++ ((pr.accept normal keyOf ps).2.accept normal keyOf qs).1,
        ((pr.accept normal keyOf ps).2.accept normal keyOf qs).2) := by
  induction ps generalizing pr with
  | nil => rfl
  | cons p rest ih =>
    by_cases hp : normal (keyOf p) ∈ pr.reported
    · rw [List.cons_append, accept_reported hp, accept_reported hp, ih]
    · rw [List.cons_append, accept_fresh hp, accept_fresh hp, ih]
      rfl

theorem Within.accept (normal : K → κ) (keyOf : Profile → K) (h : inner.Within outer)
    (found : List Profile) :
    outer.accept normal keyOf (inner.accept normal keyOf found).1 =
        outer.accept normal keyOf found ∧
      (inner.accept normal keyOf found).2.Within (outer.accept normal keyOf found).2 := by
  induction found generalizing inner outer with
  | nil => exact ⟨rfl, h⟩
  | cons p rest ih =>
    by_cases hout : normal (keyOf p) ∈ outer.reported
    · rw [accept_reported hout]
      by_cases hin : normal (keyOf p) ∈ inner.reported
      · rw [accept_reported hin]
        exact ih h
      · rw [accept_fresh hin, accept_reported hout]
        exact ih (h.marked_inner hout)
    · rw [accept_fresh hout, accept_fresh (h.unreported_inner hout), accept_fresh hout]
      obtain ⟨hsame, hwithin⟩ := ih (h.marked (normal (keyOf p)))
      rw [hsame]
      exact ⟨rfl, hwithin⟩

/-! ## Deliveries -/

theorem forward_give_reported {p : Profile} (h : normal (keyOf p) ∈ pr.reported)
    (next : Except Failure Document → Delivery σ α) :
    pr.forward normal keyOf (.give p next) = pr.forward normal keyOf (next (.ok (.bool true))) := by
  rw [forward, markFound_reported h]
  rfl

theorem forward_give_fresh {p : Profile} (h : normal (keyOf p) ∉ pr.reported)
    (next : Except Failure Document → Delivery σ α) :
    pr.forward normal keyOf (.give p next) = .give p fun answer =>
      ((pr.marked (normal (keyOf p))).answered answer).forward normal keyOf (next answer) := by
  rw [forward, markFound_fresh h]
  simp only [if_true]
  congr 1

theorem forward_bind (pr : Progress K κ) (d : Delivery σ α) (f : α → Delivery σ β) :
    pr.forward normal keyOf (d >>= f) =
      (pr.forward normal keyOf d >>= fun r => r.2.forward normal keyOf (f r.1)) := by
  induction d generalizing pr with
  | done result => cases result <;> rfl
  | read next ih =>
    rw [Delivery.read_bind, forward, forward, Delivery.read_bind]
    congr 1
    funext s
    exact ih s pr
  | write events s next ih =>
    rw [Delivery.write_bind, forward, forward, Delivery.write_bind, ih]
  | give p next ih =>
    rw [Delivery.give_bind]
    by_cases hp : normal (keyOf p) ∈ pr.reported
    · rw [forward_give_reported hp, forward_give_reported hp, ih]
    · rw [forward_give_fresh hp, forward_give_fresh hp, Delivery.give_bind]
      congr 1
      funext answer
      exact ih answer _

theorem Sound.forward_bind_congr (h : pr.Sound normal) (d : Delivery σ α)
    {f g : α × Progress K κ → Delivery σ β}
    (hfg : ∀ a pr', Sound normal pr' → f (a, pr') = g (a, pr')) :
    (pr.forward normal keyOf d >>= f) = (pr.forward normal keyOf d >>= g) := by
  induction d generalizing pr with
  | done result =>
    cases result with
    | ok a => exact hfg a pr h
    | error e => rfl
  | read next ih =>
    rw [forward, Delivery.read_bind, Delivery.read_bind]
    congr 1
    funext s
    exact ih s h
  | write events s next ih =>
    rw [forward, Delivery.write_bind, Delivery.write_bind, ih h]
  | give p next ih =>
    by_cases hp : normal (keyOf p) ∈ pr.reported
    · rw [forward_give_reported hp]
      exact ih _ h
    · rw [forward_give_fresh hp, Delivery.give_bind, Delivery.give_bind]
      congr 1
      funext answer
      exact ih answer ((h.marked _).answered answer)

/-- A delivery that passes through both passes through the outer one alone in the same way. -/
theorem InTandem.forward_forward_bind (h : inner.InTandem outer) (d : Delivery σ α)
    {f : (α × Progress K κ) × Progress K κ → Delivery σ β} {g : α × Progress K κ → Delivery σ β}
    (hfg : ∀ a i o, InTandem i o → f ((a, i), o) = g (a, o)) :
    (outer.forward normal keyOf (inner.forward normal keyOf d) >>= f) =
      (outer.forward normal keyOf d >>= g) := by
  induction d generalizing inner outer with
  | done result =>
    cases result with
    | ok a => exact hfg a inner outer h
    | error e => rfl
  | read next ih =>
    rw [forward, forward, forward, Delivery.read_bind, Delivery.read_bind]
    congr 1
    funext s
    exact ih s h
  | write events s next ih =>
    rw [forward, forward, forward, Delivery.write_bind, Delivery.write_bind, ih h]
  | give p next ih =>
    by_cases hout : normal (keyOf p) ∈ outer.reported
    · rw [forward_give_reported hout]
      by_cases hin : normal (keyOf p) ∈ inner.reported
      · rw [forward_give_reported hin]
        exact ih _ h
      · -- To a profile that only the outer progress knows, the answer is `true` for both.
        rw [forward_give_fresh hin, forward_give_reported hout]
        exact ih _ ⟨h.toWithin.marked_inner hout, h.stop_eq⟩
    · rw [forward_give_fresh hout, forward_give_fresh (h.toWithin.unreported_inner hout),
        forward_give_fresh hout, Delivery.give_bind, Delivery.give_bind]
      congr 1
      funext answer
      have hmarked : (inner.marked (normal (keyOf p))).InTandem (outer.marked (normal (keyOf p))) :=
        ⟨h.toWithin.marked _, h.stop_eq⟩
      exact ih answer (hmarked.answered answer)

end PlayerLookup.Progress
