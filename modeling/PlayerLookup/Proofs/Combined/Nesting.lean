import PlayerLookup.Proofs.Combined.Turns
import PlayerLookup.Proofs.Combined.Wrapping

/-! A combination as a member of another. To the members, to the visitor and to the caller it makes
no difference whether some of the members were combined before; the log may have one record more,
in which the outer combination tells of the inner one. -/

set_option autoImplicit false

namespace PlayerLookup

variable {σ K κ α : Type}

/-- The first run is like the second one, but may have one record more, of a member's answer. -/
def Run.LikeButRecord (label : String) (r r' : Run σ α) : Prop :=
  ∃ first extra last t result, r = ⟨first ++ extra ++ last, t, result⟩ ∧
    r' = ⟨first ++ last, t, result⟩ ∧
    (extra = [] ∨ ∃ found asked, extra = [.log (Queries.resolvedRecord label found asked)])

theorem Run.LikeButRecord.refl (label : String) (r : Run σ α) : r.LikeButRecord label r :=
  ⟨[], [], r.events, r.state, r.result, rfl, rfl, Or.inl rfl⟩

namespace Queries

/-- Queries that come to the same. -/
structure LikeButRecord (label : String) (q q' : Queries σ K) : Prop where
  one_eq : q.one = q'.one
  all_like : ∀ keys s, ((q.all keys).run s).LikeButRecord label ((q'.all keys).run s)
  visit_eq : q.visit = q'.visit

/-! ## One key -/

theorem firstOf_append (xs ys : List (Queries σ K)) (key : K) :
    firstOf (xs ++ ys) key = (do
      match ← firstOf xs key with
      | some p => return some p
      | none => firstOf ys key) := by
  induction xs with
  | nil => rfl
  | cons q rest ih =>
    rw [List.cons_append, firstOf, firstOf, bind_assoc]
    congr 1
    funext found
    cases found with
    | some p => rfl
    | none => exact ih

variable [DecidableEq κ] {normal : K → κ} {keyOf : Profile → K}

theorem firstOf_nested (label : String) (xs ys zs : List (String × Queries σ K)) (key : K) :
    firstOf ((xs ++ (label, combined normal keyOf ys) :: zs).map Prod.snd) key =
      firstOf ((xs ++ ys ++ zs).map Prod.snd) key := by
  have hinner : ∀ rest : List (Queries σ K),
      firstOf (combined normal keyOf ys :: rest) key = firstOf (ys.map Prod.snd ++ rest) key := by
    intro rest
    rw [firstOf_append, firstOf]
    rfl
  rw [List.map_append, List.map_cons, List.append_assoc, List.map_append, List.map_append,
    firstOf_append, firstOf_append, hinner]

/-! ## Batches -/

variable {inner outer pr : Progress K κ} {s : σ}

/-- Members asked by the inner combination are asked as if by the outer one. -/
theorem collectMembers_within (ys zs : List (String × Queries σ K)) :
    ∀ (inner outer : Progress K κ) (s : σ), inner.Within outer →
      (∃ events t f,
        (collectMembers normal keyOf ys inner).run s = ⟨events, t, .error f⟩ ∧
        (collectMembers normal keyOf (ys ++ zs) outer).run s = ⟨events, t, .error f⟩) ∨
      ∃ events t found,
        (collectMembers normal keyOf ys inner).run s = ⟨events, t, .ok found⟩ ∧
        ∀ more u r, (collectMembers normal keyOf zs (outer.accept normal keyOf found).2).run t =
            ⟨more, u, r⟩ →
          (collectMembers normal keyOf (ys ++ zs) outer).run s =
            ⟨events ++ more, u, r.map fun ps => (outer.accept normal keyOf found).1 ++ ps⟩ := by
  induction ys with
  | nil =>
    intro inner outer s h
    refine Or.inr ⟨[], s, [], rfl, fun more u r hmore => ?_⟩
    change (collectMembers normal keyOf zs outer).run s = ⟨more, u, r⟩ at hmore
    rw [List.nil_append, hmore]
    cases r <;> rfl
  | cons y rest ih =>
    intro inner outer s h
    obtain ⟨label, q⟩ := y
    by_cases hcomplete : inner.isComplete = true
    · -- With no key left neither goes on, and the later members are not asked either.
      have houter : outer.isComplete = true := h.isComplete_eq ▸ hcomplete
      refine Or.inr ⟨[], s, [], collectMembers_complete hcomplete _, fun more u r hmore => ?_⟩
      change (collectMembers normal keyOf zs outer).run s = ⟨more, u, r⟩ at hmore
      rw [collectMembers_complete houter] at hmore ⊢
      cases hmore
      rfl
    · have houter : ¬ outer.isComplete = true := h.isComplete_eq ▸ hcomplete
      rcases hrun : (q.all inner.missing).run s with ⟨events, t, result⟩
      have hrun' : (q.all outer.missing).run s = ⟨events, t, result⟩ := by
        rw [← h.missing_eq, hrun]
      cases result with
      | error f =>
        exact Or.inl ⟨events, t, f, collectMembers_failed hcomplete hrun,
          collectMembers_failed houter hrun'⟩
      | ok found =>
        obtain ⟨hsame, hwithin⟩ := h.accept normal keyOf found
        rcases ih _ _ t hwithin with ⟨more, u, f, hinner, houter'⟩ | ⟨more, u, later, hinner, hrest⟩
        · refine Or.inl ⟨_, u, f, collectMembers_answered hcomplete hrun hinner, ?_⟩
          rw [h.missing_eq]
          exact collectMembers_answered houter hrun' houter'
        · refine Or.inr ⟨_, u, _, collectMembers_answered hcomplete hrun hinner,
            fun last v r hlast => ?_⟩
          rw [Progress.accept_append, hsame] at hlast ⊢
          rw [List.cons_append, collectMembers_answered houter hrun' (hrest last v r hlast),
            h.missing_eq]
          cases r <;> simp [Except.map]

theorem collectMembers_nested (label : String) (xs ys zs : List (String × Queries σ K)) :
    ∀ (pr : Progress K κ) (s : σ), pr.Sound normal →
      ((collectMembers normal keyOf (xs ++ (label, combined normal keyOf ys) :: zs) pr).run
        s).LikeButRecord label
      ((collectMembers normal keyOf (xs ++ ys ++ zs) pr).run s) := by
  induction xs with
  | nil =>
    intro pr s h
    rw [List.nil_append, List.nil_append]
    by_cases hcomplete : pr.isComplete = true
    · rw [collectMembers_complete hcomplete, collectMembers_complete hcomplete]
      exact Run.LikeButRecord.refl label _
    · rcases collectMembers_within ys zs _ pr s h.within with
        ⟨events, t, f, hinner, hflat⟩ | ⟨events, t, found, hinner, hflat⟩
      · rw [collectMembers_failed (q := combined normal keyOf ys) hcomplete hinner, hflat]
        exact Run.LikeButRecord.refl label _
      · rcases hmore : (collectMembers normal keyOf zs (pr.accept normal keyOf found).2).run t with
          ⟨more, u, r⟩
        rw [collectMembers_answered (q := combined normal keyOf ys) hcomplete hinner hmore,
          hflat more u r hmore]
        refine ⟨events, [.log (resolvedRecord label found.length pr.missing.length)], more, u, _,
          ?_, rfl, Or.inr ⟨_, _, rfl⟩⟩
        rw [List.append_assoc]
        rfl
  | cons x rest ih =>
    intro pr s h
    obtain ⟨name, q⟩ := x
    rw [List.cons_append, List.cons_append, List.cons_append]
    by_cases hcomplete : pr.isComplete = true
    · rw [collectMembers_complete hcomplete, collectMembers_complete hcomplete]
      exact Run.LikeButRecord.refl label _
    · rcases hrun : (q.all pr.missing).run s with ⟨events, t, result⟩
      cases result with
      | error f =>
        rw [collectMembers_failed hcomplete hrun, collectMembers_failed hcomplete hrun]
        exact Run.LikeButRecord.refl label _
      | ok found =>
        obtain ⟨first, extra, last, u, r, hnested, hflat, hextra⟩ :=
          ih (pr.accept normal keyOf found).2 t (h.accept found)
        rw [collectMembers_answered hcomplete hrun hnested,
          collectMembers_answered hcomplete hrun hflat]
        refine ⟨events ++ .log (resolvedRecord name found.length pr.missing.length) :: first, extra,
          last, u, r.map fun ps => (pr.accept normal keyOf found).1 ++ ps, ?_, ?_, hextra⟩
        · simp only [List.append_assoc, List.cons_append]
        · simp only [List.append_assoc, List.cons_append]

/-! ## Deliveries -/

theorem visitMembers_over (h : (pr.isComplete || pr.stopRequested) = true)
    (members : List (Queries σ K)) :
    visitMembers normal keyOf members pr = return () := by
  cases members with
  | nil => rfl
  | cons q rest => rw [visitMembers, if_pos h]

/-- What the inner combination delivers passes through the outer progress as if its members were
members of the outer combination. -/
theorem forward_visitMembers (ys zs : List (Queries σ K)) :
    ∀ inner outer : Progress K κ, inner.InTandem outer →
      (outer.forward normal keyOf (visitMembers normal keyOf ys inner) >>= fun r =>
        visitMembers normal keyOf zs r.2) = visitMembers normal keyOf (ys ++ zs) outer := by
  induction ys with
  | nil =>
    intro inner outer _
    rfl
  | cons q rest ih =>
    intro inner outer h
    have hover : (inner.isComplete || inner.stopRequested) =
        (outer.isComplete || outer.stopRequested) := by
      rw [h.toWithin.isComplete_eq, h.stop_eq]
    by_cases hdone : (outer.isComplete || outer.stopRequested) = true
    · rw [visitMembers_over hdone, visitMembers_over (hover.trans hdone)]
      exact visitMembers_over hdone zs
    · have hgoing : ¬ (inner.isComplete || inner.stopRequested) = true := hover ▸ hdone
      rw [List.cons_append, visitMembers, visitMembers, if_neg hdone, if_neg hgoing,
        Progress.forward_bind, Delivery.bind_assoc, ← h.toWithin.missing_eq]
      exact h.forward_forward_bind (q.visit inner.missing) fun _ i o htandem => ih i o htandem

theorem visitMembers_nested (normal : K → κ) (keyOf : Profile → K) (xs zs : List (Queries σ K))
    (ys : List (String × Queries σ K)) :
    ∀ pr : Progress K κ, pr.Sound normal →
      visitMembers normal keyOf (xs ++ combined normal keyOf ys :: zs) pr =
        visitMembers normal keyOf (xs ++ (ys.map Prod.snd ++ zs)) pr := by
  induction xs with
  | nil =>
    intro pr h
    rw [List.nil_append, List.nil_append]
    by_cases hdone : (pr.isComplete || pr.stopRequested) = true
    · rw [visitMembers_over hdone, visitMembers_over hdone]
    · have hstop : false = pr.stopRequested := by
        rw [Bool.or_eq_true, not_or, Bool.not_eq_true, Bool.not_eq_true] at hdone
        exact hdone.2.symm
      have htandem : (Progress.ofKeys normal pr.missing).InTandem pr := ⟨h.within, hstop⟩
      rw [visitMembers, if_neg hdone]
      exact forward_visitMembers (ys.map Prod.snd) zs _ pr htandem
  | cons x rest ih =>
    intro pr h
    rw [List.cons_append, List.cons_append, visitMembers, visitMembers]
    by_cases hdone : (pr.isComplete || pr.stopRequested) = true
    · rw [if_pos hdone, if_pos hdone]
    · rw [if_neg hdone, if_neg hdone]
      exact h.forward_bind_congr _ fun _ pr' h' => ih pr' h'

/-! ## All queries -/

theorem combined_nested (label : String) (xs ys zs : List (String × Queries σ K)) :
    LikeButRecord label (combined normal keyOf (xs ++ (label, combined normal keyOf ys) :: zs))
      (combined normal keyOf (xs ++ ys ++ zs)) where
  one_eq := by
    funext key
    exact firstOf_nested label xs ys zs key
  all_like keys s :=
    collectMembers_nested label xs ys zs _ s (Progress.sound_ofKeys normal keys)
  visit_eq := by
    funext keys
    have hvisit := visitMembers_nested normal keyOf (xs.map Prod.snd) (zs.map Prod.snd) ys _
      (Progress.sound_ofKeys normal keys)
    change visitMembers normal keyOf _ _ = visitMembers normal keyOf _ _
    rw [List.map_append, List.map_cons, hvisit, List.append_assoc, List.map_append, List.map_append]

end Queries

/-- **Nesting makes no difference.** A combination that has another one as a member asks the same
of the same members in the same order as one that has the members of both, and comes to the same,
whether it is asked for one key, for a batch, or to deliver to a visitor. -/
theorem combined_flattens (caseSensitive : Bool) (xs ys zs : List (Source σ)) :
    let inner := Source.combined caseSensitive ys
    let nested := Source.combined caseSensitive (xs ++ inner :: zs)
    let flat := Source.combined caseSensitive (xs ++ ys ++ zs)
    Queries.LikeButRecord inner.label nested.byName flat.byName ∧
      Queries.LikeButRecord inner.label nested.byId flat.byId := by
  intro inner nested flat
  constructor
  · change Queries.LikeButRecord _ (Queries.combined _ _ ((xs ++ inner :: zs).map _))
      (Queries.combined _ _ ((xs ++ ys ++ zs).map _))
    rw [List.map_append, List.map_cons, List.map_append, List.map_append]
    exact Queries.combined_nested ..
  · change Queries.LikeButRecord _ (Queries.combined _ _ ((xs ++ inner :: zs).map _))
      (Queries.combined _ _ ((xs ++ ys ++ zs).map _))
    rw [List.map_append, List.map_cons, List.map_append, List.map_append]
    exact Queries.combined_nested ..

end PlayerLookup
