import PlayerLookup.Proofs.Parallel.Jobs

/-! What becomes of jobs that were run. They are heard one by one as they are seen to be complete,
however they are grouped; answers are collected, the first failure is kept, and a failure that may
not be caught ends the hearing. Nothing but log records is seen of this. -/

set_option autoImplicit false

namespace PlayerLookup

variable {σ K α β : Type}

namespace Workers

/-! ## One outcome after another -/

/-- What is collected of outcomes heard in order. -/
def heard (done : List α) (first : Option Failure) :
    List (Except Failure α) → Except Failure (List α × Option Failure)
  | [] => .ok (done, first)
  | .ok a :: rest => heard (done ++ [a]) first rest
  | .error f :: rest => if f.isOrdinary then heard done (first.or (some f)) rest else .error f

theorem heard_append (xs ys : List (Except Failure α)) (done : List α) (first : Option Failure) :
    heard done first (xs ++ ys) = (heard done first xs).bind fun r => heard r.1 r.2 ys := by
  induction xs generalizing done first with
  | nil => rfl
  | cons outcome rest ih =>
    cases outcome with
    | ok a => exact ih (done ++ [a]) first
    | error f =>
      rw [List.cons_append, heard, heard]
      by_cases hf : f.isOrdinary = true
      · rw [if_pos hf, if_pos hf]
        exact ih done (first.or (some f))
      · rw [if_neg hf, if_neg hf]
        rfl

/-- Answers are collected in order and the first failure is kept, if all failures may be caught. -/
theorem heard_ordinary {outcomes : List (Except Failure α)}
    (h : ∀ f, .error f ∈ outcomes → f.isOrdinary = true) (done : List α) (first : Option Failure) :
    heard done first outcomes =
      .ok (done ++ outcomes.filterMap Except.toOption,
        first.or (outcomes.findSome? failureOf)) := by
  induction outcomes generalizing done first with
  | nil => simp [heard]
  | cons outcome rest ih =>
    have hrest : ∀ f, .error f ∈ rest → f.isOrdinary = true := fun f hf =>
      h f (List.mem_cons_of_mem outcome hf)
    cases outcome with
    | ok a =>
      rw [heard, ih hrest, List.append_assoc]
      rfl
    | error f =>
      rw [heard, if_pos (h f List.mem_cons_self), ih hrest]
      cases first <;> rfl

theorem ordinary_of_heard {outcomes : List (Except Failure α)} {done : List α}
    {first : Option Failure} {r : List α × Option Failure} (h : heard done first outcomes = .ok r)
    {f : Failure} (hf : .error f ∈ outcomes) : f.isOrdinary = true := by
  induction outcomes generalizing done first with
  | nil => cases hf
  | cons outcome rest ih =>
    cases outcome with
    | ok a => exact ih h ((List.mem_cons.mp hf).resolve_left (by simp))
    | error g =>
      rw [heard] at h
      by_cases hg : g.isOrdinary = true
      · rw [if_pos hg] at h
        rcases List.mem_cons.mp hf with hfg | hf
        · rwa [Except.error.inj hfg]
        · exact ih h hf
      · rw [if_neg hg] at h
        cases h

theorem collectGroup_run (outcomes : List (Except Failure α)) (done : List α)
    (first : Option Failure) (s : σ) :
    (collectGroup outcomes done first).OnlyLogs .parallelSource s ∧
      ((collectGroup outcomes done first).run s).result = heard done first outcomes := by
  induction outcomes generalizing done first with
  | nil => exact ⟨Lookup.onlyLogs_pure _ _ s, rfl⟩
  | cons outcome rest ih =>
    cases outcome with
    | ok a => exact ih (done ++ [a]) first
    | error f =>
      unfold collectGroup
      rw [heard]
      by_cases hf : f.isOrdinary = true
      · rw [if_neg (by simp [hf]), if_pos hf]
        cases first with
        | none => exact ih done (some f)
        | some g =>
          obtain ⟨hunseen, hresult⟩ := ih done (some g)
          exact ⟨(Lookup.onlyLogs_log .debug .parallelSource _ none s).bind fun _ => hunseen,
            hresult⟩
      · rw [if_pos (by simpa using hf), if_neg hf]
        exact ⟨Lookup.onlyLogs_fail _ f s, rfl⟩

/-! ## Groups of outcomes -/

variable {w : Workers σ}

theorem collectGroups_run (h : w.NeverCancelled) (groups : List (List (Except Failure α)))
    (done : List α) (first : Option Failure) (s : σ) :
    (w.collectGroups groups done first).OnlyLogs .parallelSource s ∧
      ((w.collectGroups groups done first).run s).result = heard done first groups.flatten := by
  induction groups generalizing done first with
  | nil => exact ⟨Lookup.onlyLogs_pure _ _ s, rfl⟩
  | cons group rest ih =>
    have hasked : (w.cancelled?.getD (return false)).run s = ⟨[], s, .ok false⟩ := by
      cases hask : w.cancelled? with
      | none => rfl
      | some ask => exact h ask hask s
    have hgroup := collectGroup_run group done first s
    have hrest : Lookup.OnlyLogs .parallelSource (do
        let r ← collectGroup group done first
        w.collectGroups rest r.1 r.2) s := hgroup.1.bind fun r => (ih r.1 r.2).1
    have hrun : (w.collectGroups (group :: rest) done first).run s = (do
        let r ← collectGroup group done first
        w.collectGroups rest r.1 r.2 : Lookup σ (List α × Option Failure)).run s :=
      Lookup.run_bind_quiet hasked _
    refine ⟨?_, ?_⟩
    · unfold Lookup.OnlyLogs
      rw [hrun]
      exact hrest
    · rw [hrun, hgroup.1.result_bind, hgroup.2, List.flatten_cons, heard_append]
      congr 1
      funext r
      exact (ih r.1 r.2).2

/-- What comes of all that was heard: the answers, or the failure that was kept. -/
def verdict (r : Except Failure (List α × Option Failure)) : Except Failure (List α) :=
  r.bind fun r =>
    match r.2 with
    | some f => .error (wholeFailure f)
    | none => .ok r.1

/-- The outcomes in the order in which the jobs are seen to be complete. -/
def inHearingOrder (w : Workers σ) (outcomes : List (Nat × Except Failure α)) :
    List (Except Failure α) :=
  (w.schedule.polls outcomes.length).flatten.filterMap fun i => outcomes.lookup i

theorem collect_run (h : w.NeverCancelled) (outcomes : List (Nat × Except Failure α)) (s : σ) :
    (w.collect outcomes).OnlyLogs .parallelSource s ∧
      ((w.collect outcomes).run s).result =
        verdict (heard [] none (w.inHearingOrder outcomes)) := by
  have hgroups := collectGroups_run h
    ((w.schedule.polls outcomes.length).map (·.filterMap fun i => outcomes.lookup i)) [] none s
  rw [collect]
  refine ⟨hgroups.1.bind fun r => ?_, ?_⟩
  · cases r.2 with
    | none => exact Lookup.onlyLogs_pure _ _ s
    | some f => exact Lookup.onlyLogs_fail _ _ s
  · rw [hgroups.1.result_bind, hgroups.2, ← List.filterMap_flatten]
    unfold verdict inHearingOrder
    congr 1
    funext r
    cases r.2 <;> rfl

end Workers

end PlayerLookup
