import PlayerLookup.Proofs.Cache.Calls
import PlayerLookup.Proofs.Foundations.Lookup

/-! Caches that can be shut. Behind an open door a cache answers as ever, behind a shut one it
stores nothing and finds nothing. -/

set_option autoImplicit false

namespace PlayerLookup

variable {σ : Type}

namespace Cache

/-- A cache behind a door: while the door is shut, nothing is stored and nothing is found. -/
def behind (door : Cell σ Bool) (c : Cache σ) : Cache σ where
  label := c.label
  putAll ps := do
    if ← door.read then c.putAll ps else return
  getAll ids := do
    if ← door.read then c.getAll ids else return []
  getAllByName? := c.getAllByName?.map fun getAll names => do
    if ← door.read then getAll names else return []
  close := door.write false

theorem run_door {α : Type} (door : Cell σ Bool) (m m' : Lookup σ α) (s : σ) :
    (do if ← door.read then m else m' : Lookup σ α).run s =
      if door.get s then m.run s else m'.run s := by
  rw [Lookup.run_bind_quiet (door.run_read s)]
  cases door.get s <;> rfl

variable {door : Cell σ Bool} {s : σ}

theorem putAll_behind (c : Cache σ) (ps : List Profile) :
    ((behind door c).putAll ps).run s =
      if door.get s then (c.putAll ps).run s else ⟨[], s, .ok ()⟩ := run_door ..

theorem getAll_behind (c : Cache σ) (ids : List PlayerId) :
    ((behind door c).getAll ids).run s =
      if door.get s then (c.getAll ids).run s else ⟨[], s, .ok []⟩ := run_door ..

theorem getAllByName_behind (c : Cache σ) (names : List String) :
    ((behind door c).getAllByName names).run s =
      if door.get s then (c.getAllByName names).run s else ⟨[], s, .ok []⟩ := by
  unfold getAllByName behind
  cases c.getAllByName? with
  | none => cases door.get s <;> rfl
  | some getAll => exact run_door ..

theorem answer_behind_open (c : Cache σ) (h : door.get s = true) (k : CacheCall) :
    ((behind door c).answer k).run s = (c.answer k).run s := by
  cases k with
  | store w =>
    refine Lookup.run_bind_congr ?_ _
    rw [write_eq, write_eq, putAll_behind, if_pos h]
  | get id =>
    refine Lookup.run_bind_congr (Lookup.run_bind_congr ?_ _) _
    rw [getAll_behind, if_pos h]
  | getAll ids =>
    change ((behind door c).getAll ids).run s = _
    rw [getAll_behind, if_pos h]
    rfl
  | getByName name =>
    refine Lookup.run_bind_congr (Lookup.run_bind_congr ?_ _) _
    rw [getAllByName_behind, if_pos h]
  | getAllByName names =>
    change ((behind door c).getAllByName names).run s = _
    rw [getAllByName_behind, if_pos h]
    rfl

theorem answer_yields_nil {c : Cache σ} (hput : ∀ ps, (c.putAll ps).Yields s s ())
    (hget : ∀ ids, (c.getAll ids).Yields s s [])
    (hname : ∀ names, (c.getAllByName names).Yields s s [])
    (k : CacheCall) : (c.answer k).Yields s s [] := by
  cases k with
  | store w =>
    rw [answer, write_eq]
    exact (hput w.profiles).bind (Lookup.yields_pure [] s)
  | get id =>
    have hone : (c.get id).Yields s s none := (hget [id]).bind (Lookup.yields_pure none s)
    exact hone.bind (Lookup.yields_pure _ s)
  | getAll ids => exact hget ids
  | getByName name =>
    have hone : (oneByName c.getAllByName name).Yields s s none :=
      (hname [name]).bind (Lookup.yields_pure none s)
    exact hone.bind (Lookup.yields_pure _ s)
  | getAllByName names => exact hname names

theorem answer_behind_shut (c : Cache σ) (h : door.get s = false) (k : CacheCall) :
    ((behind door c).answer k).Yields s s [] := by
  have hshut : ¬ door.get s = true := by simp [h]
  refine answer_yields_nil (fun ps => ?_) (fun ids => ?_) (fun names => ?_) k
  · exact Lookup.yields_of_run (by rw [putAll_behind, if_neg hshut])
  · exact Lookup.yields_of_run (by rw [getAll_behind, if_neg hshut])
  · exact Lookup.yields_of_run (by rw [getAllByName_behind, if_neg hshut])

end Cache

end PlayerLookup
