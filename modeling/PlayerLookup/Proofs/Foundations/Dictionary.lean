import Mathlib.Data.List.Nodup
import PlayerLookup.Dictionary

/-! What the operations of a dictionary do to the value of each key. A dictionary whose keys are
distinct gives for a key just the value of its entry. -/

set_option autoImplicit false

namespace PlayerLookup.Dictionary

variable {κ ν : Type} [DecidableEq κ]

def keys (d : Dictionary κ ν) : List κ := d.map Prod.fst

theorem get?_cons (d : Dictionary κ ν) (j k : κ) (v : ν) :
    get? ((j, v) :: d) k = if k = j then some v else get? d k := by
  by_cases h : k = j
  · simp [get?, h]
  · have hb : (k == j) = false := beq_eq_false_iff_ne.mpr h
    simp [get?, List.lookup_cons, h, hb]

theorem get?_erase (d : Dictionary κ ν) (k j : κ) :
    (d.erase k).get? j = if j = k then none else d.get? j := by
  induction d with
  | nil => simp [erase, get?]
  | cons e d ih =>
    obtain ⟨i, v⟩ := e
    simp only [erase] at ih ⊢
    rw [List.filter_cons, get?_cons]
    by_cases hi : i = k
    · subst hi
      simp only [bne_self_eq_false, Bool.false_eq_true, if_false]
      rw [ih]
      by_cases hj : j = i <;> simp [hj]
    · simp only [bne_iff_ne.mpr hi, if_true]
      rw [get?_cons, ih]
      by_cases hj : j = k
      · simp [hj, Ne.symm hi]
      · simp [hj]

theorem get?_set (d : Dictionary κ ν) (k j : κ) (v : ν) :
    (d.set k v).get? j = if j = k then some v else d.get? j := by
  rw [set, get?_cons, get?_erase]
  by_cases h : j = k <;> simp [h]

theorem remove?_of_get? {d : Dictionary κ ν} {k : κ} {v : ν} (h : d.get? k = some v) :
    d.remove? k = some (d.erase k) := by
  simp [remove?, h]

theorem keys_erase (d : Dictionary κ ν) (k : κ) : (d.erase k).keys = d.keys.filter (· != k) := by
  induction d with
  | nil => rfl
  | cons e d ih =>
    simp only [erase, keys, List.map_cons] at ih ⊢
    rw [List.filter_cons, List.filter_cons]
    by_cases he : (e.1 != k) = true
    · rw [if_pos he, if_pos he, List.map_cons, ih]
    · rw [if_neg he, if_neg he, ih]

theorem nodup_keys_erase {d : Dictionary κ ν} (h : d.keys.Nodup) (k : κ) :
    (d.erase k).keys.Nodup := by
  rw [keys_erase]
  exact h.filter _

theorem nodup_keys_set {d : Dictionary κ ν} (h : d.keys.Nodup) (k : κ) (v : ν) :
    (d.set k v).keys.Nodup := by
  change (k :: (d.erase k).keys).Nodup
  refine List.nodup_cons.mpr ⟨?_, nodup_keys_erase h k⟩
  rw [keys_erase]
  simp

theorem get?_eq_some_iff {d : Dictionary κ ν} (h : d.keys.Nodup) (k : κ) (v : ν) :
    d.get? k = some v ↔ (k, v) ∈ d := by
  induction d with
  | nil => simp [get?]
  | cons e d ih =>
    obtain ⟨j, w⟩ := e
    obtain ⟨hnot, hrest⟩ := List.nodup_cons.mp h
    rw [get?_cons, List.mem_cons, Prod.mk.injEq]
    by_cases hk : k = j
    · subst hk
      have hd : (k, v) ∉ d := fun hm => hnot (List.mem_map.mpr ⟨(k, v), hm, rfl⟩)
      simp [hd, eq_comm]
    · simp [hk, ih hrest]

end PlayerLookup.Dictionary
