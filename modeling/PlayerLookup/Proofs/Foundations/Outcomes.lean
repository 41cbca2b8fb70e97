import Mathlib.Data.List.Forall2
import Mathlib.Tactic.Choose

/-! Outcomes that agree: two of the same failure, or two values that are related. -/

set_option autoImplicit false

namespace PlayerLookup

variable {ε α β γ δ : Type}

/-- The outcomes are one and the same failure, or values that are related. -/
inductive Agree (R : α → β → Prop) : Except ε α → Except ε β → Prop where
  | error (e : ε) : Agree R (.error e) (.error e)
  | ok {a : α} {b : β} (h : R a b) : Agree R (.ok a) (.ok b)

namespace Agree

variable {R : α → β → Prop} {S : γ → δ → Prop} {x : Except ε α} {y : Except ε β}

theorem both_fail_or_both_ok (h : Agree R x y) :
    (∃ e, x = .error e ∧ y = .error e) ∨ ∃ a b, x = .ok a ∧ y = .ok b ∧ R a b := by
  cases h with
  | error e => exact Or.inl ⟨e, rfl, rfl⟩
  | ok hab => exact Or.inr ⟨_, _, rfl, rfl, hab⟩

theorem bind {f : α → Except ε γ} {g : β → Except ε δ} (h : Agree R x y)
    (hfg : ∀ a b, R a b → Agree S (f a) (g b)) : Agree S (x >>= f) (y >>= g) := by
  cases h with
  | error e => exact .error e
  | ok hab => exact hfg _ _ hab

theorem refl {R : α → α → Prop} (hR : ∀ a, R a a) (x : Except ε α) : Agree R x x := by
  cases x with
  | error e => exact .error e
  | ok a => exact .ok (hR a)

theorem eq {x y : Except ε α} (h : Agree Eq x y) : x = y := by
  cases h with
  | error e => rfl
  | ok hab => rw [hab]

theorem mapM {ι : Type} {f : ι → Except ε α} {g : ι → Except ε β} {items : List ι}
    (h : ∀ i ∈ items, Agree R (f i) (g i)) :
    Agree (List.Forall₂ R) (items.mapM f) (items.mapM g) := by
  induction items with
  | nil => exact .ok .nil
  | cons i rest ih =>
    rw [List.mapM_cons, List.mapM_cons]
    refine (h i List.mem_cons_self).bind fun a b hab => ?_
    refine (ih fun j hj => h j (List.mem_cons_of_mem i hj)).bind fun as bs hrest => ?_
    exact .ok (.cons hab hrest)

theorem all_fail_or_all_ok {ι : Type} (i : ι) {R : ι → ι → α → α → Prop} {f : ι → Except ε α}
    (h : ∀ i j, Agree (R i j) (f i) (f j)) :
    (∃ e, ∀ j, f j = .error e) ∨
      ∃ g : ι → α, (∀ j, f j = .ok (g j)) ∧ ∀ j k, R j k (g j) (g k) := by
  cases hi : f i with
  | error e =>
    refine Or.inl ⟨e, fun j => ?_⟩
    obtain ⟨e', hfi, hfj⟩ | ⟨_, _, hfi, -⟩ := (h i j).both_fail_or_both_ok
    · rw [hi] at hfi
      rw [hfj, Except.error.inj hfi]
    · rw [hi] at hfi
      cases hfi
  | ok a =>
    have hall : ∀ j, ∃ b, f j = .ok b := by
      intro j
      obtain ⟨_, hfi, -⟩ | ⟨_, b, -, hfj, -⟩ := (h i j).both_fail_or_both_ok
      · rw [hi] at hfi
        cases hfi
      · exact ⟨b, hfj⟩
    choose g hg using hall
    refine Or.inr ⟨g, hg, fun j k => ?_⟩
    have hjk := h j k
    rw [hg, hg] at hjk
    cases hjk with
    | ok hR => exact hR

end Agree

theorem exists_of_bind_eq_ok {x : Except ε α} {f : α → Except ε β} {b : β} (h : x >>= f = .ok b) :
    ∃ a, x = .ok a ∧ f a = .ok b := by
  cases x with
  | error e => cases h
  | ok a => exact ⟨a, rfl, h⟩

theorem forall₂_of_mapM {ι : Type} {f : ι → Except ε α} {items : List ι} {as : List α}
    (h : items.mapM f = .ok as) : List.Forall₂ (fun i a => f i = .ok a) items as := by
  induction items generalizing as with
  | nil =>
    obtain rfl := Except.ok.inj h
    exact .nil
  | cons i rest ih =>
    rw [List.mapM_cons] at h
    obtain ⟨a, hi, h⟩ := exists_of_bind_eq_ok h
    obtain ⟨bs, hrest, h⟩ := exists_of_bind_eq_ok h
    obtain rfl := Except.ok.inj h
    exact .cons hi (ih hrest)

theorem exists_of_forall₂_of_mem {R S : α → β → Prop} {as : List α} {bs : List β}
    (hR : List.Forall₂ R as bs) (hS : List.Forall₂ S as bs) {a : α} (ha : a ∈ as) :
    ∃ b ∈ bs, R a b ∧ S a b := by
  induction hR with
  | nil => exact absurd ha List.not_mem_nil
  | cons hab _ ih =>
    cases hS with
    | cons hab' hrest =>
      rcases List.mem_cons.mp ha with rfl | ha
      · exact ⟨_, List.mem_cons_self, hab, hab'⟩
      · obtain ⟨b, hb, hboth⟩ := ih hrest ha
        exact ⟨b, List.mem_cons_of_mem _ hb, hboth⟩

end PlayerLookup
