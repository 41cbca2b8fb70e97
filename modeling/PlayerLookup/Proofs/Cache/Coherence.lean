import PlayerLookup.Cache.Memory
import PlayerLookup.Proofs.Foundations.Dictionary

/-! The two dictionaries of a memory are inverse to each other, and storing keeps them so. What a
memory holds after a profile was stored is that profile, and of what it held before all that the
profile does not displace. -/

set_option autoImplicit false

namespace PlayerLookup

/-- Whether a profile takes away the name or the holder that another one records. -/
def Profile.Displaces (p q : Profile) : Prop :=
  (p.id = q.id ∧ p.name ≠ q.name) ∨ (p.name = q.name ∧ p.id ≠ q.id)

theorem Profile.displaces_iff {p q : Profile} :
    p.Displaces q ↔ p ≠ q ∧ (p.id = q.id ∨ p.name = q.name) := by
  obtain ⟨i, n⟩ := p
  obtain ⟨j, k⟩ := q
  simp only [Displaces, ne_eq, Profile.mk.injEq]
  tauto

namespace Memory

/-- The profile is stored. -/
def Holds (m : Memory) (p : Profile) : Prop := m.names.get? p.id = some p.name

/-- The dictionaries are inverse to each other, and each player has one entry. -/
structure Coherent (m : Memory) : Prop where
  inverse : ∀ id n, m.names.get? id = some n ↔ m.ids.get? n = some id
  distinct : m.names.keys.Nodup

theorem coherent_empty : empty.Coherent where
  inverse _ _ := by simp [empty, Dictionary.get?]
  distinct := List.nodup_nil

theorem Coherent.holds_iff {m : Memory} (hm : m.Coherent) (p : Profile) :
    m.Holds p ↔ m.ids.get? p.name = some p.id := hm.inverse p.id p.name

/-! ## Storing one profile -/

theorem withoutOldName_spec {m : Memory} (hm : m.Coherent) (p : Profile) :
    ∃ ids, m.withoutOldName p = .ok ids ∧
      ∀ n i, ids.get? n = some i ↔ m.ids.get? n = some i ∧ (i = p.id → n = p.name) := by
  unfold withoutOldName
  cases hold : m.names.get? p.id with
  | none =>
    refine ⟨m.ids, rfl, fun n i => ⟨fun h => ⟨h, fun hi => ?_⟩, And.left⟩⟩
    rw [hi, ← hm.inverse, hold] at h
    exact absurd h (by simp)
  | some old =>
    have hthere : m.ids.get? old = some p.id := (hm.inverse p.id old).mp hold
    have honly : ∀ n, m.ids.get? n = some p.id → n = old := by
      intro n hn
      rw [← hm.inverse, hold] at hn
      exact (Option.some.inj hn).symm
    by_cases hsame : old = p.name
    · refine ⟨m.ids, by simp [hsame], fun n i => ⟨fun h => ⟨h, fun hi => ?_⟩, And.left⟩⟩
      rw [← hsame]
      exact honly n (hi ▸ h)
    · refine ⟨m.ids.erase old, ?_, fun n i => ?_⟩
      · simp [hsame, forgetName, Dictionary.remove?_of_get? hthere]
      · rw [Dictionary.get?_erase]
        by_cases hn : n = old
        · rw [if_pos hn, hn, hthere]
          refine iff_of_false (by simp) ?_
          rintro ⟨h, hi⟩
          exact hsame (hi (Option.some.inj h).symm)
        · rw [if_neg hn]
          exact ⟨fun h => ⟨h, fun hi => absurd (honly n (hi ▸ h)) hn⟩, And.left⟩

theorem withoutOldHolder_spec {m : Memory} (hm : m.Coherent) (p : Profile)
    (ids : Dictionary Name PlayerId) (hids : ids.get? p.name = m.ids.get? p.name) :
    ∃ names, withoutOldHolder m.names ids p = .ok names ∧ names.keys.Nodup ∧
      ∀ i n, names.get? i = some n ↔ m.names.get? i = some n ∧ (n = p.name → i = p.id) := by
  unfold withoutOldHolder
  rw [hids]
  cases hholder : m.ids.get? p.name with
  | none =>
    refine ⟨m.names, rfl, hm.distinct, fun i n => ⟨fun h => ⟨h, fun hn => ?_⟩, And.left⟩⟩
    rw [hn, hm.inverse, hholder] at h
    exact absurd h (by simp)
  | some holder =>
    have hthere : m.names.get? holder = some p.name := (hm.inverse holder p.name).mpr hholder
    have honly : ∀ i, m.names.get? i = some p.name → i = holder := by
      intro i hi
      rw [hm.inverse, hholder] at hi
      exact (Option.some.inj hi).symm
    by_cases hsame : holder = p.id
    · refine ⟨m.names, by simp [hsame], hm.distinct,
        fun i n => ⟨fun h => ⟨h, fun hn => ?_⟩, And.left⟩⟩
      rw [← hsame]
      exact honly i (hn ▸ h)
    · refine ⟨m.names.erase holder, ?_, Dictionary.nodup_keys_erase hm.distinct holder,
        fun i n => ?_⟩
      · simp [hsame, forgetHolder, Dictionary.remove?_of_get? hthere]
      · rw [Dictionary.get?_erase]
        by_cases hi : i = holder
        · rw [if_pos hi, hi, hthere]
          refine iff_of_false (by simp) ?_
          rintro ⟨h, hn⟩
          exact hsame (hn (Option.some.inj h).symm)
        · rw [if_neg hi]
          exact ⟨fun h => ⟨h, fun hn => absurd (honly i (hn ▸ h)) hi⟩, And.left⟩

theorem store_spec {m : Memory} (hm : m.Coherent) (p : Profile) :
    ∃ m', m.store p = .ok m' ∧ m'.Coherent ∧
      ∀ q, m'.Holds q ↔ q = p ∨ (m.Holds q ∧ ¬ p.Displaces q) := by
  obtain ⟨ids, hids, hgetId⟩ := withoutOldName_spec hm p
  have hkept : ids.get? p.name = m.ids.get? p.name := by
    apply Option.ext
    intro i
    rw [hgetId]
    exact ⟨And.left, fun h => ⟨h, fun _ => rfl⟩⟩
  obtain ⟨names, hnames, hnodup, hgetName⟩ := withoutOldHolder_spec hm p ids hkept
  have hstore : m.store p = .ok ⟨names.set p.id p.name, ids.set p.name p.id⟩ := by
    simp only [store, hids, hnames, bind, Except.bind]
    rfl
  have hname : ∀ i n, (names.set p.id p.name).get? i = some n ↔
      (i = p.id ∧ n = p.name) ∨ (i ≠ p.id ∧ n ≠ p.name ∧ m.names.get? i = some n) := by
    intro i n
    rw [Dictionary.get?_set]
    by_cases hi : i = p.id
    · simp [hi, eq_comm]
    · rw [if_neg hi, hgetName]
      tauto
  have hid : ∀ i n, (ids.set p.name p.id).get? n = some i ↔
      (i = p.id ∧ n = p.name) ∨ (i ≠ p.id ∧ n ≠ p.name ∧ m.names.get? i = some n) := by
    intro i n
    rw [Dictionary.get?_set]
    by_cases hn : n = p.name
    · simp [hn, eq_comm]
    · rw [if_neg hn, hgetId, hm.inverse]
      tauto
  refine ⟨_, hstore, ⟨fun i n => ?_, Dictionary.nodup_keys_set hnodup p.id p.name⟩, fun q => ?_⟩
  · rw [hname, hid]
  · obtain ⟨i, n⟩ := q
    simp only [Holds, hname, Profile.Displaces]
    constructor
    · rintro (⟨rfl, rfl⟩ | h)
      · exact Or.inl rfl
      · exact Or.inr ⟨h.2.2, by tauto⟩
    · rintro (rfl | ⟨h, hd⟩)
      · exact Or.inl ⟨rfl, rfl⟩
      · tauto

def single (p : Profile) : Memory := ⟨[(p.id, p.name)], [(p.name, p.id)]⟩

theorem coherent_single (p : Profile) : (single p).Coherent := by
  obtain ⟨m, hstore, hcoherent, -⟩ := store_spec coherent_empty p
  have hsingle : empty.store p = .ok (single p) := rfl
  rw [hsingle] at hstore
  rwa [Except.ok.inj hstore]

end Memory

end PlayerLookup
