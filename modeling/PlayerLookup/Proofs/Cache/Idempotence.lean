import PlayerLookup.Proofs.Cache.History

/-! Storing a list of profiles a second time. Within the list a profile may displace others that
come before it, and when the list is stored again those displace it for a while. What stands after
the whole list is the same all the same: the last of the list that stand, and of what was there
before whatever none of them displaces. -/

set_option autoImplicit false

namespace PlayerLookup

variable {σ : Type}

theorem stands_append_again (history ps : List Profile) (p : Profile) :
    Stands (history ++ ps ++ ps) p ↔ Stands (history ++ ps) p := by
  rw [stands_append, stands_append]
  constructor
  · rintro (h | ⟨h | ⟨h, -⟩, hps⟩)
    · exact Or.inl h
    · exact Or.inl h
    · exact Or.inr ⟨h, hps⟩
  · rintro (h | ⟨h, hps⟩)
    · exact Or.inl h
    · exact Or.inr ⟨Or.inr ⟨h, hps⟩, hps⟩

namespace Memory

/-- Two memories lead from each id to the same name and from each name to the same id. -/
structure SameMappings (m m' : Memory) : Prop where
  names_eq : ∀ id, m.names.get? id = m'.names.get? id
  ids_eq : ∀ n, m.ids.get? n = m'.ids.get? n

theorem Coherent.sameMappings {m m' : Memory} (hm : m.Coherent) (hm' : m'.Coherent)
    (h : ∀ p, m.Holds p ↔ m'.Holds p) : m.SameMappings m' where
  names_eq id := Option.ext fun n => h ⟨id, n⟩
  ids_eq n := Option.ext fun id => by
    rw [← hm.inverse, ← hm'.inverse]
    exact h ⟨id, n⟩

end Memory

namespace Cache

open Memory

/-- **Storing a list twice is storing it once.** Whatever was stored in a fresh memory, by whatever
calls, a list of profiles can be stored and stored again, and both dictionaries are then as they
were after the first time: they hold what stands of the list, and what was there before and is
displaced by none of it. -/
theorem storing_again_changes_nothing (cell : Cell σ Memory) (s : σ) (hs : cell.get s = .empty)
    (ws : List Write) (ps : List Profile) :
    ∃ t once twice, ((memory cell).writeEach ws).run s = ⟨[], t, .ok ()⟩ ∧
      ((memory cell).putAll ps).run t = ⟨[], once, .ok ()⟩ ∧
      ((memory cell).putAll ps).run once = ⟨[], twice, .ok ()⟩ ∧
      (cell.get twice).SameMappings (cell.get once) ∧
      ∀ p, (cell.get once).Holds p ↔
        Stands ps p ∨ ((cell.get t).Holds p ∧ ∀ q ∈ ps, ¬ q.Displaces p) := by
  obtain ⟨t, hrun, ht⟩ := memory_writeEach_run cell ws [] s (by rw [hs]; exact reflects_empty)
  obtain ⟨once, honce, hreflects, -⟩ := storeInMemory_run cell ps _ t ht
  obtain ⟨twice, htwice, hagain, -⟩ := storeInMemory_run cell ps _ once hreflects
  refine ⟨t, once, twice, hrun, honce, htwice, ?_, fun p => ?_⟩
  · refine hagain.coherent.sameMappings hreflects.coherent fun p => ?_
    rw [hagain.holds_iff, hreflects.holds_iff, stands_append_again]
  · rw [hreflects.holds_iff, ht.holds_iff, stands_append]

/-- A name that goes from one player to another and back, while a third takes the name that the
first has in between. -/
def tugOfWar : List Profile :=
  [⟨⟨1⟩, Name.ash⟩, ⟨⟨2⟩, Name.ash⟩, ⟨⟨1⟩, Name.birch⟩, ⟨⟨3⟩, Name.birch⟩, ⟨⟨1⟩, Name.ash⟩]

theorem storing_again_tugOfWar :
    Cell.whole.get Memory.empty = Memory.empty ∧
      ∃ t once twice, ((memory Cell.whole).writeEach takeOver).run Memory.empty = ⟨[], t, .ok ()⟩ ∧
        ((memory Cell.whole).putAll tugOfWar).run t = ⟨[], once, .ok ()⟩ ∧
        ((memory Cell.whole).putAll tugOfWar).run once = ⟨[], twice, .ok ()⟩ ∧
        twice.SameMappings once ∧ once.Holds ⟨⟨3⟩, Name.birch⟩ ∧ once.Holds ⟨⟨1⟩, Name.ash⟩ := by
  obtain ⟨t, once, twice, hrun, honce, htwice, hsame, hholds⟩ :=
    storing_again_changes_nothing Cell.whole Memory.empty rfl takeOver tugOfWar
  have hash : Stands tugOfWar ⟨⟨1⟩, Name.ash⟩ :=
    ⟨tugOfWar.take 4, [], rfl, fun _ hq => absurd hq List.not_mem_nil⟩
  have hbirch : Stands tugOfWar ⟨⟨3⟩, Name.birch⟩ := by
    refine ⟨tugOfWar.take 3, tugOfWar.drop 4, rfl, fun q hq => ?_⟩
    rw [List.mem_singleton.mp hq, Profile.displaces_iff]
    decide
  exact ⟨rfl, t, once, twice, hrun, honce, htwice, hsame, (hholds _).mpr (Or.inl hbirch),
    (hholds _).mpr (Or.inl hash)⟩

end Cache

end PlayerLookup
