import PlayerLookup.Proofs.Cache.Calls
import PlayerLookup.Proofs.Cache.Coherence
import PlayerLookup.Proofs.Foundations.Batch
import PlayerLookup.Proofs.Foundations.Lookup

/-! What a memory answers is determined by what was stored: a profile is found just if it stands,
that is, if it was stored and no later one took its name or its holder away. -/

set_option autoImplicit false

namespace PlayerLookup

variable {σ : Type}

/-- The profile was stored, and none that was stored later displaces it. -/
def Stands (history : List Profile) (p : Profile) : Prop :=
  ∃ before after, history = before ++ p :: after ∧ ∀ q ∈ after, ¬ q.Displaces p

theorem not_stands_nil (p : Profile) : ¬ Stands [] p := by
  rintro ⟨before, after, h, -⟩
  simp at h

theorem stands_concat (history : List Profile) (q p : Profile) :
    Stands (history ++ [q]) p ↔ p = q ∨ (Stands history p ∧ ¬ q.Displaces p) := by
  constructor
  · rintro ⟨before, after, h, hafter⟩
    rcases List.eq_nil_or_concat' after with rfl | ⟨init, last, rfl⟩
    · have hlast := List.append_inj_right' h rfl
      exact Or.inl (List.cons.inj hlast).1.symm
    · have hsplit : history ++ [q] = (before ++ p :: init) ++ [last] := by
        rw [h, List.append_assoc, List.cons_append]
      obtain ⟨hinit, hlast⟩ := List.append_inj' hsplit rfl
      have hq : q = last := (List.cons.inj hlast).1
      refine Or.inr ⟨⟨before, init, hinit, fun r hr => ?_⟩, ?_⟩
      · exact hafter r (List.mem_append_left _ hr)
      · rw [hq]
        exact hafter last (List.mem_append_right _ (List.mem_singleton_self _))
  · rintro (rfl | ⟨⟨before, after, rfl, hafter⟩, hq⟩)
    · exact ⟨history, [], rfl, by simp⟩
    · refine ⟨before, after ++ [q], by simp, fun r hr => ?_⟩
      rcases List.mem_append.mp hr with hr | hr
      · exact hafter r hr
      · rw [List.mem_singleton.mp hr]
        exact hq

theorem Stands.mem {history : List Profile} {p : Profile} (h : Stands history p) : p ∈ history := by
  obtain ⟨before, after, rfl, -⟩ := h
  exact List.mem_append_right _ List.mem_cons_self

theorem stands_of_not_displaced {ps : List Profile} {p : Profile} (hp : p ∈ ps)
    (h : ∀ q ∈ ps, ¬ q.Displaces p) : Stands ps p := by
  obtain ⟨before, after, rfl⟩ := List.append_of_mem hp
  exact ⟨before, after, rfl, fun q hq => h q (List.mem_append_right _ (List.mem_cons_of_mem p hq))⟩

/-- What stands in the end is what stands of the later profiles, and of the earlier ones what no
later profile displaces. -/
theorem stands_append (history ps : List Profile) (p : Profile) :
    Stands (history ++ ps) p ↔
      Stands ps p ∨ (Stands history p ∧ ∀ q ∈ ps, ¬ q.Displaces p) := by
  induction ps using List.reverseRecOn with
  | nil => simp [not_stands_nil]
  | append_singleton ps q ih =>
    rw [← List.append_assoc, stands_concat, stands_concat, ih]
    simp only [List.mem_append, List.mem_singleton, or_imp, forall_and, forall_eq]
    tauto

namespace Memory

/-- The memory holds just the profiles that stand. -/
structure Reflects (m : Memory) (history : List Profile) : Prop where
  coherent : m.Coherent
  holds_iff : ∀ p, m.Holds p ↔ Stands history p

theorem reflects_empty : empty.Reflects [] where
  coherent := coherent_empty
  holds_iff p := iff_of_false (by simp [Holds, empty, Dictionary.get?]) (not_stands_nil p)

theorem Reflects.store {m : Memory} {history : List Profile} (h : m.Reflects history)
    (p : Profile) : ∃ m', m.store p = .ok m' ∧ m'.Reflects (history ++ [p]) := by
  obtain ⟨m', hstore, hcoherent, hholds⟩ := store_spec h.coherent p
  refine ⟨m', hstore, hcoherent, fun q => ?_⟩
  rw [hholds, stands_concat, h.holds_iff]

theorem Reflects.id_injective {m : Memory} {history : List Profile} (hm : m.Reflects history)
    {p q : Profile} (hp : Stands history p) (hq : Stands history q) (hid : p.id = q.id) :
    p = q := by
  have hp' : m.names.get? p.id = some p.name := (hm.holds_iff p).mpr hp
  have hq' : m.names.get? q.id = some q.name := (hm.holds_iff q).mpr hq
  rw [hid, hq'] at hp'
  obtain ⟨i, n⟩ := p
  obtain ⟨j, k⟩ := q
  cases hid
  cases hp'
  rfl

theorem Reflects.name_injective {m : Memory} {history : List Profile} (hm : m.Reflects history)
    {p q : Profile} (hp : Stands history p) (hq : Stands history q) (hname : p.name = q.name) :
    p = q := by
  have hp' : m.ids.get? p.name = some p.id :=
    (hm.coherent.holds_iff p).mp ((hm.holds_iff p).mpr hp)
  have hq' : m.ids.get? q.name = some q.id :=
    (hm.coherent.holds_iff q).mp ((hm.holds_iff q).mpr hq)
  rw [hname, hq'] at hp'
  obtain ⟨i, n⟩ := p
  obtain ⟨j, k⟩ := q
  cases hname
  cases hp'
  rfl

/-! ## What is read -/

theorem profile?_eq_some_iff (m : Memory) (id : PlayerId) (p : Profile) :
    m.profile? id = some p ↔ p.id = id ∧ m.Holds p := by
  obtain ⟨i, n⟩ := p
  simp only [profile?, Holds, Option.map_eq_some_iff, Profile.mk.injEq]
  constructor
  · rintro ⟨n', hn, rfl, rfl⟩
    exact ⟨rfl, hn⟩
  · rintro ⟨rfl, hn⟩
    exact ⟨n, hn, rfl, rfl⟩

theorem ofText?_eq_some_iff (text : String) (n : Name) :
    Name.ofText? text = some n ↔ n.text = text := by
  obtain ⟨t, ht⟩ := n
  unfold Name.ofText?
  by_cases h : text = ""
  · rw [dif_pos h]
    refine iff_of_false (by simp) ?_
    rintro rfl
    exact ht h
  · rw [dif_neg h, Option.some.injEq, Name.mk.injEq]
    exact eq_comm

theorem holder?_eq_some_iff {m : Memory} (hm : m.Coherent) (name : String) (p : Profile) :
    m.holder? name = some p ↔ p.name.text = name ∧ m.Holds p := by
  rw [hm.holds_iff]
  obtain ⟨i, n⟩ := p
  simp only [holder?, Option.bind_eq_bind, Option.bind_eq_some_iff, ofText?_eq_some_iff,
    Option.pure_def, Option.some.injEq, Profile.mk.injEq]
  constructor
  · rintro ⟨n', hn, i', hi, rfl, rfl⟩
    exact ⟨hn, hi⟩
  · rintro ⟨hn, hi⟩
    exact ⟨n, hn, i, hi, rfl, rfl⟩

theorem mem_profiles (m : Memory) (ids : List PlayerId) (p : Profile) :
    p ∈ m.profiles ids ↔ p.id ∈ ids ∧ m.Holds p := by
  simp only [profiles, List.mem_filterMap, Batch.mem_unique, profile?_eq_some_iff]
  constructor
  · rintro ⟨id, hid, rfl, hp⟩
    exact ⟨hid, hp⟩
  · rintro ⟨hid, hp⟩
    exact ⟨p.id, hid, rfl, hp⟩

theorem mem_holders {m : Memory} (hm : m.Coherent) (names : List String) (p : Profile) :
    p ∈ m.holders names ↔ p.name.text ∈ names ∧ m.Holds p := by
  simp only [holders, List.mem_filterMap, Batch.mem_unique, holder?_eq_some_iff hm]
  constructor
  · rintro ⟨name, hname, rfl, hp⟩
    exact ⟨hname, hp⟩
  · rintro ⟨hname, hp⟩
    exact ⟨p.name.text, hname, rfl, hp⟩

theorem nodup_profiles (m : Memory) (ids : List PlayerId) :
    ((m.profiles ids).map Profile.id).Nodup :=
  Batch.nodup_map_filterMap_unique m.profile? Profile.id
    (fun id p h => ((profile?_eq_some_iff m id p).mp h).1) ids

theorem nodup_holders {m : Memory} (hm : m.Coherent) (names : List String) :
    ((m.holders names).map (·.name.text)).Nodup :=
  Batch.nodup_map_filterMap_unique m.holder? (·.name.text)
    (fun name p h => ((holder?_eq_some_iff hm name p).mp h).1) names

def all (m : Memory) : List Profile := m.names.map fun e => ⟨e.1, e.2⟩

theorem mem_all {m : Memory} (hm : m.Coherent) (p : Profile) : p ∈ m.all ↔ m.Holds p := by
  obtain ⟨id, n⟩ := p
  rw [Holds, Dictionary.get?_eq_some_iff hm.distinct]
  simp [all]

theorem nodup_all {m : Memory} (hm : m.Coherent) : m.all.Nodup := by
  have hkeys : m.all.map Profile.id = m.names.keys := by simp [all, Dictionary.keys]
  apply List.Nodup.of_map Profile.id
  rw [hkeys]
  exact hm.distinct

end Memory

namespace Name

def ash : Name := ⟨"Ash", by decide⟩

def birch : Name := ⟨"Birch", by decide⟩

def cedar : Name := ⟨"Cedar", by decide⟩

end Name

/-! ## Whole histories -/

namespace Cache

open Memory

theorem storeInMemory_run (cell : Cell σ Memory) (ps : List Profile) (history : List Profile)
    (s : σ) (h : (cell.get s).Reflects history) :
    ∃ t, (storeInMemory cell ps).run s = ⟨[], t, .ok ()⟩ ∧
      (cell.get t).Reflects (history ++ ps) ∧
      ∀ (β : Type) (d : Cell σ β), cell.Apart d → d.get t = d.get s := by
  induction ps generalizing history s with
  | nil => exact ⟨s, rfl, by simpa using h, fun _ _ _ => rfl⟩
  | cons p rest ih =>
    obtain ⟨m', hstore, hm'⟩ := h.store p
    have hget : cell.get (cell.set s m') = m' := cell.get_set s m'
    obtain ⟨t, hrun, ht, hframe⟩ :=
      ih (history ++ [p]) (cell.set s m') (by rw [hget]; exact hm')
    refine ⟨t, ?_, ?_, fun β d hd => ?_⟩
    · rw [storeInMemory, Lookup.run_bind_quiet (cell.run_read s), hstore]
      rw [Lookup.run_bind_quiet (cell.run_write m' s)]
      exact hrun
    · rw [List.append_assoc, List.singleton_append] at ht
      exact ht
    · rw [hframe β d hd, hd s m']

theorem memory_writeEach_run (cell : Cell σ Memory) (ws : List Write) (history : List Profile)
    (s : σ) (h : (cell.get s).Reflects history) :
    ∃ t, ((memory cell).writeEach ws).run s = ⟨[], t, .ok ()⟩ ∧
      (cell.get t).Reflects (history ++ Write.history ws) := by
  induction ws generalizing history s with
  | nil => exact ⟨s, rfl, by simpa [Write.history] using h⟩
  | cons w rest ih =>
    obtain ⟨t, hrun, ht, -⟩ := storeInMemory_run cell w.profiles history s h
    obtain ⟨u, hrest, hu⟩ := ih (history ++ w.profiles) t ht
    refine ⟨u, ?_, ?_⟩
    · rw [writeEach, write_eq]
      exact (Lookup.run_bind_quiet hrun _).trans hrest
    · simpa [Write.history, List.append_assoc] using hu

/-- **Reads are determined by the history of writes.** Whatever is stored in a fresh memory, by
whatever calls, no call fails, the dictionaries end inverse to each other, every read finds just
the profiles asked for that stand, once each, and the size is the number of those that stand. -/
theorem memory_reads_history (cell : Cell σ Memory) (s : σ) (hs : cell.get s = .empty)
    (ws : List Write) :
    ∃ t, ((memory cell).writeEach ws).run s = ⟨[], t, .ok ()⟩ ∧
      (∀ id n, (cell.get t).names.get? id = some n ↔ (cell.get t).ids.get? n = some id) ∧
      (∀ ids, ∃ found, ((memory cell).getAll ids).run t = ⟨[], t, .ok found⟩ ∧
        (found.map Profile.id).Nodup ∧
        ∀ p, p ∈ found ↔ p.id ∈ ids ∧ Stands (Write.history ws) p) ∧
      (∀ names, ∃ found, ((memory cell).getAllByName names).run t = ⟨[], t, .ok found⟩ ∧
        (found.map (·.name.text)).Nodup ∧
        ∀ p, p ∈ found ↔ p.name.text ∈ names ∧ Stands (Write.history ws) p) ∧
      ∃ all : List Profile, all.Nodup ∧ (∀ p, p ∈ all ↔ Stands (Write.history ws) p) ∧
        (cell.get t).size = all.length := by
  obtain ⟨t, hrun, ht⟩ := memory_writeEach_run cell ws [] s (by rw [hs]; exact reflects_empty)
  rw [List.nil_append] at ht
  have hcoherent := ht.coherent
  refine ⟨t, hrun, hcoherent.inverse, fun ids => ?_, fun names => ?_, ?_⟩
  · refine ⟨(cell.get t).profiles ids, rfl, nodup_profiles _ ids, fun p => ?_⟩
    rw [mem_profiles, ht.holds_iff]
  · refine ⟨(cell.get t).holders names, rfl, nodup_holders hcoherent names, fun p => ?_⟩
    rw [mem_holders hcoherent, ht.holds_iff]
  · refine ⟨(cell.get t).all, nodup_all hcoherent, fun p => ?_, by simp [size, all]⟩
    rw [mem_all hcoherent, ht.holds_iff]

/-- A player takes a new name that another one holds. -/
def takeOver : List Write :=
  [.one ⟨⟨1⟩, ⟨"Ash", by decide⟩⟩, .all [⟨⟨2⟩, ⟨"Birch", by decide⟩⟩, ⟨⟨1⟩, ⟨"Birch", by decide⟩⟩]]

theorem memory_reads_takeOver :
    Cell.whole.get Memory.empty = Memory.empty ∧
      ∃ t, ((memory Cell.whole).writeEach takeOver).run Memory.empty = ⟨[], t, .ok ()⟩ ∧
        ∃ found, ((memory Cell.whole).getAllByName ["Ash", "Birch"]).run t = ⟨[], t, .ok found⟩ ∧
          ∀ p, p ∈ found ↔ p.name.text ∈ ["Ash", "Birch"] ∧ Stands (Write.history takeOver) p := by
  obtain ⟨t, hrun, -, -, hnames, -⟩ := memory_reads_history Cell.whole Memory.empty rfl takeOver
  obtain ⟨found, hfound, -, hmem⟩ := hnames ["Ash", "Birch"]
  exact ⟨rfl, t, hrun, found, hfound, hmem⟩

end Cache

end PlayerLookup
