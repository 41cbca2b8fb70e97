import PlayerLookup.Proofs.Cache.Door
import PlayerLookup.Proofs.Cache.Reopening

/-! The cache in a file and the cache in memory agree: given the same calls they find the same
profiles, through any closing and reopening of the file. While the file is closed it is like a
memory behind a shut door. -/

set_option autoImplicit false

namespace PlayerLookup

open Storage (Place)
open Storage.Table (ofProfiles replaceIn mem_replaceIn)

variable {σ : Type}

/-! ## The profiles in the rows -/

theorem mem_foldl_replaceIn {ps history : List Profile} (h : ∀ p, p ∈ ps ↔ Stands history p)
    (qs : List Profile) (p : Profile) :
    p ∈ qs.foldl replaceIn ps ↔ Stands (history ++ qs) p := by
  induction qs generalizing ps history with
  | nil => simpa using h p
  | cons q qs ih =>
    have hstep : ∀ p, p ∈ replaceIn ps q ↔ Stands (history ++ [q]) p := by
      intro p
      rw [mem_replaceIn, stands_concat, h, Profile.Displaces]
      by_cases hp : p = q
      · exact iff_of_true (Or.inl hp) (Or.inl hp)
      · have hne : ¬ (q.id = p.id ∧ q.name = p.name) := by
          rintro ⟨hid, hname⟩
          obtain ⟨i, n⟩ := p
          obtain ⟨j, k⟩ := q
          cases hid
          cases hname
          exact hp rfl
        tauto
    rw [List.foldl_cons, ih hstep, List.append_assoc, List.singleton_append]

/-! ## Reads of an open connection -/

namespace Connection

variable {c : Connection σ} {s : σ} {ps history : List Profile} {m : Memory}

theorem getAll_perm (hs : c.Stores s true ps) (hm : m.Reflects history)
    (hps : ∀ p, p ∈ ps ↔ Stands history p) (ids : List PlayerId) :
    ∃ found, (c.getAll ids).run s = ⟨[], s, .ok found⟩ ∧ found.Perm (m.profiles ids) := by
  have hids : ∀ p ∈ ps, ∀ q ∈ ps, p.id = q.id → p = q := fun p hp q hq =>
    hm.id_injective ((hps p).mp hp) ((hps q).mp hq)
  obtain ⟨found, hrun, hnodup, hmem⟩ :=
    select_run_open hs hids .uuid "read profiles from" (ids.map PlayerId.text)
  refine ⟨found, hrun, Batch.perm_of_mem_iff hnodup (m.nodup_profiles ids) fun p => ?_⟩
  have hkey : Storage.Column.uuid.of p ∈ ids.map PlayerId.text ↔ p.id ∈ ids :=
    List.mem_map_of_injective fun _ _ => PlayerId.text_injective
  rw [hmem, hkey, hps, Memory.mem_profiles, hm.holds_iff]
  exact and_comm

theorem getAllByName_perm (hs : c.Stores s true ps) (hm : m.Reflects history)
    (hps : ∀ p, p ∈ ps ↔ Stands history p) (names : List String) :
    ∃ found, (c.getAllByName names).run s = ⟨[], s, .ok found⟩ ∧
      found.Perm (m.holders names) := by
  have hids : ∀ p ∈ ps, ∀ q ∈ ps, p.id = q.id → p = q := fun p hp q hq =>
    hm.id_injective ((hps p).mp hp) ((hps q).mp hq)
  obtain ⟨found, hrun, -, hmem⟩ :=
    select_run_open hs hids .name "read profiles by name from" names
  have hnames : ∀ p ∈ found, ∀ q ∈ found, p.name.text = q.name.text → p = q := by
    intro p hp q hq hname
    rw [hmem, hps] at hp hq
    exact hm.name_injective hp.1 hq.1 (Name.ext_text hname)
  refine ⟨Batch.latestBy (·.name.text) found, ?_, Batch.perm_of_mem_iff
    (Batch.nodup_map_latestBy _ _) (Memory.nodup_holders hm.coherent names) fun p => ?_⟩
  · rw [getAllByName, Lookup.run_bind_quiet hrun]
    rfl
  · rw [Batch.mem_latestBy _ _ hnames, hmem, hps, Memory.mem_holders hm.coherent, hm.holds_iff]
    exact and_comm

end Connection

/-! ## One call -/

namespace Cache

variable {τ : Type}

/-- A connection and a memory behind a door are at the same point: both open or both shut, and the
rows are just the profiles that stand in the memory. -/
def Matched (c : Connection σ) (door : Cell τ Bool) (cell : Cell τ Memory) (s : σ) (u : τ) : Prop :=
  ∃ ps history, c.Stores s (door.get u) ps ∧ (cell.get u).Reflects history ∧
    ∀ p, p ∈ ps ↔ Stands history p

variable {c : Connection σ} {door : Cell τ Bool} {cell : Cell τ Memory} {s : σ} {u : τ}

theorem answer_stored_closed (c : Connection σ) (h : c.opened.get s = false) (k : CacheCall) :
    ((stored c).answer k).Yields s s [] := by
  refine answer_yields_nil (Connection.putAll_yields_closed h) (fun ids => ?_) (fun names => ?_) k
  · exact Connection.select_yields_closed h ..
  · have hfound := Connection.select_yields_closed h .name "read profiles by name from" names
    exact hfound.bind (f := fun found => return Batch.latestBy (·.name.text) found)
      (Lookup.yields_pure _ s)

/-- While they are open, a call finds the same profiles in both, and they stay matched. -/
theorem answer_matched_open (hapart : c.content.Apart c.opened) (hcell : cell.Apart door)
    (h : Matched c door cell s u) (hopen : door.get u = true) (k : CacheCall) :
    ∃ t u' found expected, ((stored c).answer k).Yields s t found ∧
      ((memory cell).answer k).Yields u u' expected ∧ found.Perm expected ∧
      Matched c door cell t u' ∧ (t = s ∨ ∃ x, t = c.content.set s x) := by
  have hstay := h
  obtain ⟨ps, history, hs, hm, hps⟩ := h
  rw [hopen] at hs
  cases k with
  | store w =>
    obtain ⟨t, hrun, ht, htouched⟩ := Connection.putAll_run_open hapart hs w.profiles
    obtain ⟨u', hrun', hm', hframe⟩ := storeInMemory_run cell w.profiles history u hm
    refine ⟨t, u', [], [], ?_, ?_, List.Perm.refl [],
      ⟨_, history ++ w.profiles, ?_, hm', mem_foldl_replaceIn hps w.profiles⟩, htouched⟩
    · rw [answer, write_eq]
      exact (Lookup.yields_of_run hrun).bind (Lookup.yields_pure [] t)
    · rw [answer, write_eq]
      exact (Lookup.yields_of_run hrun').bind (Lookup.yields_pure [] u')
    · rw [hframe Bool door hcell, hopen]
      exact ht
  | get id =>
    obtain ⟨found, hrun, hperm⟩ := Connection.getAll_perm hs hm hps [id]
    have hfind : found.find? (·.id == id) = ((cell.get u).profiles [id]).find? (·.id == id) :=
      (Batch.find?_key_eq_of_perm hperm.symm (Memory.nodup_profiles _ [id]) id).symm
    have hone : ((stored c).get id).Yields s s (found.find? (·.id == id)) :=
      (Lookup.yields_of_run hrun).bind (Lookup.yields_pure _ s)
    refine ⟨s, u, _, _, hone.bind (Lookup.yields_pure _ s), ⟨[], rfl⟩, ?_, hstay, Or.inl rfl⟩
    rw [hfind]
  | getAll ids =>
    obtain ⟨found, hrun, hperm⟩ := Connection.getAll_perm hs hm hps ids
    exact ⟨s, u, found, _, ⟨[], hrun⟩, ⟨[], rfl⟩, hperm, hstay, Or.inl rfl⟩
  | getByName name =>
    obtain ⟨found, hrun, hperm⟩ := Connection.getAllByName_perm hs hm hps [name]
    have hfind : found.find? (·.name.text == name) =
        ((cell.get u).holders [name]).find? (·.name.text == name) :=
      (Batch.find?_key_eq_of_perm hperm.symm (Memory.nodup_holders hm.coherent [name]) name).symm
    have hone : (oneByName (stored c).getAllByName name).Yields s s
        (found.find? (·.name.text == name)) :=
      (Lookup.yields_of_run hrun).bind (Lookup.yields_pure _ s)
    refine ⟨s, u, _, _, hone.bind (Lookup.yields_pure _ s), ⟨[], rfl⟩, ?_, hstay, Or.inl rfl⟩
    rw [hfind]
  | getAllByName names =>
    obtain ⟨found, hrun, hperm⟩ := Connection.getAllByName_perm hs hm hps names
    exact ⟨s, u, found, _, ⟨[], hrun⟩, ⟨[], rfl⟩, hperm, hstay, Or.inl rfl⟩

/-- A call finds the same profiles in both, whether they are open or shut, and they stay matched. -/
theorem answer_matched (hapart : c.content.Apart c.opened) (hcell : cell.Apart door)
    (h : Matched c door cell s u) (k : CacheCall) :
    ∃ t u' found expected, ((stored c).answer k).Yields s t found ∧
      ((behind door (memory cell)).answer k).Yields u u' expected ∧ found.Perm expected ∧
      Matched c door cell t u' ∧ (t = s ∨ ∃ x, t = c.content.set s x) := by
  cases hdoor : door.get u with
  | true =>
    obtain ⟨t, u', found, expected, hfound, ⟨events, hrun⟩, hrest⟩ :=
      answer_matched_open hapart hcell h hdoor k
    rw [← answer_behind_open (memory cell) hdoor] at hrun
    exact ⟨t, u', found, expected, hfound, ⟨events, hrun⟩, hrest⟩
  | false =>
    have hclosed : c.opened.get s = false := by
      obtain ⟨ps, history, hs, -⟩ := h
      rw [hs.opened_eq, hdoor]
    exact ⟨s, u, [], [], answer_stored_closed c hclosed k,
      answer_behind_shut (memory cell) hdoor k, List.Perm.refl [], h, Or.inl rfl⟩

end Cache

end PlayerLookup
