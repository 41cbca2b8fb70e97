import PlayerLookup.Proofs.Cache.Rows

/-! What a connection does while it is open and while it is closed. Open, it writes rows and finds
those with one of the keys, however many queries that takes; closed, it changes nothing and finds
nothing. -/

set_option autoImplicit false

namespace PlayerLookup

open Storage (Column Row Table Database)
open Storage.Table (ofProfiles replaceIn)

variable {σ : Type}

/-! ## A database with one table -/

namespace Storage.Database

theorem sameTitle_self (title : String) : sameTitle title title = true := beq_self_eq_true _

theorem find?_ofProfiles (title : String) (ps : List Profile) :
    find? [ofProfiles title ps] title = some (ofProfiles title ps) := by
  rw [find?, List.find?_cons_of_pos]
  exact sameTitle_self title

theorem setTable_ofProfiles (title : String) (ps qs : List Profile) :
    setTable (ofProfiles title qs) [ofProfiles title ps] = [ofProfiles title qs] := by
  rw [setTable, if_pos]
  exact sameTitle_self title

theorem writeRows_ofProfiles (title : String) (ps qs : List Profile) :
    writeRows [ofProfiles title ps] title (qs.map Connection.rowOfProfile) =
      .ok [ofProfiles title (qs.foldl replaceIn ps)] := by
  rw [writeRows, find?_ofProfiles]
  dsimp only
  rw [Table.foldlM_write_ofProfiles]
  change Except.ok (setTable _ _) = _
  rw [setTable_ofProfiles]

theorem select_ofProfiles (title : String) (ps : List Profile) (c : Column) (keys : List String) :
    ∃ rows, select [ofProfiles title ps] title c keys = .ok rows ∧
      ∀ row, row ∈ rows ↔ ∃ p ∈ ps, c.of p ∈ keys ∧ Connection.rowOfProfile p = row := by
  rw [select, find?_ofProfiles]
  exact Table.select_ofProfiles title ps c keys

end Storage.Database

namespace Connection

/-- The state of the database behind a connection: whether it is open, and the profiles in it. -/
structure Stores (c : Connection σ) (s : σ) (isOpen : Bool) (ps : List Profile) : Prop where
  opened_eq : c.opened.get s = isOpen
  content_eq : c.content.get s = .database [ofProfiles c.title ps]

variable {c : Connection σ} {s : σ} {ps : List Profile}

theorem database_run_open (h : c.Stores s true ps) :
    c.database.run s = ⟨[], s, .ok (.ok [ofProfiles c.title ps])⟩ := by
  change (⟨[], s, .ok (if c.opened.get s then (c.content.get s).tables else _)⟩ :
    Run σ (Except Storage.Fault Database)) = _
  rw [h.opened_eq, h.content_eq]
  rfl

theorem database_run_closed (h : c.opened.get s = false) :
    c.database.run s = ⟨[], s, .ok (.error .closed)⟩ := by
  change (⟨[], s, .ok (if c.opened.get s then (c.content.get s).tables else _)⟩ :
    Run σ (Except Storage.Fault Database)) = _
  rw [h]
  rfl

/-! ## Writing -/

/-- An open connection replaces the rows in conflict with the new ones; all that it changes is the
content of the database. -/
theorem putAll_run_open (hapart : c.content.Apart c.opened) (h : c.Stores s true ps)
    (qs : List Profile) :
    ∃ t, (c.putAll qs).run s = ⟨[], t, .ok ()⟩ ∧ c.Stores t true (qs.foldl replaceIn ps) ∧
      (t = s ∨ ∃ x, t = c.content.set s x) := by
  by_cases hqs : qs = []
  · subst hqs
    exact ⟨s, rfl, h, Or.inl rfl⟩
  · refine ⟨c.content.set s (.database [ofProfiles c.title (qs.foldl replaceIn ps)]), ?_,
      ⟨?_, c.content.get_set s _⟩, Or.inr ⟨_, rfl⟩⟩
    · rw [putAll, if_neg hqs, Lookup.run_bind_quiet (database_run_open h)]
      dsimp only [Except.bind]
      rw [Database.writeRows_ofProfiles]
      rfl
    · rw [hapart s]
      exact h.opened_eq

theorem putAll_yields_closed (h : c.opened.get s = false) (qs : List Profile) :
    (c.putAll qs).Yields s s () := by
  by_cases hqs : qs = []
  · subst hqs
    exact Lookup.yields_pure () s
  · rw [putAll, if_neg hqs]
    exact (Lookup.yields_of_run (database_run_closed h)).bind (Lookup.yields_log ..)

/-! ## Reading -/

theorem decode_run (c : Connection σ) (s : σ) (rows : List Row)
    (h : ∀ row ∈ rows, ∃ p, rowOfProfile p = row) :
    (c.decode rows).run s = ⟨[], s, .ok (rows.filterMap profileOfRow?)⟩ := by
  induction rows with
  | nil => rfl
  | cons row rest ih =>
    obtain ⟨p, hp⟩ := h row List.mem_cons_self
    have hrow : profileOfRow? row = some p := by rw [← hp, Storage.profileOfRow?_rowOfProfile]
    have hrest := ih fun r hr => h r (List.mem_cons_of_mem row hr)
    rw [decode, hrow, List.filterMap_cons, hrow]
    exact Lookup.run_bind_quiet hrest _

theorem mem_filterMap_profileOfRow? {rows : List Row} {P : Profile → Prop}
    (h : ∀ row, row ∈ rows ↔ ∃ p, P p ∧ rowOfProfile p = row) (p : Profile) :
    p ∈ rows.filterMap profileOfRow? ↔ P p := by
  rw [List.mem_filterMap]
  constructor
  · rintro ⟨row, hrow, hp⟩
    obtain ⟨q, hq, rfl⟩ := (h row).mp hrow
    rw [Storage.profileOfRow?_rowOfProfile] at hp
    exact Option.some.inj hp ▸ hq
  · intro hp
    exact ⟨rowOfProfile p, (h _).mpr ⟨p, hp, rfl⟩, Storage.profileOfRow?_rowOfProfile p⟩

/-- Asked part by part, an open connection finds the profiles with a key in one of the parts. -/
theorem selectParts_run_open (h : c.Stores s true ps) (column : Column)
    (parts : List (List String)) :
    ∃ found, (c.selectParts column parts).run s = ⟨[], s, .ok (.ok found)⟩ ∧
      ∀ p, p ∈ found ↔ p ∈ ps ∧ column.of p ∈ parts.flatten := by
  induction parts with
  | nil => exact ⟨[], rfl, by simp⟩
  | cons keys rest ih =>
    obtain ⟨more, hmore, hmem⟩ := ih
    obtain ⟨rows, hrows, hrow⟩ := Database.select_ofProfiles c.title ps column keys
    have hrow' : ∀ row, row ∈ rows ↔
        ∃ p, (p ∈ ps ∧ column.of p ∈ keys) ∧ rowOfProfile p = row := by
      simpa only [and_assoc] using hrow
    have hdecode := decode_run c s rows fun row hr => by
      obtain ⟨p, -, hp⟩ := (hrow' row).mp hr
      exact ⟨p, hp⟩
    refine ⟨rows.filterMap profileOfRow? ++ more, ?_, fun p => ?_⟩
    · rw [selectParts, Lookup.run_bind_quiet (database_run_open h)]
      dsimp only [Except.bind]
      rw [hrows]
      dsimp only
      rw [Lookup.run_bind_quiet hdecode, Lookup.run_bind_quiet hmore]
      rfl
    · rw [List.mem_append, mem_filterMap_profileOfRow? hrow', hmem, List.flatten_cons,
        List.mem_append]
      tauto

theorem select_run_open (h : c.Stores s true ps)
    (hids : ∀ p ∈ ps, ∀ q ∈ ps, p.id = q.id → p = q) (column : Column) (attempted : String)
    (keys : List String) :
    ∃ found, (c.select column attempted keys).run s = ⟨[], s, .ok found⟩ ∧
      (found.map Profile.id).Nodup ∧ ∀ p, p ∈ found ↔ p ∈ ps ∧ column.of p ∈ keys := by
  obtain ⟨found, hrun, hmem⟩ :=
    selectParts_run_open h column (Batch.chunks keysPerQuery (Batch.unique keys))
  have hsame : ∀ p ∈ found, ∀ q ∈ found, p.id = q.id → p = q := fun p hp q hq =>
    hids p ((hmem p).mp hp).1 q ((hmem q).mp hq).1
  refine ⟨Batch.latestBy Profile.id found, ?_, Batch.nodup_map_latestBy _ _, fun p => ?_⟩
  · rw [select, Lookup.run_bind_quiet hrun]
    rfl
  · rw [Batch.mem_latestBy _ _ hsame, hmem, Batch.flatten_chunks, Batch.mem_unique]

theorem select_yields_closed (h : c.opened.get s = false) (column : Column) (attempted : String)
    (keys : List String) : (c.select column attempted keys).Yields s s [] := by
  rw [select]
  cases hparts : Batch.chunks keysPerQuery (Batch.unique keys) with
  | nil => exact (Lookup.yields_pure _ s).bind (Lookup.yields_pure _ s)
  | cons keys' rest =>
    have hfault : (c.selectParts column (keys' :: rest)).Yields s s (.error .closed) := by
      rw [selectParts]
      exact (Lookup.yields_of_run (database_run_closed h)).bind (Lookup.yields_pure _ s)
    exact hfault.bind ((Lookup.yields_log ..).bind (Lookup.yields_pure _ s))

end Connection

end PlayerLookup
